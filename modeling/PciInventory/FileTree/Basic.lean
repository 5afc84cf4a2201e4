import PciInventory.FileTree.Path
import PciInventory.OsError
import PciInventory.Text.Utf8

/-!
# File trees

A file tree maps locations, the lists of names from an entry up to the top, to
files, directories and symbolic links.  A path is resolved name by name: every
name but the last has to lead to a directory, links are followed, at most forty
of them, and a failure is the system's error for it.  Looking things up never
changes the tree.
-/

namespace PciInventory

inductive Entry where
  | file (content : Bytes)
  | directory
  | link (target : Bytes)
deriving DecidableEq

/-- The name of an entry, then the names of the directories around it from the
innermost on. -/
abbrev Location := List Bytes

structure FileTree where
  entries : List (Location × Entry)
  /-- The directory that relative paths start from. -/
  current : Location
deriving DecidableEq

/-- What a path is to find at its last segment. -/
inductive Aim where
  /-- The entry of that name, even if it is a link. -/
  | named
  /-- The entry that a link there leads to. -/
  | reached
  /-- The file to write, a link there followed.  A separator behind the name is
  refused, whatever has the name. -/
  | written
deriving DecidableEq

/-- What a path leads to: an entry, or a free name in an existing directory. -/
inductive Place where
  | occupied (location : Location) (entry : Entry)
  | free (location : Location)
deriving DecidableEq

namespace FileTree

def empty : FileTree :=
  ⟨[], []⟩

/-- The entry at a location.  The top is always a directory. -/
def find? (tree : FileTree) (location : Location) : Option Entry :=
  if location.isEmpty then some .directory
  else tree.entries.lookup location

/-- The tree with `entry` at `location`, whatever was there before. -/
def insert (tree : FileTree) (location : Location) (entry : Entry) :
    FileTree :=
  { tree with
    entries :=
      (location, entry) ::
        tree.entries.filter fun other => other.1 ≠ location }

def erase (tree : FileTree) (location : Location) : FileTree :=
  { tree with
    entries := tree.entries.filter fun other => other.1 ≠ location }

def maxLinks : Nat := 40
def maxNameLength : Nat := 255
def maxPathLength : Nat := 4095

/-- Goes the steps of a path from `location` on, following at most `links`
links. -/
def go (tree : FileTree) (aim : Aim) (links : Nat)
    (location : Location) : List Bytes → Except OsError Place
  | [] =>
      match tree.find? location with
      | some entry => .ok (.occupied location entry)
      | none => .error .noEntry
  | step :: rest =>
      match tree.find? location with
      | some .directory =>
          if step.isEmpty ∨ step = Path.here then
            go tree aim links location rest
          else if step = Path.up then
            go tree aim links location.tail rest
          else if aim = .written ∧ rest = [[]] then
            .error .isDirectory
          else if maxNameLength < step.length then
            .error .nameTooLong
          else
            let next := step :: location
            match tree.find? next with
            | none =>
                if rest.isEmpty then .ok (.free next) else .error .noEntry
            | some (.link target) =>
                if rest.isEmpty ∧ aim = .named then
                  .ok (.occupied next (.link target))
                else
                  match links with
                  | 0 => .error .linkLoop
                  | links + 1 =>
                      let start :=
                        if Path.isAbsolute target then [] else location
                      go tree aim links start
                        (Path.steps target ++ rest)
            | some _ => go tree aim links next rest
      | _ => .error .notDirectory
termination_by steps => (links, steps.length)

/-- Refuses what no tree has a place for: a path with a zero byte, an empty path
and one that is too long as it is written. -/
def checkPath (path : Bytes) : Except IoError Unit :=
  if path.contains 0 then .error .nulInPath
  else if path.isEmpty then .error (.os .noEntry)
  else if maxPathLength < path.length then .error (.os .nameTooLong)
  else .ok ()

def resolve (tree : FileTree) (aim : Aim) (path : Bytes) :
    Except IoError Place := do
  checkPath path
  let start := if Path.isAbsolute path then [] else tree.current
  match tree.go aim maxLinks start (Path.steps path) with
  | .ok place => return place
  | .error error => .error (.os error)

def entryAt (tree : FileTree) (aim : Aim) (path : Bytes) :
    Except IoError (Location × Entry) := do
  match ← tree.resolve aim path with
  | .occupied location entry => return (location, entry)
  | .free _ => .error (.os .noEntry)

/-- What opening a path for reading gives. -/
inductive Opened where
  | file (content : Bytes)
  | directory (location : Location)
deriving DecidableEq

def openAt (tree : FileTree) (path : Bytes) : Except IoError Opened := do
  match ← tree.entryAt .reached path with
  | (_, .file content) => return .file content
  | (location, _) => return .directory location

/-- The size that the system reports.  What it reports for a directory says
nothing about reading, which fails. -/
def Opened.size : Opened → Nat
  | .file content => content.length
  | .directory _ => 0

def Opened.read : Opened → Except IoError Bytes
  | .file content => .ok content
  | .directory _ => .error (.os .isDirectory)

def contentAt (tree : FileTree) (path : Bytes) : Except IoError Bytes := do
  (← tree.openAt path).read

def readText (tree : FileTree) (path : Bytes) : Except IoError String := do
  match Utf8.decode? (← tree.contentAt path) with
  | some text => return text
  | none => .error .notText

/-- The names of a directory's entries.  A system gives them in no particular
order; here they ascend bytewise. -/
def namesIn (tree : FileTree) (location : Location) : List Bytes :=
  let names := tree.entries.filterMap fun entry =>
    match entry.1 with
    | name :: directory => if directory = location then some name else none
    | [] => none
  names.mergeSort Bytes.precedesOrEq

def list (tree : FileTree) (path : Bytes) :
    Except IoError (List Bytes) := do
  match ← tree.openAt path with
  | .directory location => return tree.namesIn location
  | .file _ => .error (.os .notDirectory)

def readLink (tree : FileTree) (path : Bytes) : Except IoError Bytes := do
  match ← tree.entryAt .named path with
  | (_, .link target) => return target
  | _ => .error (.os .invalid)

def isFile (tree : FileTree) (path : Bytes) : Bool :=
  match tree.entryAt .reached path with
  | .ok (_, .file _) => true
  | _ => false

end FileTree

end PciInventory
