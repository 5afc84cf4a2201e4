import PciInventory.FileTree.Basic

/-!
# Changes to a file tree

Each operation changes one entry or fails and changes nothing.  Writing
replaces the content of a file or makes a new one.  A new name, in contrast, is
given only where nothing has it yet, not even a link that leads nowhere.
-/

namespace PciInventory.FileTree

def setContent (tree : FileTree) (path content : Bytes) :
    Except IoError FileTree := do
  match ← tree.resolve .written path with
  | .occupied location (.file _) =>
      return tree.insert location (.file content)
  | .occupied _ _ => .error (.os .isDirectory)
  | .free location => return tree.insert location (.file content)

/-- Removes the file or link at a path.  Only a directory may be named with a
separator at the end, and that cannot be removed in this way. -/
def remove (tree : FileTree) (path : Bytes) :
    Except IoError FileTree := do
  checkPath path
  match ← tree.entryAt .named (Path.withoutEnd path) with
  | (_, .directory) => .error (.os .isDirectory)
  | (location, _) =>
      if Path.endsInSeparator path then .error (.os .notDirectory)
      else return tree.erase location

def newName (tree : FileTree) (path : Bytes) : Except IoError Location := do
  if path.contains 0 then
    throw (.os .invalid)
  checkPath path
  match (Path.segments path).getLast? with
  | none => .error (.os .alreadyExists)
  | some last =>
      let start := if Path.isAbsolute path then [] else tree.current
      let parents := (Path.segments path).dropLast
      match tree.go .reached maxLinks start (parents ++ [Path.here]) with
      | .error error => .error (.os error)
      | .ok (.free _) => .error (.os .noEntry)
      | .ok (.occupied directory _) =>
          if last = Path.here ∨ last = Path.up then
            .error (.os .alreadyExists)
          else if maxNameLength < last.length then
            .error (.os .nameTooLong)
          else
            let location := last :: directory
            match tree.find? location with
            | some _ => .error (.os .alreadyExists)
            | none =>
                if Path.endsInSeparator path then .error (.os .noEntry)
                else .ok location

/-- Whether a path leads to a directory in which a file can be made. -/
def checkDirectory (tree : FileTree) (path : Bytes) : Except IoError Unit := do
  if path.contains 0 then
    throw (.os .invalid)
  match ← tree.entryAt .reached path with
  | (_, .directory) => return ()
  | _ => .error (.os .notDirectory)

/-- Makes the directories that lead along `segments` from `location` on, as far
as they are missing. -/
def makeDirectories (tree : FileTree) (location : Location) :
    List Bytes → Except IoError (FileTree × Location)
  | [] => .ok (tree, location)
  | segment :: rest =>
      match tree.go .reached maxLinks location [segment] with
      | .ok (.occupied next .directory) => tree.makeDirectories next rest
      | .ok (.occupied _ _) => .error (.os .notDirectory)
      | .ok (.free next) =>
          (tree.insert next .directory).makeDirectories next rest
      | .error error => .error (.os error)

def makeDirectory (tree : FileTree) (path : Bytes) :
    Except IoError FileTree := do
  let start := if Path.isAbsolute path then [] else tree.current
  let made ← tree.makeDirectories start (Path.segments path)
  return made.1

def makeFile (tree : FileTree) (path content : Bytes) :
    Except IoError FileTree := do
  let tree ← tree.makeDirectory (Path.directoryOf path)
  tree.setContent path content

def makeLink (tree : FileTree) (path target : Bytes) :
    Except IoError FileTree := do
  let tree ← tree.makeDirectory (Path.directoryOf path)
  let location ← tree.newName path
  return tree.insert location (.link target)

end PciInventory.FileTree
