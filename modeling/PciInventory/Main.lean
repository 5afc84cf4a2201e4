import PciInventory.CommandLine.Run
import Std.Time.DateTime.Timestamp

/-!
# The program

The run itself is a function of a file tree.  This layer copies what a run may
look at from the system into such a tree, performs the run, writes the one file
that it may have added, and prints.
-/

namespace PciInventory.Main

/-- The text of a path; the program's own paths are all text. -/
def pathText (path : Bytes) : String :=
  Utf8.display path

/-- The tree after an addition, or as it was if that is not possible. -/
def orSame (tree : FileTree) (outcome : Except IoError FileTree) : FileTree :=
  match outcome with
  | .ok tree => tree
  | .error _ => tree

/-- Copies the file at a path, if there is one that can be read. -/
def copyFile (tree : FileTree) (path : Bytes) : IO FileTree := do
  try
    let content ← IO.FS.readBinFile (pathText path)
    return orSame tree (tree.makeFile path content.data.toList)
  catch _ => return tree

/-- What a link leads to, or nothing if it leads nowhere. -/
def targetOf (path : Bytes) : IO Bytes := do
  try
    let place := (← IO.currentDir) / pathText path
    return Bytes.ofText (← IO.FS.realPath place).toString
  catch _ => return []

/-- Copies the link at a path, if there is one, with its target resolved.  Of
anything else there, only its presence is copied. -/
def copyLink (tree : FileTree) (path : Bytes) : IO FileTree := do
  try
    let place := (← IO.currentDir) / pathText path
    let status ← place.symlinkMetadata
    match status.type with
    | .symlink => return orSame tree (tree.makeLink path (← targetOf path))
    | _ => return orSame tree (tree.makeFile path [])
  catch _ => return tree

/-- The names in the directory at a path, and whether there is one. -/
def namesAt (path : Bytes) : IO (Option (List Bytes)) := do
  try
    let place := (← IO.currentDir) / pathText path
    let entries ← place.readDir
    return some (entries.toList.map fun entry => Bytes.ofText entry.fileName)
  catch _ => return none

def copyDevice (tree : FileTree) (directory : Bytes) : IO FileTree := do
  let within (name : String) := Path.join directory (Bytes.ofText name)
  let tree := orSame tree (tree.makeDirectory directory)
  let tree ← copyFile tree (within "config")
  let tree ← copyFile tree (within "resource")
  let tree ← copyFile tree (within "numa_node")
  let tree ← copyLink tree (within "driver")
  copyLink tree (within "iommu_group")

/-- Copies a directory, each of its entries by `copyEntry`.  A file in its place
is copied as a file. -/
def copyDirectory (copyEntry : FileTree → Bytes → IO FileTree)
    (tree : FileTree) (directory : Bytes) : IO FileTree := do
  match ← namesAt directory with
  | none => copyFile tree directory
  | some names =>
      let tree := orSame tree (tree.makeDirectory directory)
      names.foldlM
        (fun tree name => copyEntry tree (Path.join directory name)) tree

def copySystem (tree : FileTree) (root : Bytes) : IO FileTree := do
  let tree ← copyDirectory copyLink tree (LiveSource.busDirectory root)
  copyDirectory copyDevice tree (LiveSource.deviceDirectory root)

/-- Notes whether a name is free, and the directory it would be in. -/
def copyTarget (tree : FileTree) (path : Bytes) : IO FileTree := do
  let directory := Path.directoryOf path
  let tree ←
    match ← namesAt directory with
    | some _ => pure (orSame tree (tree.makeDirectory directory))
    | none => pure tree
  match tree.entryAt .named path with
  | .ok _ => return tree
  | .error _ => copyLink tree path

/-- The part of the system that a run with these options can look at. -/
def copyFor (environment : Environment)
    (options : CommandLine.Options) : IO FileTree := do
  let here ← IO.currentDir
  let current := (Path.segments (Bytes.ofText here.toString)).reverse
  let tree := orSame FileTree.empty
    (FileTree.empty.makeDirectory (Bytes.ofText here.toString))
  let tree := { tree with current }
  let places := Settings.databasePlaces.map Bytes.ofText
  let named := [options.database,
    environment.lookup Settings.databaseVariable, options.load]
  let tree ← (places ++ named.reduceOption).foldlM copyFile tree
  let roots := [options.root, environment.lookup Settings.rootVariable,
    some LiveSource.defaultRoot]
  let tree ← roots.reduceOption.foldlM copySystem tree
  match options.save with
  | some path => copyTarget tree path
  | none => return tree

def readEnvironment : IO Environment := do
  let pairs ← [Settings.rootVariable, Settings.databaseVariable].mapM
    fun name => do
      return (← IO.getEnv name).map fun value => (name, Bytes.ofText value)
  return pairs.reduceOption

/-- Writes the file that a run has added, without replacing any other. -/
def writeSaved (outcome : CommandLine.Outcome)
    (options : CommandLine.Options) : IO Unit := do
  match options.save with
  | none => return
  | some path =>
      match outcome.code, outcome.tree.contentAt path with
      | 0, .ok content =>
          let handle ← IO.FS.Handle.mk (pathText path) .writeNew
          handle.write ⟨content.toArray⟩
          handle.flush
      | _, _ => return

def requested (arguments : List Bytes) : Option CommandLine.Options :=
  match CommandLine.request arguments with
  | .run options => some options
  | _ => none

end PciInventory.Main

open PciInventory in
def main (arguments : List String) : IO UInt32 := do
  let arguments := arguments.map Bytes.ofText
  let environment ← Main.readEnvironment
  let options := Main.requested arguments
  let tree ←
    match options with
    | some options => Main.copyFor environment options
    | none => pure FileTree.empty
  let now ← Std.Time.Timestamp.now
  let created := UInt64.ofNat now.toSecondsSinceUnixEpoch.val.toNat
  let outcome := CommandLine.run tree environment created arguments
  for message in outcome.log do
    IO.eprintln s!"WARN {message}"
  if let some options := options then
    Main.writeSaved outcome options
  IO.print outcome.output
  IO.eprint outcome.report
  return UInt32.ofNat outcome.code
