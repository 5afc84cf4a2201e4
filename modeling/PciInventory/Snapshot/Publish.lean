import PciInventory.FileTree.Change
import PciInventory.Snapshot.Writer

/-!
# Publishing a snapshot

A snapshot is written without a name and named once it is complete, so a reader
sees either the whole of it or nothing.  A name that is taken is never
replaced.  The order of failures is that of the steps: the directory, the
content, the name.  The file system is one that has files without a name, and
takes all that is written to them.
-/

namespace PciInventory.Snapshot

/-- Why the finished file could not be given its name. -/
def namingError (path : Bytes) (error : IoError) : SnapshotError :=
  if error = .os .alreadyExists then .targetExists path else .io error

/-- The tree with a snapshot at `path`, and the size of the snapshot. -/
def publish (tree : FileTree) (path : Bytes) (devices : List DeviceRecord)
    (buses : List BusRecord) (created : UInt64) :
    Except SnapshotError (FileTree × Nat) :=
  match tree.checkDirectory (Path.directoryOf path) with
  | .error error => .error (.io error)
  | .ok _ =>
      match encode devices buses created with
      | .error error => .error error
      | .ok content =>
          match tree.newName path with
          | .error error => .error (namingError path error)
          | .ok location =>
              .ok (tree.insert location (.file content), content.length)

end PciInventory.Snapshot
