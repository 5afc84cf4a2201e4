import PciInventory.Snapshot.Publish
import PciInventory.Snapshot.Reader
import PciInventory.Source

/-!
# Snapshots as a data source

A snapshot source reads its file when it is first asked for anything and keeps
what it read; later changes to the file do not reach it.  A failed load leaves
it unloaded, so the next request tries again.  Saving writes to the same path
but neither loads nor changes what has been loaded.
-/

namespace PciInventory

structure SnapshotSource where
  path : Bytes
  loaded : Option Snapshot
deriving DecidableEq

namespace SnapshotSource

def ofPath (path : Bytes) : SnapshotSource :=
  ⟨path, none⟩

def load (tree : FileTree) (path : Bytes) : Except SnapshotError Snapshot :=
  match tree.contentAt path with
  | .ok content => Snapshot.decode content
  | .error error => .error (.io error)

/-- The snapshot of a source, read from the tree if need be. -/
def snapshot (tree : FileTree) (source : SnapshotSource) :
    Except SnapshotError Snapshot × SnapshotSource :=
  match source.loaded with
  | some snapshot => (.ok snapshot, source)
  | none =>
      match load tree source.path with
      | .ok snapshot => (.ok snapshot, { source with loaded := some snapshot })
      | .error error => (.error error, source)

/-- A source that has loaded its file already. -/
def openAt (tree : FileTree) (path : Bytes) :
    Except SnapshotError SnapshotSource :=
  (load tree path).map fun snapshot => ⟨path, some snapshot⟩

def listDevices (tree : FileTree) (source : SnapshotSource) :
    Except ScanError (List DeviceRecord) × SnapshotSource :=
  match source.snapshot tree with
  | (.ok snapshot, source) => (.ok snapshot.devices, source)
  | (.error error, source) => (.error (.snapshot error), source)

def listBuses (tree : FileTree) (source : SnapshotSource) :
    Except ScanError (List BusRecord) × SnapshotSource :=
  match source.snapshot tree with
  | (.ok snapshot, source) => (.ok snapshot.buses, source)
  | (.error error, source) => (.error (.snapshot error), source)

/-- The tree with the records of a topology saved at the path of a source. -/
def save (tree : FileTree) (source : SnapshotSource) (topology : Topology)
    (created : UInt64) : Except ScanError FileTree :=
  match Snapshot.publish tree source.path topology.deviceRecords
      topology.busRecords created with
  | .ok (tree, _) => .ok tree
  | .error error => .error (.snapshot error)

/-- Snapshot sources as data sources.  Their state holds the file tree they are
read from and saved to; what they save is dated `created`. -/
def source (created : UInt64) : DataSource (FileTree × SnapshotSource) where
  listDevices := fun (tree, source) =>
    let (outcome, source) := source.listDevices tree
    (outcome, tree, source)
  listBuses := fun (tree, source) =>
    let (outcome, source) := source.listBuses tree
    (outcome, tree, source)
  save := fun (tree, source) topology =>
    match source.save tree topology created with
    | .ok tree => (.ok (), tree, source)
    | .error error => (.error error, tree, source)

end SnapshotSource

end PciInventory
