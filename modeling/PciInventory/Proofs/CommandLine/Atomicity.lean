import PciInventory.Proofs.CommandLine.Replay

/-!
# Runs that complete and runs that change nothing

A run goes through its stages in order: the settings, the names, the records of
the source, the topology, the new snapshot.  The first stage that fails ends the
run, before anything is printed and with the tree as it was.  A run that gets
through all of them prints the topology of the records that it read, and the one
thing that it may have added to the tree is the snapshot of that topology.
-/

namespace PciInventory.CommandLine

variable {tree saved : FileTree} {environment : Environment}
  {created : UInt64} {settings : Settings} {options : Options}
  {resolver : Names.Resolver} {shown : Topology}

/-! ## The source -/

/-- The records of the source that the options select: those that a snapshot
decodes to, or those of the running system. -/
def Selects (tree : FileTree) (settings : Settings) (options : Options)
    (records : List DeviceRecord) (buses : List BusRecord) : Prop :=
  match options.load with
  | some path =>
      ∃ content date, tree.contentAt path = .ok content ∧
        Snapshot.decode content = .ok ⟨date, records, buses⟩
  | none =>
      let root := options.root.getD settings.root
      LiveSource.devices tree root = .ok records ∧
        LiveSource.buses tree root = .ok buses

end PciInventory.CommandLine
