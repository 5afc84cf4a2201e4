import PciInventory.Proofs.Device.Modelling
import PciInventory.Proofs.Snapshot.Publication
import PciInventory.Proofs.Topology.Changed
import PciInventory.Proofs.Topology.Construction

/-!
# Replaying a saved topology

A saved topology is its records as the snapshot keeps them.  Its devices are in
address order and its buses in key order already, so building a topology from
them moves nothing; the devices are modelled as before, with the names that the
database has for them.  What comes back is the topology itself if its records are
kept exactly, and otherwise differs from it in the values that are not kept.
-/

namespace PciInventory

/-! ## What is kept of a topology -/

/-- The device of the record that a snapshot gives back. -/
def Device.stored (device : Device) : Device :=
  { device with record := device.record.stored }

def Topology.stored (topology : Topology) : Topology :=
  { topology with devices := topology.devices.map Device.stored }

namespace Device

theorem stored_address {device : Device}
    (hrange : device.address.InRange) :
    device.stored.address = device.address :=
  (Address.masked_eq_self_iff _).mpr hrange

theorem stored_eq {device : Device} (hkept : device.record.KeptExactly) :
    device.stored = device := by
  rw [stored, hkept.stored_eq]

theorem ModelledOver.stored {database : Bytes} {device : Device}
    (hmodelled : device.ModelledOver database)
    (hrange : device.address.InRange) :
    device.stored.ModelledOver database := by
  have haddress : device.stored.record.address = device.record.address :=
    stored_address hrange
  have hsame :
      interpret device.stored.record = interpret device.record := by
    unfold interpret
    rw [haddress]
    rfl
  exact ⟨hsame.trans hmodelled.interpret_eq, hmodelled.names_eq⟩

end Device

namespace Topology

theorem stored_eq {topology : Topology}
    (hkept : ∀ device ∈ topology.devices, device.record.KeptExactly) :
    topology.stored = topology := by
  have hdevices : topology.devices.map Device.stored = topology.devices := by
    calc
      topology.devices.map Device.stored = topology.devices.map id :=
        List.map_congr_left fun device hdevice =>
          Device.stored_eq (hkept device hdevice)
      _ = topology.devices := List.map_id _
  rw [stored, hdevices]

theorem deviceRecords_stored (topology : Topology) :
    topology.stored.deviceRecords =
      topology.deviceRecords.map DeviceRecord.stored := by
  simp only [deviceRecords, stored, List.map_map]
  rfl

/-! ## Building again -/

theorem insert_eq_concat {bus : Bus} {buses : List Bus}
    (hlast : ∀ other ∈ buses, other.id.rank < bus.id.rank) :
    bus.insert buses = buses ++ [bus] := by
  induction buses with
  | nil => rfl
  | cons other rest ih =>
      obtain ⟨hother, hrest⟩ := List.forall_mem_cons.mp hlast
      rw [Bus.insert, if_neg (Nat.lt_asymm hother), ih hrest,
        List.cons_append]

/-- The buses of a bus map are added one behind the other. -/
theorem BusMap.addBuses_records {devices : List Device}
    {front rest : List Bus} (hmap : BusMap devices (front ++ rest)) :
    Topology.addBuses devices front (rest.map Bus.record) =
      .ok (front ++ rest) := by
  induction rest generalizing front with
  | nil => rw [List.append_nil]; rfl
  | cons bus rest ih =>
      have hbefore : ∀ other ∈ front, other.id.rank < bus.id.rank :=
        fun other hother =>
          (List.pairwise_append.mp hmap.ascending).2.2 other hother bus
            List.mem_cons_self
      have hnew : ¬(front.any fun other =>
          decide (other.id = bus.record.id)) = true := by
        simp only [List.any_eq_true, decide_eq_true_eq, not_exists, not_and]
        intro other hother hid
        have hlt := hbefore other hother
        rw [hid] at hlt
        exact Nat.lt_irrefl _ hlt
      have hbus : (⟨bus.record.id, bus.record.isRoot,
          membersOf devices bus.record.id⟩ : Bus) = bus := by
        have hmembers : bus.members = membersOf devices bus.id :=
          hmap.members bus (by simp)
        unfold Bus.record
        rw [← hmembers]
      rw [List.map_cons, Topology.addBuses, if_neg hnew]
      simp only [hbus]
      rw [insert_eq_concat hbefore, ih]
      · simp
      · simpa using hmap

theorem BusMap.assemble_records {topology : Topology}
    (hmap : BusMap topology.devices topology.buses) :
    assemble topology.devices topology.busRecords = .ok topology := by
  have hadded :
      Topology.addBuses topology.devices [] (topology.buses.map Bus.record) =
        .ok ([] ++ topology.buses) :=
    BusMap.addBuses_records hmap
  rw [List.nil_append] at hadded
  unfold assemble busRecords
  rw [hadded]
  rfl

/-- What building leaves, put together: devices in address order that are
modelled over the database, and a bus map over them. -/
structure BuiltOver (database : Bytes) (topology : Topology) : Prop where
  modelled : ∀ device ∈ topology.devices, device.ModelledOver database
  ascending : topology.devices.Pairwise fun first second =>
    first.address.rank ≤ second.address.rank
  busMap : BusMap topology.devices topology.buses

variable {database : Bytes} {resolver : Names.Resolver}

theorem builtOver_of_ofRecords {records : List DeviceRecord}
    {buses : List BusRecord} {topology : Topology}
    (hover : resolver.IsOver database)
    (hbuilt : (ofRecords records buses resolver).outcome = .ok topology) :
    topology.BuiltOver database ∧
      ∀ device ∈ topology.devices, device.record ∈ records := by
  obtain ⟨hascending, hmap⟩ := sorted_and_busMap_of_ofRecords hbuilt
  have hdevices : ∀ device ∈ topology.devices,
      device.record ∈ records ∧ device.ModelledOver database := by
    intro device hdevice
    rw [(outcome_eq_ok_iff.mp hbuilt).1] at hdevice
    exact Device.built_modelled hover device
      ((List.mergeSort_perm _ _).mem_iff.mp hdevice)
  exact ⟨⟨fun device hdevice => (hdevices device hdevice).2, hascending,
    hmap⟩, fun device hdevice => (hdevices device hdevice).1⟩

/-- A built topology is built again from its own records. -/
theorem BuiltOver.ofRecords_records {topology : Topology}
    (hbuilt : topology.BuiltOver database)
    (hover : resolver.IsOver database) :
    let build :=
      ofRecords topology.deviceRecords topology.busRecords resolver
    build.outcome = .ok topology ∧ build.warnings = [] := by
  obtain ⟨next, hmodelled⟩ :=
    Modelled.ofRecords_records hbuilt.modelled hover
  constructor
  · apply outcome_ofRecords_of_sorted (congrArg Modelled.outcome hmodelled)
    · simpa using hbuilt.ascending
    · exact hbuilt.busMap.assemble_records
  · exact congrArg Modelled.warnings hmodelled

theorem BuiltOver.stored {topology : Topology}
    (hbuilt : topology.BuiltOver database)
    (hrange : ∀ device ∈ topology.devices, device.address.InRange) :
    topology.stored.BuiltOver database := by
  have haddress : ∀ device ∈ topology.devices,
      device.stored.address = device.address :=
    fun device hdevice => Device.stored_address (hrange device hdevice)
  refine ⟨?_, ?_, hbuilt.busMap.ascending, ?_⟩
  · intro device hdevice
    obtain ⟨original, horiginal, rfl⟩ := List.mem_map.mp hdevice
    exact (hbuilt.modelled original horiginal).stored
      (hrange original horiginal)
  · apply List.pairwise_map.mpr
    apply hbuilt.ascending.imp_of_mem
    intro first second hfirst hsecond hle
    rw [haddress first hfirst, haddress second hsecond]
    exact hle
  · intro bus hbus
    rw [hbuilt.busMap.members bus hbus]
    exact (membersOf_map haddress bus.id).symm

end Topology

/-! ## Through a snapshot -/

namespace SnapshotSource

theorem exists_openAt_of_save {tree saved : FileTree} {path : Bytes}
    {topology : Topology} {created : UInt64}
    (hsave :
      (SnapshotSource.ofPath path).save tree topology created = .ok saved) :
    SnapshotSource.openAt saved path =
      .ok ⟨path, some ⟨created, topology.stored.deviceRecords,
        topology.stored.busRecords⟩⟩ := by
  obtain ⟨location, content, hname, hencode, rfl⟩ :=
    Snapshot.exists_name_of_save hsave
  have hcontent :
      (tree.insert location (.file content)).contentAt path =
        .ok content :=
    FileTree.contentAt_insert_of_newName hname content
  unfold openAt load
  simp only [hcontent, Snapshot.decode_of_encode hencode,
    Topology.deviceRecords_stored]
  rfl

theorem scan_loaded (tree : FileTree) (path : Bytes) (snapshot : Snapshot)
    (now : UInt64) (resolver : Names.Resolver) :
    Topology.scan (SnapshotSource.source now)
        (tree, ⟨path, some snapshot⟩) resolver =
      (Topology.ofRecords snapshot.devices snapshot.buses resolver,
        (tree, ⟨path, some snapshot⟩)) :=
  Topology.scan_eq_ofRecords resolver rfl rfl

/-- A topology whose records are kept exactly is the same after it is saved and
built again from the snapshot, whatever the resolver for the same names was
asked for before. -/
theorem replay_eq_original {records : List DeviceRecord}
    {buses : List BusRecord} {database : Bytes}
    {earlier : List Names.Query} {topology : Topology}
    {tree saved : FileTree} {path : Bytes} {created : UInt64}
    (hbuilt :
      (Topology.ofRecords records buses
        ((Names.Resolver.ofDatabase database).askAll earlier).2).outcome =
          .ok topology)
    (hrange : ∀ device ∈ topology.devices, device.address.InRange)
    (hnuma : ∀ device ∈ topology.devices,
      device.record.numaNode ≠ some 0xffff)
    (hiommu : ∀ device ∈ topology.devices,
      device.record.iommuGroup ≠ some 0xffff)
    (hsave :
      (SnapshotSource.ofPath path).save tree topology created = .ok saved) :
    ∃ source, SnapshotSource.openAt saved path = .ok source ∧
      ∀ later now,
        let build :=
          (Topology.scan (SnapshotSource.source now) (saved, source)
            ((Names.Resolver.ofDatabase database).askAll later).2).1
        build.outcome = .ok topology ∧ build.warnings = [] := by
  have hover := fun queries =>
    (Names.Resolver.IsOver.ofDatabase database).askAll queries
  have hkept : ∀ device ∈ topology.devices, device.record.KeptExactly :=
    fun device hdevice => ⟨hrange device hdevice, hnuma device hdevice,
      hiommu device hdevice⟩
  have hstored := Topology.stored_eq hkept
  obtain ⟨hmodelled, _⟩ := Topology.builtOver_of_ofRecords (hover earlier) hbuilt
  refine ⟨_, exists_openAt_of_save hsave, ?_⟩
  intro later now
  rw [scan_loaded, hstored]
  exact hmodelled.ofRecords_records (hover later)

/-- A configuration space of 256 bytes with these pieces in it. -/
def spaceOf (pieces : List (Nat × Bytes)) : Bytes :=
  pieces.foldl (fun bytes piece => bytes.overwrite piece.1 piece.2)
    (List.replicate 256 0)

/-- A bridge with a PCI Express capability. -/
def port : Device :=
  { record := ⟨⟨0, 0, 1, 0⟩, spaceOf [(0, [0x86, 0x80, 1, 0]),
      (0x06, [0x10]), (0x0a, [4, 6]), (0x0e, [1]), (0x18, [0, 1, 1]),
      (0x34, [0x40]), (0x40, [0x10])],
      [⟨0xe000, 0xefff, 0x100⟩], some "pcieport", some 0, some 3⟩
    kind := .bridge
    capabilities := [⟨.compatible, 0x10, 0, 0x40⟩]
    names := ⟨"Intel", "Port", ⟨"Bridge", "", ""⟩, "", ""⟩ }

/-- The disk behind the bridge. -/
def disk : Device :=
  { record := ⟨⟨0, 1, 0, 0⟩, spaceOf [(0, [0x86, 0x80, 2, 0]),
      (0x0a, [6, 1]), (0x2c, [0x86, 0x80, 3, 0])],
      [⟨0xf0000000, 0xf0000fff, 0x200⟩], some "ahci", some 1, some 3⟩
    kind := .endpoint
    capabilities := []
    names := ⟨"Intel", "Disk", ⟨"Storage", "SATA", ""⟩, "Fast disk",
      "Intel"⟩ }

def portAndDisk : Topology :=
  ⟨[port, disk], [⟨⟨0, 0⟩, true, [0]⟩, ⟨⟨0, 1⟩, false, [1]⟩]⟩

def storageFile : Bytes :=
  Bytes.ofText <|
    "8086  Intel\n\t0001  Port\n\t0002  Disk\n\t\t8086 0003  Fast disk\n" ++
      "C 00  Unclassified\nC 01  Storage\n\t06  SATA\nC 06  Bridge\n"

set_option maxRecDepth 20000 in
/-- Reported out of order and built by a resolver that knows the vendor; built
again by one that was asked for a device, but never for its vendor. -/
theorem replay_eq_original_portAndDisk :
    (Topology.ofRecords [disk.record, port.record]
        [⟨⟨0, 1⟩, false⟩, ⟨⟨0, 0⟩, true⟩]
        ((Names.Resolver.ofDatabase storageFile).askAll
          [.vendor 0x8086]).2).outcome = .ok portAndDisk ∧
      ∃ saved source,
        (SnapshotSource.ofPath [0x74]).save FileTree.empty portAndDisk 5 =
            .ok saved ∧
          SnapshotSource.openAt saved [0x74] = .ok source ∧
          let build :=
            (Topology.scan (SnapshotSource.source 6) (saved, source)
              ((Names.Resolver.ofDatabase storageFile).askAll
                [.device 0x8086 2, .deviceClass 0]).2).1
          build.outcome = .ok portAndDisk ∧ build.warnings = [] := by
  have hbuilt :
      (Topology.ofRecords [disk.record, port.record]
        [⟨⟨0, 1⟩, false⟩, ⟨⟨0, 0⟩, true⟩]
        ((Names.Resolver.ofDatabase storageFile).askAll
          [.vendor 0x8086]).2).outcome = .ok portAndDisk := by cbv
  have hsaves : ((SnapshotSource.ofPath [0x74]).save FileTree.empty
      portAndDisk 5).isOk = true := by cbv
  cases hsave :
      (SnapshotSource.ofPath [0x74]).save FileTree.empty portAndDisk 5 with
  | error error =>
      rw [hsave] at hsaves
      contradiction
  | ok saved =>
      obtain ⟨source, hopen, hreplay⟩ :=
        replay_eq_original hbuilt (by decide +kernel) (by decide +kernel)
          (by decide +kernel) hsave
      exact ⟨hbuilt, saved, source, rfl, hopen,
        hreplay [.device 0x8086 2, .deviceClass 0] 6⟩

end SnapshotSource

end PciInventory
