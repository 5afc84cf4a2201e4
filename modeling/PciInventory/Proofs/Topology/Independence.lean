import Mathlib
import PciInventory.Proofs.Device.Modelling
import PciInventory.Proofs.Topology.Construction

/-!
# What a topology depends on

The device of a record is a function of the record and the name database.  The
records before it and other lookups do not change it, and a refused record
changes nothing for the others.  Devices of distinct addresses have one address
order, and buses of distinct keys one key order.  So the topology is determined
by the records that give a device and by the reported buses, in whatever order
they come, whatever refused records stand between them and whatever the resolver
was asked for before.
-/

namespace PciInventory

/-! ## Devices one by one -/

namespace Device

variable {database : Bytes} {resolver : Names.Resolver}

/-- The device of a record over a name database, or why the record is
refused. -/
def ofRecord (database : Bytes) (record : DeviceRecord) :
    Except ScanError Device :=
  (build record (.ofDatabase database)).map Prod.fst

/-- The records that are not refused. -/
def accepted (database : Bytes) (records : List DeviceRecord) :
    List DeviceRecord :=
  records.filter fun record => (ofRecord database record).isOk

def ofRecords (database : Bytes) (records : List DeviceRecord) :
    List Device :=
  records.filterMap fun record => (ofRecord database record).toOption

/-- What the resolver was asked for before makes no difference. -/
theorem map_fst_build (hover : resolver.IsOver database)
    (record : DeviceRecord) :
    (build record resolver).map Prod.fst = ofRecord database record := by
  unfold ofRecord build
  cases interpret record with
  | error error => rfl
  | ok meaning =>
      rcases meaning with ⟨kind, capabilities⟩
      let config : ConfigSpace := ⟨record.config⟩
      let subsystem := subsystemIdsOf? config kind capabilities
      have hnames : (DeviceNames.resolve config subsystem resolver).1 =
          (DeviceNames.resolve config subsystem
            (.ofDatabase database)).1 :=
        DeviceNames.names_resolve_eq hover (.ofDatabase database)
      exact congrArg (fun names =>
        Except.ok (Device.mk record kind capabilities names)) hnames

theorem record_of_ofRecord {record : DeviceRecord} {device : Device}
    (hdevice : ofRecord database record = .ok device) :
    device.record = record := by
  unfold ofRecord at hdevice
  cases hbuilt : build record (.ofDatabase database) with
  | error error =>
      rw [hbuilt] at hdevice
      contradiction
  | ok built =>
      rw [hbuilt] at hdevice
      cases hdevice
      exact (build_eq_ok (.ofDatabase database) hbuilt).1

theorem ofRecords_cons_error {record : DeviceRecord} {error : ScanError}
    (hrefused : ofRecord database record = .error error)
    (rest : List DeviceRecord) :
    ofRecords database (record :: rest) = ofRecords database rest := by
  unfold ofRecords
  exact List.filterMap_cons_none (by rw [hrefused]; rfl)

theorem ofRecords_cons_ok {record : DeviceRecord} {device : Device}
    (hdevice : ofRecord database record = .ok device)
    (rest : List DeviceRecord) :
    ofRecords database (record :: rest) =
      device :: ofRecords database rest := by
  unfold ofRecords
  exact List.filterMap_cons_some (by rw [hdevice]; rfl)

theorem ofRecords_accepted (database : Bytes)
    (records : List DeviceRecord) :
    ofRecords database (accepted database records) =
      ofRecords database records := by
  unfold ofRecords accepted
  rw [List.filterMap_filter]
  apply List.filterMap_congr
  intro record _
  cases ofRecord database record <;> rfl

theorem map_address_sublist (database : Bytes)
    (records : List DeviceRecord) :
    ((ofRecords database records).map address).Sublist
      (records.map DeviceRecord.address) := by
  induction records with
  | nil => exact List.Sublist.refl []
  | cons record rest ih =>
      cases hdevice : ofRecord database record with
      | error error =>
          rw [ofRecords_cons_error hdevice]
          exact ih.cons record.address
      | ok device =>
          rw [ofRecords_cons_ok hdevice, List.map_cons, address,
            record_of_ofRecord hdevice]
          exact ih.cons_cons record.address

theorem built_eq_ofRecords {database : Bytes} {resolver : Names.Resolver}
    (hover : resolver.IsOver database) (records : List DeviceRecord) :
    built records resolver = ofRecords database records := by
  induction records generalizing resolver with
  | nil => rfl
  | cons record rest ih =>
      have hdevice := map_fst_build hover record
      cases hbuilt : build record resolver with
      | error error =>
          rw [hbuilt] at hdevice
          rw [built_cons_error hbuilt, ofRecords_cons_error hdevice.symm]
          exact ih hover
      | ok first =>
          rcases first with ⟨device, next⟩
          rw [hbuilt] at hdevice
          rw [built_cons_ok hbuilt, ofRecords_cons_ok hdevice.symm]
          exact congrArg (device :: ·) (ih (build_eq_ok hover hbuilt).2.2)

end Device

/-! ## One order -/

namespace Topology

variable {database : Bytes}

theorem sortDevices_eq_of_perm {first second : List Device}
    (hperm : first.Perm second)
    (haddresses : (first.map Device.address).Nodup) :
    sortDevices first = sortDevices second := by
  have hfirst : (sortDevices first).Perm first := List.mergeSort_perm first _
  have hsecond : (sortDevices second).Perm second :=
    List.mergeSort_perm second _
  refine List.Perm.eq_of_pairwise ?_ (sortDevices_pairwise first)
    (sortDevices_pairwise second) (hfirst.trans (hperm.trans hsecond.symm))
  intro device other hdevice hother hle hge
  have hsame : device.address = other.address :=
    Address.eq_of_rank_eq (Nat.le_antisymm hle hge)
  exact List.inj_on_of_nodup_map haddresses (hfirst.mem_iff.mp hdevice)
    (hperm.mem_iff.mpr (hsecond.mem_iff.mp hother)) hsame

theorem BusMap.eq_map_record {devices : List Device} {buses : List Bus}
    (hmap : BusMap devices buses) :
    buses = (buses.map Bus.record).map fun record =>
      ⟨record.id, record.isRoot, membersOf devices record.id⟩ := by
  calc
    buses = buses.map id := (List.map_id buses).symm
    _ = buses.map fun bus =>
          ⟨bus.id, bus.isRoot, membersOf devices bus.id⟩ := by
        apply List.map_congr_left
        intro bus hbus
        rw [← hmap.members bus hbus, id]
    _ = _ := by
        rw [List.map_map]
        rfl

/-- A bus map is determined by the records of its buses. -/
theorem BusMap.eq_of_perm {devices : List Device} {first second : List Bus}
    (hfirst : BusMap devices first) (hsecond : BusMap devices second)
    (hperm : (first.map Bus.record).Perm (second.map Bus.record)) :
    first = second := by
  have hbuses : first.Perm second := by
    rw [hfirst.eq_map_record, hsecond.eq_map_record]
    exact hperm.map _
  refine List.Perm.eq_of_pairwise ?_ hfirst.ascending hsecond.ascending hbuses
  intro bus other _ _ hlt hgt
  exact (Nat.lt_asymm hlt hgt).elim

/-! ## The whole -/

section

variable {records others : List DeviceRecord}
  {buses otherBuses : List BusRecord} {resolver : Names.Resolver}
  {topology other : Topology}

theorem devices_eq_sortDevices (hover : resolver.IsOver database)
    (hbuilt : (ofRecords records buses resolver).outcome = .ok topology) :
    topology.devices = sortDevices (Device.ofRecords database records) := by
  rw [(outcome_eq_ok_iff.mp hbuilt).1, Device.built_eq_ofRecords hover]

theorem devices_eq_of_accepted_perm
    (haddresses : (records.map DeviceRecord.address).Nodup)
    (hrecords : (Device.accepted database others).Perm
      (Device.accepted database records)) :
    sortDevices (Device.ofRecords database others) =
      sortDevices (Device.ofRecords database records) := by
  have hdevices : (Device.ofRecords database others).Perm
      (Device.ofRecords database records) := by
    rw [← Device.ofRecords_accepted, ← Device.ofRecords_accepted database
      records]
    exact hrecords.filterMap _
  exact (sortDevices_eq_of_perm hdevices.symm
    (haddresses.sublist (Device.map_address_sublist database records))).symm

/-- Topologies of the same devices and of the same reported buses. -/
theorem eq_of_busRecords_perm {otherResolver : Names.Resolver}
    (hbuilt : (ofRecords records buses resolver).outcome = .ok topology)
    (hother :
      (ofRecords others otherBuses otherResolver).outcome = .ok other)
    (hdevices : topology.devices = other.devices)
    (hbuses : topology.busRecords.Perm other.busRecords) :
    topology = other := by
  have hmap := (sorted_and_busMap_of_ofRecords hbuilt).2
  have hotherMap := (sorted_and_busMap_of_ofRecords hother).2
  rw [← hdevices] at hotherMap
  have hsame : topology.buses = other.buses :=
    hmap.eq_of_perm hotherMap hbuses
  cases topology
  cases other
  exact congr (congrArg Topology.mk hdevices) hsame

end

/-- Records of distinct addresses and buses of distinct keys give a topology.
The same one is given by every list with the same accepted records in any order
and any refused ones, by the buses in any order, and by a resolver that was asked
for other names before.  Each of its devices is a function of its own record and
the database. -/
theorem outcome_eq_of_accepted_perm {database : Bytes}
    {records others : List DeviceRecord} {buses otherBuses : List BusRecord}
    (haddresses : (records.map DeviceRecord.address).Nodup)
    (hkeys : (buses.map BusRecord.id).Nodup)
    (hrecords : (Device.accepted database others).Perm
      (Device.accepted database records))
    (hbuses : otherBuses.Perm buses) (asked otherAsked : List Names.Query) :
    let resolver := ((Names.Resolver.ofDatabase database).askAll asked).2
    let otherResolver :=
      ((Names.Resolver.ofDatabase database).askAll otherAsked).2
    (∀ record,
      (Device.build record resolver).map Prod.fst =
          Device.ofRecord database record ∧
        (Device.build record otherResolver).map Prod.fst =
          Device.ofRecord database record) ∧
      ∃ topology,
        (ofRecords records buses resolver).outcome = .ok topology ∧
        (ofRecords others otherBuses otherResolver).outcome =
          .ok topology ∧
        topology.devices.Perm (Device.ofRecords database records) := by
  intro resolver otherResolver
  have hover : resolver.IsOver database :=
    (Names.Resolver.IsOver.ofDatabase database).askAll asked
  have hotherOver : otherResolver.IsOver database :=
    (Names.Resolver.IsOver.ofDatabase database).askAll otherAsked
  refine ⟨fun record => ⟨Device.map_fst_build hover record,
    Device.map_fst_build hotherOver record⟩, ?_⟩
  obtain ⟨topology, hbuilt, hreported⟩ :=
    @exists_topology_of_nodup records buses resolver hkeys
  obtain ⟨other, hother, hotherReported⟩ :=
    @exists_topology_of_nodup others otherBuses otherResolver
      ((hbuses.map BusRecord.id).nodup_iff.mpr hkeys)
  have hdevices := devices_eq_sortDevices hover hbuilt
  have hsame : topology = other := by
    apply eq_of_busRecords_perm hbuilt hother
    · rw [hdevices, devices_eq_sortDevices hotherOver hother,
        devices_eq_of_accepted_perm haddresses hrecords]
    · exact hreported.trans (hbuses.symm.trans hotherReported.symm)
  subst other
  refine ⟨topology, hbuilt, hother, ?_⟩
  rw [hdevices]
  exact List.mergeSort_perm _ _

def namedRecord : DeviceRecord :=
  ⟨⟨0, 1, 0, 0⟩, [0x86, 0x80] ++ List.replicate 62 0, [], none, none, none⟩

def namelessRecord : DeviceRecord :=
  ⟨⟨0, 0, 2, 0⟩, List.replicate 64 0, [], none, none, none⟩

/-- At the address of the named device, but too short for a header. -/
def shortRecord : DeviceRecord :=
  ⟨⟨0, 1, 0, 0⟩, [0x86, 0x80], [], none, none, none⟩

/-- The list in address order against the reversed one with a refused record in
it and a resolver that looked for the vendor before. -/
theorem outcome_eq_of_accepted_perm_reversed :
    let database := Bytes.ofText "8086  Maker\n"
    ∃ topology,
      (ofRecords [namelessRecord, namedRecord]
        [⟨⟨0, 0⟩, true⟩, ⟨⟨0, 1⟩, false⟩]
        (.ofDatabase database)).outcome = .ok topology ∧
      (ofRecords [namedRecord, shortRecord, namelessRecord]
        [⟨⟨0, 1⟩, false⟩, ⟨⟨0, 0⟩, true⟩]
        ((Names.Resolver.ofDatabase database).askAll
          [.vendor 0x8086, .device 0x8086 0x8086]).2).outcome =
          .ok topology ∧
      (topology.devices.map fun device => device.names.vendor).Perm
        ["", "Maker"] := by
  intro database
  have haccepted :
      (Device.accepted database
          [namedRecord, shortRecord, namelessRecord]).Perm
        (Device.accepted database [namelessRecord, namedRecord]) := by
    have hothers : Device.accepted database
        [namedRecord, shortRecord, namelessRecord] =
          [namedRecord, namelessRecord] := by cbv
    have hrecords : Device.accepted database [namelessRecord, namedRecord] =
        [namelessRecord, namedRecord] := by cbv
    rw [hothers, hrecords]
    exact List.Perm.swap _ _ _
  have hnames :
      (Device.ofRecords database [namelessRecord, namedRecord]).map
          (fun device => device.names.vendor) = ["", "Maker"] := by cbv
  obtain ⟨_, topology, hbuilt, hother, hdevices⟩ :=
    outcome_eq_of_accepted_perm (by decide) (by decide) haccepted
      (List.Perm.swap (⟨⟨0, 0⟩, true⟩ : BusRecord) ⟨⟨0, 1⟩, false⟩ []) []
      [.vendor 0x8086, .device 0x8086 0x8086]
  have hvendors := hdevices.map fun device => device.names.vendor
  rw [hnames] at hvendors
  exact ⟨topology, hbuilt, hother, hvendors⟩

end Topology

end PciInventory
