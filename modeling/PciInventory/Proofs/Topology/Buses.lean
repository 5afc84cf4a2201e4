import Mathlib.Data.List.Basic
import PciInventory.Proofs.Device.Attempts

/-!
# The bus map of a topology

A topology that was built has each bus key once, so a look-up by key finds
every bus of the map.  Its devices are in address order and its buses in key
order, and a bus holds the devices with its key, in the order of the device
list.
-/

namespace PciInventory

theorem Bus.insert_perm (bus : Bus) (buses : List Bus) :
    (bus.insert buses).Perm (bus :: buses) := by
  induction buses with
  | nil => exact List.Perm.refl [bus]
  | cons other rest ih =>
      unfold Bus.insert
      split
      next => exact List.Perm.refl _
      next => exact (ih.cons other).trans (List.Perm.swap bus other rest)

namespace Topology

theorem addBuses_keys_nodup {devices : List Device}
    {buses result : List Bus} {records : List BusRecord}
    (hkeys : (buses.map Bus.id).Nodup)
    (hadded : addBuses devices buses records = .ok result) :
    (result.map Bus.id).Nodup := by
  induction records generalizing buses with
  | nil =>
      simp only [addBuses, Except.ok.injEq] at hadded
      subst result
      exact hkeys
  | cons record rest ih =>
      unfold addBuses at hadded
      split at hadded
      next => contradiction
      next hnew =>
        apply ih _ hadded
        have hperm := (Bus.insert_perm
          ⟨record.id, record.isRoot, membersOf devices record.id⟩
          buses).map Bus.id
        rw [hperm.nodup_iff, List.map_cons, List.nodup_cons]
        refine ⟨?_, hkeys⟩
        simpa using hnew

theorem outcome_eq_ok_iff {records : List DeviceRecord}
    {buses : List BusRecord} {resolver : Names.Resolver}
    {topology : Topology} :
    (ofRecords records buses resolver).outcome = .ok topology ↔
      topology.devices =
          sortDevices (Device.built records resolver) ∧
        addBuses topology.devices [] buses = .ok topology.buses := by
  rw [outcome_ofRecords, assemble]
  constructor
  · intro hbuilt
    cases hadded : addBuses
        (sortDevices (Device.built records resolver)) [] buses with
    | error error =>
        rw [hadded] at hbuilt
        contradiction
    | ok result =>
        rw [hadded] at hbuilt
        simp only [Except.map, Except.ok.injEq] at hbuilt
        subst topology
        exact ⟨rfl, hadded⟩
  · intro hparts
    rcases hparts with ⟨hdevices, hadded⟩
    rw [← hdevices, hadded]
    rfl

theorem keys_nodup_of_ofRecords {records : List DeviceRecord}
    {buses : List BusRecord} {resolver : Names.Resolver}
    {topology : Topology}
    (hbuilt : (ofRecords records buses resolver).outcome = .ok topology) :
    (topology.buses.map Bus.id).Nodup := by
  have hempty : (([] : List Bus).map Bus.id).Nodup := List.nodup_nil
  exact addBuses_keys_nodup hempty (outcome_eq_ok_iff.mp hbuilt).2

theorem id_of_bus? {topology : Topology} {id : BusId} {bus : Bus}
    (hbus : topology.bus? id = some bus) : bus.id = id := by
  have hfound := List.find?_some hbus
  simpa using hfound

theorem mem_of_bus? {topology : Topology} {id : BusId} {bus : Bus}
    (hbus : topology.bus? id = some bus) : bus ∈ topology.buses :=
  List.mem_of_find?_eq_some hbus

theorem bus?_of_mem {topology : Topology} {bus : Bus}
    (hkeys : (topology.buses.map Bus.id).Nodup)
    (hbus : bus ∈ topology.buses) : topology.bus? bus.id = some bus := by
  unfold bus?
  rw [List.find?_eq_some_iff_append]
  obtain ⟨before, after, hsplit⟩ := List.append_of_mem hbus
  refine ⟨by simp, before, after, hsplit, ?_⟩
  intro other hother
  rw [hsplit, List.map_append, List.map_cons] at hkeys
  have hne : other.id ≠ bus.id :=
    (List.nodup_append.mp hkeys).2.2 other.id
      (List.mem_map_of_mem hother) bus.id List.mem_cons_self
  simpa using hne

/-! ## Order -/

end Topology

theorem BusId.eq_of_rank_eq {first second : BusId}
    (hrank : first.rank = second.rank) : first = second := by
  have hfirst : first.number.toNat < 256 := first.number.toNat_lt
  have hsecond : second.number.toNat < 256 := second.number.toNat_lt
  unfold rank at hrank
  have hdomain : first.domain = second.domain := by
    apply UInt16.toNat_inj.mp
    omega
  have hnumber : first.number = second.number := by
    apply UInt8.toNat_inj.mp
    omega
  cases first
  cases second
  simp_all

def Bus.Ascending (buses : List Bus) : Prop :=
  buses.Pairwise fun first second => first.id.rank < second.id.rank

theorem Bus.Ascending.insert {bus : Bus} {buses : List Bus}
    (hbuses : Bus.Ascending buses)
    (hnew : ∀ other ∈ buses, other.id ≠ bus.id) :
    Bus.Ascending (bus.insert buses) := by
  induction buses with
  | nil => exact List.pairwise_singleton _ _
  | cons other rest ih =>
      obtain ⟨hother, hrest⟩ := List.pairwise_cons.mp hbuses
      obtain ⟨hne, hnewRest⟩ := List.forall_mem_cons.mp hnew
      unfold Bus.insert
      split
      next hlt =>
        apply List.pairwise_cons.mpr
        refine ⟨?_, hbuses⟩
        intro later hlater
        rcases List.mem_cons.mp hlater with rfl | hlater
        · exact hlt
        · exact Nat.lt_trans hlt (hother later hlater)
      next hle =>
        have hgt : other.id.rank < bus.id.rank := by
          have hrank : other.id.rank ≠ bus.id.rank :=
            fun heq => hne (BusId.eq_of_rank_eq heq)
          omega
        apply List.pairwise_cons.mpr
        refine ⟨?_, ih hrest hnewRest⟩
        intro later hlater
        have hmem := (Bus.insert_perm bus rest).mem_iff.mp hlater
        rcases List.mem_cons.mp hmem with rfl | hmem
        · exact hgt
        · exact hother later hmem

namespace Topology

theorem keys_nodup_of_ascending {buses : List Bus}
    (hbuses : Bus.Ascending buses) : (buses.map Bus.id).Nodup := by
  apply List.pairwise_map.mpr
  apply hbuses.imp
  intro first second hlt heq
  rw [heq] at hlt
  exact Nat.lt_irrefl _ hlt

/-- A bus map in key order in which each bus holds the positions of the devices
with its key. -/
structure BusMap (devices : List Device) (buses : List Bus) : Prop where
  ascending : Bus.Ascending buses
  members : ∀ bus ∈ buses, bus.members = membersOf devices bus.id

theorem BusMap.addBuses {devices : List Device} {buses result : List Bus}
    {records : List BusRecord} (hmap : BusMap devices buses)
    (hadded : addBuses devices buses records = .ok result) :
    BusMap devices result := by
  induction records generalizing buses with
  | nil =>
      simp only [Topology.addBuses, Except.ok.injEq] at hadded
      subst result
      exact hmap
  | cons record rest ih =>
      unfold Topology.addBuses at hadded
      split at hadded
      next => contradiction
      next hnew =>
        refine ih ⟨?_, ?_⟩ hadded
        · apply hmap.ascending.insert
          simpa using hnew
        · intro bus hbus
          have hmem := (Bus.insert_perm _ _).mem_iff.mp hbus
          rcases List.mem_cons.mp hmem with rfl | hmem
          · rfl
          · exact hmap.members bus hmem

theorem rank_le_trans (first second third : Device)
    (hfirst : decide (first.address.rank ≤ second.address.rank))
    (hsecond : decide (second.address.rank ≤ third.address.rank)) :
    decide (first.address.rank ≤ third.address.rank) := by
  simp only [decide_eq_true_eq] at hfirst hsecond ⊢
  exact Nat.le_trans hfirst hsecond

theorem rank_le_total (first second : Device) :
    (decide (first.address.rank ≤ second.address.rank) ||
      decide (second.address.rank ≤ first.address.rank)) = true := by
  simpa using Nat.le_total first.address.rank second.address.rank

theorem sortDevices_pairwise (devices : List Device) :
    (sortDevices devices).Pairwise fun first second =>
      first.address.rank ≤ second.address.rank := by
  simpa [sortDevices] using
    List.pairwise_mergeSort rank_le_trans rank_le_total devices

/-- What building a topology leaves: devices in address order and a bus map
over them. -/
theorem sorted_and_busMap_of_ofRecords {records : List DeviceRecord}
    {buses : List BusRecord} {resolver : Names.Resolver}
    {topology : Topology}
    (hbuilt : (ofRecords records buses resolver).outcome = .ok topology) :
    (topology.devices.Pairwise fun first second =>
        first.address.rank ≤ second.address.rank) ∧
      BusMap topology.devices topology.buses := by
  obtain ⟨hdevices, hadded⟩ := outcome_eq_ok_iff.mp hbuilt
  have hempty : BusMap topology.devices [] := ⟨List.Pairwise.nil, by simp⟩
  refine ⟨?_, hempty.addBuses hadded⟩
  rw [hdevices]
  exact sortDevices_pairwise _

theorem devicesOn_eq_filter {topology : Topology} {bus : Bus}
    (hmembers : bus.members = membersOf topology.devices bus.id) :
    topology.devicesOn bus =
      topology.devices.filter fun device =>
        device.address.busId = bus.id := by
  unfold devicesOn
  rw [hmembers, membersOf, List.filterMap_map]
  have hposition : ∀ entry ∈ topology.devices.zipIdx.filter
      (fun entry => decide (entry.1.address.busId = bus.id)),
      topology.devices[entry.2]? = some entry.1 := by
    intro entry hentry
    exact List.mem_zipIdx_iff_getElem?.mp (List.mem_filter.mp hentry).1
  calc
    _ = (topology.devices.zipIdx.filter fun entry =>
          decide (entry.1.address.busId = bus.id)).map Prod.fst := by
        rw [← List.filterMap_eq_map]
        exact List.filterMap_congr hposition
    _ = (topology.devices.zipIdx.map Prod.fst).filter fun device =>
          decide (device.address.busId = bus.id) := by
        rw [List.filter_map]
        rfl
    _ = _ := by rw [List.zipIdx_map_fst]

theorem children_sublist (topology : Topology) (bus : Bus) :
    ((topology.children bus).map Prod.fst).Sublist
      (topology.devicesOn bus) := by
  unfold children
  induction topology.devicesOn bus with
  | nil => exact List.Sublist.refl []
  | cons device rest ih =>
      cases hsecondary : device.secondaryBus? with
      | none => simpa [hsecondary] using ih.cons device
      | some secondary =>
          cases hbus : topology.bus? ⟨bus.id.domain, secondary⟩ with
          | none => simpa [hsecondary, hbus] using ih.cons device
          | some child => simpa [hsecondary, hbus] using ih

theorem children_ascending {topology : Topology} {bus : Bus}
    (hdevices : topology.devices.Pairwise fun first second =>
      first.address.rank ≤ second.address.rank)
    (hmap : BusMap topology.devices topology.buses)
    (hbus : bus ∈ topology.buses) :
    ((topology.children bus).map Prod.fst).Pairwise fun first second =>
      first.address.rank ≤ second.address.rank := by
  have hmembers := hmap.members bus hbus
  have hsublist := topology.children_sublist bus
  rw [devicesOn_eq_filter hmembers] at hsublist
  exact (hdevices.sublist List.filter_sublist).sublist hsublist

/-- Records whose devices are in address order already are not moved. -/
theorem outcome_ofRecords_of_sorted {records : List DeviceRecord}
    {buses : List BusRecord} {resolver : Names.Resolver}
    {topology : Topology}
    (hmodelled : (Modelled.ofRecords records resolver).outcome =
      .ok topology.devices)
    (hsorted : topology.devices.Pairwise fun first second =>
      decide (first.address.rank ≤ second.address.rank))
    (hassembled : assemble topology.devices buses = .ok topology) :
    (ofRecords records buses resolver).outcome = .ok topology := by
  have hunmoved : sortDevices topology.devices = topology.devices :=
    List.mergeSort_of_pairwise hsorted
  unfold ofRecords
  simp only [hmodelled]
  calc
    _ = assemble (sortDevices topology.devices) buses := rfl
    _ = .ok topology := by rw [hunmoved, hassembled]

end Topology

end PciInventory
