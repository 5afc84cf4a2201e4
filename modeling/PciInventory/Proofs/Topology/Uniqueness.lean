import Mathlib.Data.List.NodupEquivFin
import PciInventory.Proofs.Topology.Construction

/-!
# Unique addresses

Addresses are the keys of a topology's device list, but nothing keeps two
records of one address apart: both become devices, next to each other.  The
list ascends strictly, and the search finds each device at its own position,
if and only if the records that are not refused have distinct addresses.  A
device whose address no other one has is found in any case; of several with
one address the search finds one.
-/

namespace PciInventory

/-- The addresses of the records that are not refused. -/
def Device.acceptedAddresses (records : List DeviceRecord) : List Address :=
  (records.filter fun record => (interpret record).isOk).map
    DeviceRecord.address

theorem Device.map_address_built (records : List DeviceRecord)
    (resolver : Names.Resolver) :
    (built records resolver).map address = acceptedAddresses records := by
  unfold acceptedAddresses
  induction records generalizing resolver with
  | nil => rfl
  | cons record rest ih =>
      cases hinterpret : interpret record with
      | error error =>
          rw [built_cons_error (build_eq_error_iff.mpr hinterpret),
            List.filter_cons_of_neg (by simp [hinterpret, Except.isOk,
              Except.toBool])]
          exact ih resolver
      | ok meaning =>
          obtain ⟨names, next, hbuilt⟩ :=
            exists_build_of_interpret hinterpret resolver
          rw [built_cons_ok hbuilt,
            List.filter_cons_of_pos (by simp [hinterpret, Except.isOk,
              Except.toBool])]
          exact congrArg (record.address :: ·) (ih next)

theorem index_eq_of_count_le_one {α : Type} [DecidableEq α] {list : List α}
    {element : α} (hcount : list.count element ≤ 1) {first second : Nat}
    (hfirst : list[first]? = some element)
    (hsecond : list[second]? = some element) : first = second := by
  obtain ⟨hfirstLt, hfirst⟩ := List.getElem?_eq_some_iff.mp hfirst
  obtain ⟨hsecondLt, hsecond⟩ := List.getElem?_eq_some_iff.mp hsecond
  by_contra hne
  have hrepeated : list.Duplicate element := by
    rw [List.duplicate_iff_exists_distinct_get]
    rcases Nat.lt_or_gt_of_ne hne with hlt | hlt
    · exact ⟨⟨first, hfirstLt⟩, ⟨second, hsecondLt⟩, hlt, hfirst.symm,
        hsecond.symm⟩
    · exact ⟨⟨second, hsecondLt⟩, ⟨first, hfirstLt⟩, hlt, hsecond.symm,
        hfirst.symm⟩
  have htwice := List.duplicate_iff_two_le_count.mp hrepeated
  omega

namespace Topology

/-! ## Positions -/

/-- The position at which the search for an address ends. -/
def position (topology : Topology) (address : Address) : Nat :=
  let ranks := topology.devices.map fun device => device.address.rank
  lastNotAbove ranks address.rank 0 ranks.length

theorem device?_eq_filter (topology : Topology) (address : Address) :
    topology.device? address =
      topology.devices[topology.position address]?.filter fun device =>
        device.address = address := by
  unfold device? position
  simp only
  split
  next device hdevice =>
    rw [hdevice, Option.filter_some]
    simp only [decide_eq_true_eq]
  next hnone =>
    rw [hnone]
    rfl

section

variable {topology : Topology} {index : Nat} {device : Device}

/-- The search ends at a device of the wanted address, if there is one. -/
theorem exists_getElem?_position
    (hsorted : topology.devices.Pairwise fun first second =>
      first.address.rank ≤ second.address.rank)
    (hdevice : topology.devices[index]? = some device) :
    ∃ found, topology.devices[topology.position device.address]? =
      some found ∧ found.address = device.address := by
  obtain ⟨found, hfound⟩ :=
    exists_device? hsorted (List.mem_of_getElem? hdevice)
  rw [device?_eq_filter, Option.filter_eq_some_iff] at hfound
  exact ⟨found, hfound.1, of_decide_eq_true hfound.2⟩

theorem device?_of_position_eq
    (hdevice : topology.devices[index]? = some device)
    (hposition : topology.position device.address = index) :
    topology.device? device.address = some device := by
  rw [device?_eq_filter, hposition, hdevice, Option.filter_some]
  simp

/-- A device of an address that no other one has is found. -/
theorem position_eq_of_count_le_one
    (hsorted : topology.devices.Pairwise fun first second =>
      first.address.rank ≤ second.address.rank)
    (hdevice : topology.devices[index]? = some device)
    (hcount :
      (topology.devices.map Device.address).count device.address ≤ 1) :
    topology.position device.address = index := by
  obtain ⟨found, hfound, hsame⟩ := exists_getElem?_position hsorted hdevice
  apply index_eq_of_count_le_one hcount
  · rw [List.getElem?_map, hfound, ← hsame]
    rfl
  · rw [List.getElem?_map, hdevice]
    rfl

end

theorem nodup_of_position_eq {topology : Topology}
    (hposition : ∀ index device, topology.devices[index]? = some device →
      topology.position device.address = index) :
    (topology.devices.map Device.address).Nodup := by
  rw [List.nodup_iff_getElem?_ne_getElem?]
  intro first second hlt hsecondLt hsame
  rw [List.length_map] at hsecondLt
  have hfirst := List.getElem?_eq_getElem (hlt.trans hsecondLt)
  have hsecond := List.getElem?_eq_getElem hsecondLt
  rw [List.getElem?_map, List.getElem?_map, hfirst, hsecond,
    Option.map_some, Option.map_some, Option.some.injEq] at hsame
  have hfirstPosition := hposition first _ hfirst
  have hsecondPosition := hposition second _ hsecond
  rw [hsame] at hfirstPosition
  omega

/-! ## Strict order -/

theorem ascends_iff_nodup {devices : List Device}
    (hsorted : devices.Pairwise fun first second =>
      first.address.rank ≤ second.address.rank) :
    (devices.Pairwise fun first second =>
        first.address.rank < second.address.rank) ↔
      (devices.map Device.address).Nodup := by
  rw [List.Nodup, List.pairwise_map]
  constructor
  · intro hascends
    refine hascends.imp fun hlt hsame => ?_
    rw [hsame] at hlt
    exact Nat.lt_irrefl _ hlt
  · intro hdistinct
    refine (hsorted.and hdistinct).imp fun hboth => ?_
    exact Nat.lt_of_le_of_ne hboth.1 fun hrank =>
      hboth.2 (Address.eq_of_rank_eq hrank)

theorem map_address_perm {records : List DeviceRecord}
    {buses : List BusRecord} {resolver : Names.Resolver}
    {topology : Topology}
    (hbuilt : (ofRecords records buses resolver).outcome = .ok topology) :
    (topology.devices.map Device.address).Perm
      (Device.acceptedAddresses records) := by
  rw [(outcome_eq_ok_iff.mp hbuilt).1,
    ← Device.map_address_built records resolver]
  exact (List.mergeSort_perm _ _).map Device.address

/-- The devices ascend strictly, and the search for each one's address finds it
at its own position, exactly when the records that are not refused have distinct
addresses.  A device is found whenever its own address is not repeated, and for
an address that is, one of its devices. -/
theorem finds_each_iff_addresses_nodup {records : List DeviceRecord}
    {buses : List BusRecord} {resolver : Names.Resolver}
    {topology : Topology}
    (hbuilt : (ofRecords records buses resolver).outcome = .ok topology) :
    ((topology.devices.Pairwise fun first second =>
        first.address.rank < second.address.rank) ↔
      (Device.acceptedAddresses records).Nodup) ∧
    ((∀ index device, topology.devices[index]? = some device →
        topology.position device.address = index ∧
          topology.device? device.address = some device) ↔
      (Device.acceptedAddresses records).Nodup) ∧
    ∀ index device, topology.devices[index]? = some device →
      ((Device.acceptedAddresses records).count device.address ≤ 1 →
        topology.position device.address = index ∧
          topology.device? device.address = some device) ∧
      ∃ found, found.address = device.address ∧
        topology.devices[topology.position device.address]? = some found ∧
        topology.device? device.address = some found := by
  have hperm := map_address_perm hbuilt
  have hsorted := (sorted_and_busMap_of_ofRecords hbuilt).1
  have hfound : ∀ index device, topology.devices[index]? = some device →
      (Device.acceptedAddresses records).count device.address ≤ 1 →
      topology.position device.address = index ∧
        topology.device? device.address = some device := by
    intro index device hdevice hcount
    rw [← hperm.count_eq] at hcount
    have hposition := position_eq_of_count_le_one hsorted hdevice hcount
    exact ⟨hposition, device?_of_position_eq hdevice hposition⟩
  rw [← hperm.nodup_iff]
  refine ⟨ascends_iff_nodup hsorted, ⟨?_, ?_⟩, fun index device hdevice =>
    ⟨hfound index device hdevice, ?_⟩⟩
  · intro hall
    exact nodup_of_position_eq fun index device hdevice =>
      (hall index device hdevice).1
  · intro hdistinct index device hdevice
    exact hfound index device hdevice
      (List.nodup_iff_count_le_one.mp (hperm.nodup_iff.mp hdistinct) _)
  · obtain ⟨found, hat, hsame⟩ := exists_getElem?_position hsorted hdevice
    refine ⟨found, hsame, hat, ?_⟩
    rw [device?_eq_filter, hat, Option.filter_some, hsame]
    simp

/-- Two records of distinct addresses, and one that is too short for a header
at the address of the first one. -/
def refusedRepeat : List DeviceRecord :=
  [⟨⟨0, 1, 0, 0⟩, List.replicate 64 0, [], none, none, none⟩,
    ⟨⟨0, 1, 0, 0⟩, [0x86, 0x80], [], some "ahci", none, none⟩,
    ⟨⟨0, 0, 2, 0⟩, List.replicate 64 0, [], none, none, none⟩]

theorem finds_each_iff_addresses_nodup_refusedRepeat :
    ∃ topology : Topology,
      (ofRecords refusedRepeat [⟨⟨0, 0⟩, true⟩] .empty).outcome =
        .ok topology ∧
      (topology.devices.map Device.address).Perm
        [⟨0, 1, 0, 0⟩, ⟨0, 0, 2, 0⟩] ∧
      (topology.devices.Pairwise fun first second =>
        first.address.rank < second.address.rank) ∧
      ∀ (index : Nat) device, topology.devices[index]? = some device →
        topology.device? device.address = some device := by
  obtain ⟨topology, hbuilt, _⟩ :=
    @exists_topology_of_nodup refusedRepeat [⟨⟨0, 0⟩, true⟩] .empty
      (by decide)
  have haccepted : Device.acceptedAddresses refusedRepeat =
      [⟨0, 1, 0, 0⟩, ⟨0, 0, 2, 0⟩] := by decide +kernel
  have hdistinct : (Device.acceptedAddresses refusedRepeat).Nodup := by
    rw [haccepted]
    decide
  obtain ⟨hascends, hfinds, _⟩ := finds_each_iff_addresses_nodup hbuilt
  refine ⟨topology, hbuilt, ?_, hascends.mpr hdistinct,
    fun index device hdevice => (hfinds.mpr hdistinct index device hdevice).2⟩
  rw [← haccepted]
  exact map_address_perm hbuilt

/-- Two records of one address, told apart by their drivers. -/
def repeatedAddress : List DeviceRecord :=
  [⟨⟨0, 0, 1, 0⟩, List.replicate 64 0, [], none, none, none⟩,
    ⟨⟨0, 0, 1, 0⟩, List.replicate 64 0, [], some "ahci", none, none⟩]

/-- Both records become devices, so one of them is not found. -/
theorem not_finds_each_repeatedAddress :
    ∃ topology : Topology,
      (ofRecords repeatedAddress [⟨⟨0, 0⟩, true⟩] .empty).outcome =
        .ok topology ∧
      (topology.devices.map Device.address) =
        [⟨0, 0, 1, 0⟩, ⟨0, 0, 1, 0⟩] ∧
      ¬(topology.devices.Pairwise fun first second =>
        first.address.rank < second.address.rank) ∧
      ¬∀ (index : Nat) device, topology.devices[index]? = some device →
        topology.device? device.address = some device := by
  obtain ⟨topology, hbuilt, _⟩ :=
    @exists_topology_of_nodup repeatedAddress [⟨⟨0, 0⟩, true⟩] .empty
      (by decide)
  have haddresses : topology.devices.map Device.address =
      [⟨0, 0, 1, 0⟩, ⟨0, 0, 1, 0⟩] := by
    have haccepted : Device.acceptedAddresses repeatedAddress =
        List.replicate 2 ⟨0, 0, 1, 0⟩ := by decide +kernel
    have hperm := map_address_perm hbuilt
    rw [haccepted, List.perm_replicate] at hperm
    exact hperm
  have hdrivers : (topology.devices.map fun device =>
      device.record.driver).Perm [none, some "ahci"] := by
    rw [(outcome_eq_ok_iff.mp hbuilt).1]
    exact (List.mergeSort_perm _ _).map _
  have hsame : ∀ device ∈ topology.devices,
      device.address = ⟨0, 0, 1, 0⟩ := by
    intro device hdevice
    have hmem := List.mem_map_of_mem (f := Device.address) hdevice
    rw [haddresses] at hmem
    simpa using hmem
  refine ⟨topology, hbuilt, haddresses, ?_, ?_⟩
  · rw [ascends_iff_nodup (sorted_and_busMap_of_ofRecords hbuilt).1,
      haddresses]
    decide
  · intro hall
    obtain ⟨bare, hbare, hnone⟩ :=
      List.mem_map.mp (hdrivers.mem_iff.mpr (by simp : none ∈ _))
    obtain ⟨driven, hdriven, hdriver⟩ :=
      List.mem_map.mp (hdrivers.mem_iff.mpr (by simp : some "ahci" ∈ _))
    obtain ⟨first, hfirst⟩ := List.mem_iff_getElem?.mp hbare
    obtain ⟨second, hsecond⟩ := List.mem_iff_getElem?.mp hdriven
    -- One look-up would have to give two devices.
    have hfound := hall first bare hfirst
    rw [hsame bare hbare, ← hsame driven hdriven,
      hall second driven hsecond, Option.some.injEq] at hfound
    rw [hfound, hnone] at hdriver
    contradiction

end Topology

end PciInventory
