import Mathlib.Data.List.Induction
import Mathlib.Data.List.Nodup
import PciInventory.Proofs.Topology.Lookup
import PciInventory.Source

/-!
# Building a topology

Whether a topology is built depends on the bus records alone: the first one
whose key occurred before fails the whole, and no device record does.  A record
that is refused costs its device and is warned of; the others become devices,
sorted by address without changing the order of equal ones.  Every bus lists the
positions of the devices with its key, so a device is on one bus at most.
-/

namespace PciInventory

/-! ## Address order -/

namespace Topology

/-- `sorted` is `original` in address order, with devices of one address in the
order that they had. -/
structure StablySorted (original sorted : List Device) : Prop where
  perm : sorted.Perm original
  ascending : sorted.Pairwise fun first second =>
    first.address.rank ≤ second.address.rank
  stable : ∀ address,
    sorted.filter (fun device => device.address = address) =
      original.filter fun device => device.address = address

theorem sortDevices_stable (devices : List Device) (address : Address) :
    (sortDevices devices).filter (fun device => device.address = address) =
      devices.filter fun device => device.address = address := by
  have hperm : (sortDevices devices).Perm devices :=
    List.mergeSort_perm devices _
  -- Devices of one address are in order already, so sorting keeps them as a
  -- sublist, and there are no others.
  have hequal : (devices.filter fun device =>
      device.address = address).Pairwise fun first second =>
        decide (first.address.rank ≤ second.address.rank) := by
    apply List.pairwise_of_forall_mem_list
    intro first hfirst second hsecond
    have hsame : first.address = second.address := by
      rw [of_decide_eq_true (List.mem_filter.mp hfirst).2,
        of_decide_eq_true (List.mem_filter.mp hsecond).2]
    simp [hsame]
  have hkept : (devices.filter fun device =>
      device.address = address).Sublist (sortDevices devices) :=
    List.sublist_mergeSort rank_le_trans rank_le_total hequal
      List.filter_sublist
  have hfiltered := hkept.filter fun device => device.address = address
  rw [List.filter_filter] at hfiltered
  simp only [Bool.and_self] at hfiltered
  exact (hfiltered.eq_of_length
    (hperm.filter fun device => device.address = address).length_eq.symm).symm

theorem stablySorted_sortDevices (devices : List Device) :
    StablySorted devices (sortDevices devices) :=
  ⟨List.mergeSort_perm devices _, sortDevices_pairwise devices,
    sortDevices_stable devices⟩

/-! ## Bus records -/

/-- The first of `buses` with a key that occurred before it. -/
def FirstRepeat (buses : List BusRecord) (repeated : BusRecord) : Prop :=
  ∃ before after, buses = before ++ repeated :: after ∧
    (before.map BusRecord.id).Nodup ∧
    repeated.id ∈ before.map BusRecord.id

theorem exists_firstRepeat {buses : List BusRecord}
    (hrepeats : ¬(buses.map BusRecord.id).Nodup) :
    ∃ repeated, FirstRepeat buses repeated := by
  induction buses using List.reverseRecOn with
  | nil => exact (hrepeats List.nodup_nil).elim
  | append_singleton front last ih =>
      by_cases hfront : (front.map BusRecord.id).Nodup
      · refine ⟨last, front, [], rfl, hfront, ?_⟩
        by_contra hnew
        apply hrepeats
        rw [List.map_append, List.nodup_append_comm]
        exact List.nodup_cons.mpr ⟨hnew, hfront⟩
      · obtain ⟨repeated, before, after, hsplit, hparts⟩ := ih hfront
        refine ⟨repeated, before, after ++ [last], ?_, hparts⟩
        rw [hsplit, List.append_assoc, List.cons_append]

theorem any_id_iff {buses : List Bus} {record : BusRecord} :
    (buses.any fun bus => bus.id = record.id) = true ↔
      record.id ∈ buses.map Bus.id := by
  simp [List.any_eq_true, List.mem_map]

/-- A bus takes its place among the others, and its key among theirs. -/
theorem map_id_insert_append_perm (devices : List Device)
    (buses : List Bus) (record : BusRecord) (rest : List BusRecord) :
    ((Bus.insert ⟨record.id, record.isRoot, membersOf devices record.id⟩
        buses).map Bus.id ++ rest.map BusRecord.id).Perm
      (buses.map Bus.id ++ (record :: rest).map BusRecord.id) :=
  (((Bus.insert_perm _ buses).map Bus.id).append_right _).trans
    List.perm_middle.symm

theorem exists_addBuses {devices : List Device} {buses : List Bus}
    {records : List BusRecord}
    (hkeys : (buses.map Bus.id ++ records.map BusRecord.id).Nodup) :
    ∃ result, addBuses devices buses records = .ok result ∧
      (result.map Bus.record).Perm (buses.map Bus.record ++ records) := by
  induction records generalizing buses with
  | nil => exact ⟨buses, rfl, by rw [List.append_nil]⟩
  | cons record rest ih =>
      have hnew : ¬(buses.any fun bus => bus.id = record.id) = true := by
        rw [any_id_iff]
        rw [List.map_cons, List.nodup_middle] at hkeys
        exact fun hmem =>
          (List.nodup_cons.mp hkeys).1 (List.mem_append_left _ hmem)
      have hperm := map_id_insert_append_perm devices buses record rest
      obtain ⟨result, hadded, hrecords⟩ := ih (hperm.nodup_iff.mpr hkeys)
      refine ⟨result, ?_, hrecords.trans ?_⟩
      · rw [addBuses, if_neg hnew]
        exact hadded
      · exact (((Bus.insert_perm _ buses).map Bus.record).append_right
          rest).trans List.perm_middle.symm

theorem addBuses_of_repeat {devices : List Device} {buses : List Bus}
    {before after : List BusRecord} {repeated : BusRecord}
    (hkeys : (buses.map Bus.id ++ before.map BusRecord.id).Nodup)
    (hmem : repeated.id ∈ buses.map Bus.id ++ before.map BusRecord.id) :
    addBuses devices buses (before ++ repeated :: after) =
      .error (.duplicateBus repeated.id) := by
  induction before generalizing buses with
  | nil =>
      rw [List.map_nil, List.append_nil] at hmem
      rw [List.nil_append, addBuses, if_pos (any_id_iff.mpr hmem)]
  | cons record rest ih =>
      have hnew : ¬(buses.any fun bus => bus.id = record.id) = true := by
        rw [any_id_iff]
        rw [List.map_cons, List.nodup_middle] at hkeys
        exact fun hmem =>
          (List.nodup_cons.mp hkeys).1 (List.mem_append_left _ hmem)
      have hperm := map_id_insert_append_perm devices buses record rest
      rw [List.cons_append, addBuses, if_neg hnew]
      exact ih (hperm.nodup_iff.mpr hkeys) (hperm.mem_iff.mpr hmem)

/-! ## Members -/

theorem mem_membersOf_iff {devices : List Device} {id : BusId}
    {position : Nat} :
    position ∈ membersOf devices id ↔
      ∃ device, devices[position]? = some device ∧
        device.address.busId = id := by
  simp only [membersOf, List.mem_map, List.mem_filter,
    decide_eq_true_eq, Prod.exists, List.mem_zipIdx_iff_getElem?]
  constructor
  · intro hmem
    rcases hmem with ⟨device, _, ⟨hdevice, hid⟩, rfl⟩
    exact ⟨device, hdevice, hid⟩
  · intro hparts
    rcases hparts with ⟨device, hdevice, hid⟩
    exact ⟨device, position, ⟨hdevice, hid⟩, rfl⟩

theorem membersOf_ascending (devices : List Device) (id : BusId) :
    (membersOf devices id).Pairwise (· < ·) := by
  have hpositions : (devices.zipIdx.map Prod.snd).Pairwise (· < ·) := by
    rw [List.zipIdx_map_snd]
    exact List.pairwise_lt_range'
  exact hpositions.sublist (List.filter_sublist.map Prod.snd)

/-! ## The whole -/

/-- A topology of the devices `models`, in the order of their records, and of
the buses reported in `buses`. -/
structure Shows (models : List Device) (buses : List BusRecord)
    (topology : Topology) : Prop where
  devices : StablySorted models topology.devices
  busRecords : topology.busRecords.Perm buses
  keys_ascending : Bus.Ascending topology.buses
  members_ascending : ∀ bus ∈ topology.buses, bus.members.Pairwise (· < ·)
  mem_members_iff : ∀ bus ∈ topology.buses, ∀ position,
    position ∈ bus.members ↔
      ∃ device, topology.devices[position]? = some device ∧
        device.address.busId = bus.id
  bus_eq_of_mem_members : ∀ bus ∈ topology.buses,
    ∀ other ∈ topology.buses, ∀ position,
      position ∈ bus.members → position ∈ other.members → bus = other
  device_of_device? : ∀ address device,
    topology.device? address = some device →
      device ∈ topology.devices ∧ device.address = address
  device?_isSome_iff : ∀ address, (topology.device? address).isSome ↔
    ∃ device ∈ topology.devices, device.address = address

theorem shows_of_busMap {models : List Device} {buses : List BusRecord}
    {topology : Topology}
    (hdevices : StablySorted models topology.devices)
    (hrecords : topology.busRecords.Perm buses)
    (hmap : BusMap topology.devices topology.buses) :
    topology.Shows models buses := by
  have hmembers : ∀ bus ∈ topology.buses, ∀ position,
      position ∈ bus.members ↔
        ∃ device, topology.devices[position]? = some device ∧
          device.address.busId = bus.id := by
    intro bus hbus position
    rw [hmap.members bus hbus]
    exact mem_membersOf_iff
  refine ⟨hdevices, hrecords, hmap.ascending, ?_, hmembers, ?_, ?_, ?_⟩
  · intro bus hbus
    rw [hmap.members bus hbus]
    exact membersOf_ascending topology.devices bus.id
  · intro bus hbus other hother position hmem hmemOther
    obtain ⟨device, hdevice, hid⟩ := (hmembers bus hbus position).mp hmem
    obtain ⟨same, hsame, hidOther⟩ :=
      (hmembers other hother position).mp hmemOther
    have hdeviceEq : device = same :=
      Option.some.inj (hdevice.symm.trans hsame)
    have hkey : bus.id = other.id := by
      rw [← hid, ← hidOther, hdeviceEq]
    exact List.inj_on_of_nodup_map (keys_nodup_of_ascending hmap.ascending)
      hbus hother hkey
  · intro address device hfound
    exact mem_of_device? hfound
  · exact isSome_device?_iff hdevices.ascending

section

variable {records : List DeviceRecord} {buses : List BusRecord}
  {resolver : Names.Resolver}

theorem outcome_ofRecords_of_repeat {repeated : BusRecord}
    (hrepeat : FirstRepeat buses repeated) :
    (ofRecords records buses resolver).outcome =
      .error (.duplicateBus repeated.id) := by
  obtain ⟨before, after, rfl, hkeys, hmem⟩ := hrepeat
  rw [outcome_ofRecords, assemble,
    addBuses_of_repeat (by simpa using hkeys) (by simpa using hmem)]
  rfl

theorem exists_topology_of_nodup
    (hkeys : (buses.map BusRecord.id).Nodup) :
    ∃ topology, (ofRecords records buses resolver).outcome = .ok topology ∧
      topology.busRecords.Perm buses := by
  let devices := sortDevices (Device.built records resolver)
  obtain ⟨result, hadded, hrecords⟩ :=
    @exists_addBuses devices [] buses (by simpa using hkeys)
  exact ⟨⟨devices, result⟩, outcome_eq_ok_iff.mpr ⟨rfl, hadded⟩, hrecords⟩

theorem exists_error_iff :
    (∃ error, (ofRecords records buses resolver).outcome = .error error) ↔
      ¬(buses.map BusRecord.id).Nodup := by
  constructor
  · rintro ⟨error, hfailed⟩ hkeys
    obtain ⟨topology, hbuilt, _⟩ := exists_topology_of_nodup hkeys
    rw [hbuilt] at hfailed
    contradiction
  · intro hrepeats
    obtain ⟨repeated, hrepeat⟩ := exists_firstRepeat hrepeats
    exact ⟨_, outcome_ofRecords_of_repeat hrepeat⟩

theorem outcome_eq_error_iff {error : ScanError} :
    (ofRecords records buses resolver).outcome = .error error ↔
      ∃ repeated, FirstRepeat buses repeated ∧
        error = .duplicateBus repeated.id := by
  constructor
  · intro hfailed
    obtain ⟨repeated, hrepeat⟩ :=
      exists_firstRepeat (exists_error_iff.mp ⟨error, hfailed⟩)
    rw [outcome_ofRecords_of_repeat hrepeat] at hfailed
    exact ⟨repeated, hrepeat, (Except.error.inj hfailed).symm⟩
  · rintro ⟨repeated, hrepeat, rfl⟩
    exact outcome_ofRecords_of_repeat hrepeat

theorem shows_of_ofRecords {topology : Topology}
    (hbuilt : (ofRecords records buses resolver).outcome = .ok topology) :
    topology.Shows (Device.built records resolver) buses := by
  have hkeys : (buses.map BusRecord.id).Nodup := by
    by_contra hrepeats
    obtain ⟨error, hfailed⟩ := exists_error_iff.mpr hrepeats
    rw [hbuilt] at hfailed
    contradiction
  obtain ⟨same, hsame, hrecords⟩ :=
    @exists_topology_of_nodup records buses resolver hkeys
  rw [hbuilt, Except.ok.injEq] at hsame
  subst same
  obtain ⟨_, hmap⟩ := sorted_and_busMap_of_ofRecords hbuilt
  have hdevices :=
    stablySorted_sortDevices (Device.built records resolver)
  rw [← (outcome_eq_ok_iff.mp hbuilt).1] at hdevices
  exact shows_of_busMap hdevices hrecords hmap

end

theorem scan_eq_ofRecords {σ : Type} {source : DataSource σ}
    {records : List DeviceRecord} {buses : List BusRecord}
    {state afterDevices afterBuses : σ} (resolver : Names.Resolver)
    (hdevices : source.listDevices state = (.ok records, afterDevices))
    (hbuses : source.listBuses afterDevices = (.ok buses, afterBuses)) :
    scan source state resolver =
      (ofRecords records buses resolver, afterBuses) := by
  simp only [scan, ofRecords, hdevices, hbuses,
    Modelled.ofRecords_eq_attempts records resolver]
  rfl

/-- A scan that succeeds was given its records by the source. -/
theorem exists_records_of_scan {σ : Type} {source : DataSource σ} {state : σ}
    {resolver : Names.Resolver} {shown : Topology}
    (hshown : (scan source state resolver).1.outcome = .ok shown) :
    ∃ records buses afterDevices afterBuses,
      source.listDevices state = (.ok records, afterDevices) ∧
        source.listBuses afterDevices = (.ok buses, afterBuses) ∧
        (ofRecords records buses resolver).outcome = .ok shown := by
  rcases hdevices : source.listDevices state with ⟨error | records, next⟩
  · simp only [scan, hdevices] at hshown
    contradiction
  rcases hbuses : source.listBuses next with ⟨error | buses, last⟩
  · simp only [scan, hdevices, hbuses,
      Modelled.ofRecords_eq_attempts records resolver] at hshown
    contradiction
  rw [scan_eq_ofRecords resolver hdevices hbuses] at hshown
  exact ⟨records, buses, next, last, rfl, hbuses, hshown⟩

/-- A topology fails exactly at the first bus record whose key occurred before;
otherwise it shows the devices of all records that could be built, and every
other record is warned of. -/
theorem shows_or_duplicateBus (records : List DeviceRecord)
    (buses : List BusRecord) (resolver : Names.Resolver) :
    let build := ofRecords records buses resolver
    let attempts := Device.attempts records resolver
    ((∃ error, build.outcome = .error error) ↔
        ¬(buses.map BusRecord.id).Nodup) ∧
      (∀ error, build.outcome = .error error ↔
        ∃ repeated, FirstRepeat buses repeated ∧
          error = .duplicateBus repeated.id) ∧
      (∀ topology, build.outcome = .ok topology →
        topology.Shows (attempts.1.filterMap Except.toOption) buses) ∧
      build.warnings =
        (List.zipWith Device.skipped records attempts.1).reduceOption ∧
      (∀ error, .error error ∈ attempts.1 → error.CostsOneDevice) ∧
      build.resolver = attempts.2 ∧
      ∀ {σ : Type} (source : DataSource σ)
        (state afterDevices afterBuses : σ),
        source.listDevices state = (.ok records, afterDevices) →
        source.listBuses afterDevices = (.ok buses, afterBuses) →
        scan source state resolver = (build, afterBuses) := by
  intro build attempts
  have hmodelled := Modelled.ofRecords_eq_attempts records resolver
  refine ⟨exists_error_iff, ?_, ?_, ?_, ?_, ?_, ?_⟩
  · intro error
    exact outcome_eq_error_iff
  · intro topology hbuilt
    exact shows_of_ofRecords hbuilt
  · exact congrArg Modelled.warnings hmodelled
  · intro error
    exact Device.costsOneDevice_of_mem_attempts
  · exact congrArg Modelled.resolver hmodelled
  · intro σ source state afterDevices afterBuses hdevices hbuses
    exact scan_eq_ofRecords resolver hdevices hbuses

/-- Two records of one address, the second with a driver, around one that is
too short for a header. -/
def sharedAddress : List DeviceRecord :=
  [⟨⟨0, 1, 0, 0⟩, List.replicate 64 0, [], none, none, none⟩,
    ⟨⟨0, 0, 2, 0⟩, [0x86, 0x80], [], none, none, none⟩,
    ⟨⟨0, 1, 0, 0⟩, List.replicate 64 0, [], some "ahci", none, none⟩]

theorem shows_or_duplicateBus_sharedAddress :
    (∃ topology,
      (ofRecords sharedAddress [⟨⟨0, 1⟩, false⟩, ⟨⟨0, 0⟩, true⟩]
          .empty).outcome = .ok topology ∧
        (topology.devices.filter fun device =>
          device.address = ⟨0, 1, 0, 0⟩).map (·.record.driver) =
            [none, some "ahci"] ∧
        (topology.device? ⟨0, 1, 0, 0⟩).isSome) ∧
      (ofRecords sharedAddress [⟨⟨0, 1⟩, false⟩, ⟨⟨0, 0⟩, true⟩]
        .empty).warnings.length = 1 ∧
      (ofRecords sharedAddress
          [⟨⟨0, 1⟩, false⟩, ⟨⟨0, 0⟩, true⟩, ⟨⟨0, 1⟩, true⟩]
          .empty).outcome = .error (.duplicateBus ⟨0, 1⟩) := by
  obtain ⟨hfails, _, hshows, hwarnings, _⟩ :=
    shows_or_duplicateBus sharedAddress [⟨⟨0, 1⟩, false⟩, ⟨⟨0, 0⟩, true⟩]
      .empty
  refine ⟨?_, ?_, ?_⟩
  · cases hbuilt : (ofRecords sharedAddress
        [⟨⟨0, 1⟩, false⟩, ⟨⟨0, 0⟩, true⟩] .empty).outcome with
    | error error => exact (hfails.mp ⟨error, hbuilt⟩ (by decide)).elim
    | ok topology =>
        have hshown := hshows topology hbuilt
        have hdrivers : (topology.devices.filter fun device =>
            device.address = ⟨0, 1, 0, 0⟩).map (·.record.driver) =
              [none, some "ahci"] := by
          rw [hshown.devices.stable]
          decide +kernel
        refine ⟨topology, rfl, hdrivers, ?_⟩
        rw [hshown.device?_isSome_iff]
        obtain ⟨device, hdevice, _⟩ := List.mem_map.mp
          (hdrivers ▸ List.mem_cons_self)
        have haddress := (List.mem_filter.mp hdevice).2
        exact ⟨device, (List.mem_filter.mp hdevice).1,
          of_decide_eq_true haddress⟩
  · rw [hwarnings]
    decide +kernel
  · apply ((shows_or_duplicateBus sharedAddress
      [⟨⟨0, 1⟩, false⟩, ⟨⟨0, 0⟩, true⟩, ⟨⟨0, 1⟩, true⟩] .empty).2.1 _).mpr
    exact ⟨⟨⟨0, 1⟩, true⟩, ⟨[⟨⟨0, 1⟩, false⟩, ⟨⟨0, 0⟩, true⟩], [], rfl,
      by decide, by decide⟩, rfl⟩

end Topology

end PciInventory
