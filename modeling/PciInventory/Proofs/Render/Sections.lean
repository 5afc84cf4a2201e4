import Mathlib.Data.List.Perm.Basic
import PciInventory.Proofs.Text.Numeral
import PciInventory.Proofs.Topology.Construction
import PciInventory.Proofs.Topology.Coverage
import PciInventory.Render

/-!
# Sections of a tree

A tree is a row of sections, each a header line with the devices below it: one
section for every visited bus, and one for the devices whose bus was not
reported if there are any.  The walk visits every bus of the map once and a bus
holds the devices with its key, so the sections divide the devices among them.
What a section shows of a device is the block that the listing shows, moved to
the right.
-/

namespace PciInventory

/-- Lists divided by distinct keys, and the rest. -/
theorem flatMap_filter_append_perm {Item Key : Type} [DecidableEq Key]
    {keys : List Key} (hkeys : keys.Nodup) (key : Item → Key)
    (items : List Item) :
    ((keys.flatMap fun one => items.filter fun item => key item = one) ++
      items.filter fun item => key item ∉ keys).Perm items := by
  induction keys generalizing items with
  | nil => simp
  | cons first rest ih =>
      obtain ⟨hfirst, hrest⟩ := List.nodup_cons.mp hkeys
      -- The rest of the keys divides the items that the first key leaves.
      have hparts : ∀ one ∈ rest,
          (items.filter fun item => key item = one) =
            (items.filter fun item => !decide (key item = first)).filter
              fun item => key item = one := by
        intro one hone
        rw [List.filter_filter]
        apply List.filter_congr
        intro item _
        by_cases hitem : key item = one
        · have hne : one ≠ first := fun heq => hfirst (heq ▸ hone)
          simp [hitem, hne]
        · simp [hitem]
      have hleft : (items.filter fun item => key item ∉ first :: rest) =
          (items.filter fun item => !decide (key item = first)).filter
            fun item => key item ∉ rest := by
        rw [List.filter_filter]
        apply List.filter_congr
        intro item _
        simp [Bool.and_comm]
      rw [List.flatMap_cons, List.append_assoc, List.flatMap_congr hparts,
        hleft]
      exact ((ih hrest _).append_left _).trans
        (List.filter_append_perm _ items)

namespace Topology

/-! ## Visited buses -/

/-- The visits of the walk, each with the bus that it visits. -/
def visitedBuses (topology : Topology) : List (Visit × Bus) :=
  topology.visits.filterMap fun visit =>
    (topology.bus? visit.bus).map fun bus => (visit, bus)

variable {topology : Topology}

theorem exists_bus?_of_visit {visit : Visit}
    (hvisit : visit ∈ topology.visits) :
    ∃ bus, topology.bus? visit.bus = some bus := by
  have hkey : visit.bus ∈ topology.buses.map Bus.id :=
    (topology.mem_visits_iff _).mp (List.mem_map_of_mem hvisit)
  rw [← Option.isSome_iff_exists, bus?, List.find?_isSome]
  obtain ⟨bus, hbus, hid⟩ := List.mem_map.mp hkey
  exact ⟨bus, hbus, decide_eq_true hid⟩

theorem mem_visitedBuses_iff {visit : Visit} {bus : Bus} :
    (visit, bus) ∈ topology.visitedBuses ↔
      visit ∈ topology.visits ∧ topology.bus? visit.bus = some bus := by
  simp only [visitedBuses, List.mem_filterMap, Option.map_eq_some_iff,
    Prod.mk.injEq]
  constructor
  · rintro ⟨visit, hvisit, bus, hbus, rfl, rfl⟩
    exact ⟨hvisit, hbus⟩
  · rintro ⟨hvisit, hbus⟩
    exact ⟨visit, hvisit, bus, hbus, rfl, rfl⟩

theorem map_fst_visitedBuses (topology : Topology) :
    topology.visitedBuses.map Prod.fst = topology.visits := by
  unfold visitedBuses
  rw [List.map_filterMap]
  conv => rhs; rw [← List.filterMap_some (l := topology.visits)]
  apply List.filterMap_congr
  intro visit hvisit
  obtain ⟨bus, hbus⟩ := exists_bus?_of_visit hvisit
  rw [hbus]
  rfl

theorem map_snd_visitedBuses_perm
    (hkeys : (topology.buses.map Bus.id).Nodup) :
    (topology.visitedBuses.map Prod.snd).Perm topology.buses := by
  have hvisited : topology.visitedBuses.map Prod.snd =
      (topology.visits.map Visit.bus).filterMap topology.bus? := by
    unfold visitedBuses
    rw [List.map_filterMap, List.filterMap_map]
    apply List.filterMap_congr
    intro visit _
    simp [Function.comp_def]
  have hbuses :
      (topology.buses.map Bus.id).filterMap topology.bus? =
        topology.buses := by
    rw [List.filterMap_map]
    conv => rhs; rw [← List.filterMap_some (l := topology.buses)]
    apply List.filterMap_congr
    intro bus hbus
    exact bus?_of_mem hkeys hbus
  have hperm := (visits_perm_buses hkeys).filterMap topology.bus?
  rw [hbuses] at hperm
  rw [hvisited]
  exact hperm

end Topology

namespace Render

/-! ## Sections -/

/-- A header line and the devices whose blocks follow it behind `indent`. -/
structure Section where
  header : String
  indent : String
  devices : List Device

namespace Section

/-- Each device has the block that a listing shows, moved to the right. -/
def lines (view : View) (part : Section) : List String :=
  part.header :: part.devices.flatMap fun device =>
    (block "" view device).map fun line => part.indent ++ line

def ofVisit (devices : List Device) (visited : Visit × Bus) : Section :=
  { header := busLine visited.1 visited.2
    indent := indentation visited.1.depth ++ "  "
    devices := devices.filter fun device =>
      device.address.busId = visited.2.id }

/-- The devices whose bus was not reported. -/
def unlisted (devices : List Device) : List Section :=
  if devices.isEmpty then [] else [⟨"[unlisted buses]", "  ", devices⟩]

end Section

theorem block_eq_map (indent : String) (view : View) (device : Device) :
    block indent view device =
      (block "" view device).map fun line => indent ++ line := by
  unfold block
  split <;> simp [String.append_assoc]

theorem busLines_eq_lines {topology : Topology} {visit : Visit} {bus : Bus}
    (hmap : Topology.BusMap topology.devices topology.buses)
    (hbus : topology.bus? visit.bus = some bus) (view : View) :
    busLines topology view visit =
      (Section.ofVisit topology.devices (visit, bus)).lines view := by
  have hmembers := hmap.members bus (Topology.mem_of_bus? hbus)
  unfold busLines
  simp only [hbus]
  rw [Topology.devicesOn_eq_filter hmembers]
  exact congrArg (busLine visit bus :: ·)
    (List.flatMap_congr fun device _ => block_eq_map _ view device)

theorem flatMap_busLines {topology : Topology}
    (hmap : Topology.BusMap topology.devices topology.buses) (view : View) :
    topology.visits.flatMap (busLines topology view) =
      (topology.visitedBuses.map
        (Section.ofVisit topology.devices)).flatMap (Section.lines view) := by
  rw [← topology.map_fst_visitedBuses, List.flatMap_map, List.flatMap_map]
  apply List.flatMap_congr
  rintro ⟨visit, bus⟩ hvisited
  exact busLines_eq_lines hmap (Topology.mem_visitedBuses_iff.mp hvisited).2
    view

/-! ## Devices of unreported buses -/

theorem mem_listedPositions_iff {topology : Topology}
    (hmap : Topology.BusMap topology.devices topology.buses)
    {device : Device} {position : Nat}
    (hdevice : topology.devices[position]? = some device) :
    position ∈ listedPositions topology topology.visits ↔
      device.address.busId ∈ topology.buses.map Bus.id := by
  unfold listedPositions
  rw [List.mem_flatMap]
  constructor
  · rintro ⟨visit, hvisit, hposition⟩
    obtain ⟨bus, hbus⟩ := Topology.exists_bus?_of_visit hvisit
    have hmem := Topology.mem_of_bus? hbus
    simp only [hbus] at hposition
    rw [hmap.members bus hmem, Topology.mem_membersOf_iff] at hposition
    obtain ⟨same, hsame, hid⟩ := hposition
    cases hdevice.symm.trans hsame
    exact hid ▸ List.mem_map_of_mem hmem
  · intro hkey
    obtain ⟨visit, hvisit, hid⟩ :=
      List.mem_map.mp ((topology.mem_visits_iff _).mpr hkey)
    obtain ⟨bus, hbus⟩ := Topology.exists_bus?_of_visit hvisit
    refine ⟨visit, hvisit, ?_⟩
    simp only [hbus]
    rw [hmap.members bus (Topology.mem_of_bus? hbus),
      Topology.mem_membersOf_iff]
    exact ⟨device, hdevice, by rw [Topology.id_of_bus? hbus, hid]⟩

theorem unlisted_eq_filter {topology : Topology}
    (hmap : Topology.BusMap topology.devices topology.buses) :
    unlisted topology topology.visits =
      topology.devices.filter fun device =>
        device.address.busId ∉ topology.buses.map Bus.id := by
  unfold unlisted
  simp only
  calc
    _ = (topology.devices.zipIdx.filter fun entry =>
          decide (entry.1.address.busId ∉
            topology.buses.map Bus.id)).map Prod.fst := by
        congr 1
        apply List.filter_congr
        rintro ⟨device, position⟩ hentry
        have hlisted := mem_listedPositions_iff hmap
          (List.mem_zipIdx_iff_getElem?.mp hentry)
        simp only [List.contains_eq_mem, hlisted, decide_not]
    _ = (topology.devices.zipIdx.map Prod.fst).filter fun device =>
          decide (device.address.busId ∉ topology.buses.map Bus.id) := by
        rw [List.filter_map]
        rfl
    _ = _ := by rw [List.zipIdx_map_fst]

theorem unlistedLines_eq_lines (view : View) (devices : List Device) :
    unlistedLines view devices =
      (Section.unlisted devices).flatMap (Section.lines view) := by
  cases devices with
  | nil => rfl
  | cons device rest =>
      have hblocks := List.flatMap_congr fun other
        (_ : other ∈ device :: rest) => block_eq_map "  " view other
      simp only [unlistedLines, Section.unlisted, List.isEmpty_cons,
        Bool.false_eq_true, if_false, List.flatMap_singleton, Section.lines,
        hblocks]

/-! ## Header lines -/

theorem sections_devices_perm {topology : Topology}
    (hkeys : (topology.buses.map Bus.id).Nodup) :
    ((topology.visitedBuses.map
          (Section.ofVisit topology.devices)).flatMap Section.devices ++
        topology.devices.filter fun device =>
          device.address.busId ∉ topology.buses.map Bus.id).Perm
      topology.devices := by
  have hvisited : ((topology.visitedBuses.map Prod.snd).map Bus.id).Perm
      (topology.buses.map Bus.id) :=
    (Topology.map_snd_visitedBuses_perm hkeys).map Bus.id
  have hdivided := flatMap_filter_append_perm
    (hvisited.nodup_iff.mpr hkeys)
    (fun device : Device => device.address.busId) topology.devices
  simp only [hvisited.mem_iff, List.flatMap_map] at hdivided
  rw [List.flatMap_map]
  exact hdivided

theorem tree_eq_flatMap {topology : Topology}
    (hmap : Topology.BusMap topology.devices topology.buses) (view : View) :
    tree topology view =
      (topology.visitedBuses.map (Section.ofVisit topology.devices) ++
        Section.unlisted (topology.devices.filter fun device =>
          device.address.busId ∉ topology.buses.map Bus.id)).flatMap
        (Section.lines view) := by
  unfold tree
  simp only
  rw [flatMap_busLines hmap, unlisted_eq_filter hmap,
    unlistedLines_eq_lines, List.flatMap_append]

theorem Section.flatMap_devices_unlisted (devices : List Device) :
    (Section.unlisted devices).flatMap Section.devices = devices := by
  cases devices <;> simp [Section.unlisted]

end Render

end PciInventory
