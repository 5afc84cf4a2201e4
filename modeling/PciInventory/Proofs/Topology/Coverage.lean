import Mathlib.Control.Monad.Basic
import Mathlib.Data.List.Basic
import PciInventory.Proofs.Topology.Walk

/-!
# What the bus walk covers

A walk from several starts joins the walks from those starts that were not
reached before, each with the buses visited by then.  Over a topology that was
built, the starts are all buses of the map, so the walk visits each of them
exactly once, and the links it followed or left out are the links of the
topology.
-/

namespace PciInventory

namespace Topology

theorem mem_children_iff {topology : Topology} {bus child : Bus}
    {device : Device} :
    (device, child) ∈ topology.children bus ↔
      device ∈ topology.devicesOn bus ∧
        ∃ secondary, device.secondaryBus? = some secondary ∧
          topology.bus? ⟨bus.id.domain, secondary⟩ = some child := by
  unfold children
  rw [List.mem_filterMap]
  constructor
  · intro hchild
    rcases hchild with ⟨other, hother, hlink⟩
    simp only [Option.bind_eq_bind, Option.bind_eq_some_iff,
      Option.pure_def, Option.some.injEq, Prod.mk.injEq] at hlink
    rcases hlink with ⟨secondary, hsecondary, found, hfound, rfl, rfl⟩
    exact ⟨hother, secondary, hsecondary, hfound⟩
  · intro hchild
    rcases hchild with ⟨hdevice, secondary, hsecondary, hfound⟩
    exact ⟨device, hdevice, by simp [hsecondary, hfound]⟩

theorem mem_linksBelow_iff {topology : Topology} {parent visit : Visit} :
    visit ∈ topology.linksBelow parent ↔
      ∃ bus, topology.bus? parent.bus = some bus ∧
        ∃ device child, (device, child) ∈ topology.children bus ∧
          visit = ⟨child.id, parent.depth + 1, some device.address⟩ := by
  unfold linksBelow
  cases topology.bus? parent.bus with
  | none => simp
  | some bus =>
      simp only [linksFrom, List.mem_map, Prod.exists, Option.some.injEq,
        exists_eq_left', eq_comm]

theorem kind_of_secondaryBus? {device : Device} {secondary : UInt8}
    (hsecondary : device.secondaryBus? = some secondary) :
    device.kind = .bridge := by
  unfold Device.secondaryBus? at hsecondary
  split at hsecondary
  next => contradiction
  next hkind => exact hkind

theorem mem_starts_iff {topology : Topology} {bus : Bus} :
    bus ∈ topology.starts ↔ bus ∈ topology.buses := by
  unfold starts roots
  simp only [List.mem_append, List.mem_filter]
  cases bus.isRoot <;> simp

/-! ## Several starts -/

theorem walkStarts_seen {topology : Topology} {visited : List BusId}
    {start : Bus} (hseen : start.id ∈ visited) (rest : List Bus) :
    topology.walkStarts visited (start :: rest) =
      topology.walkStarts visited rest := by
  rw [walkStarts, if_pos hseen]

theorem walkStarts_fresh {topology : Topology} {visited : List BusId}
    {start : Bus} (hfresh : start.id ∉ visited) (rest : List Bus) :
    topology.walkStarts visited (start :: rest) =
      (topology.walkFrom visited [⟨start.id, 0, none⟩]).1 ++
        topology.walkStarts
          (topology.walkFrom visited [⟨start.id, 0, none⟩]).2 rest := by
  rw [walkStarts, if_neg hfresh]

theorem walkStarts_fresh_nodup (topology : Topology)
    (visited : List BusId) (starts : List Bus) :
    ((entered (topology.walkStarts visited starts)).map
        Visit.bus).Nodup ∧
      ∀ id ∈ (entered (topology.walkStarts visited starts)).map Visit.bus,
        id ∉ visited := by
  induction starts generalizing visited with
  | nil => simp [walkStarts]
  | cons start rest ih =>
      by_cases hseen : start.id ∈ visited
      · rw [walkStarts_seen hseen]
        exact ih visited
      · rw [walkStarts_fresh hseen, entered_append, List.map_append]
        have htree := topology.walkFrom_fresh_nodup visited
          [⟨start.id, 0, none⟩]
        have hvisited := topology.mem_walkFrom_visited_iff visited
          [⟨start.id, 0, none⟩]
        obtain ⟨hnodup, hnew⟩ := ih
          (topology.walkFrom visited [⟨start.id, 0, none⟩]).2
        constructor
        · rw [List.nodup_append]
          refine ⟨htree.1, hnodup, ?_⟩
          intro first hfirst second hsecond heq
          subst second
          exact hnew first hsecond ((hvisited first).mpr (Or.inr hfirst))
        · intro id hid hmem
          rcases List.mem_append.mp hid with hid | hid
          · exact htree.2 id hid hmem
          · exact hnew id hid ((hvisited id).mpr (Or.inl hmem))

theorem walkStarts_reaches (topology : Topology)
    (visited : List BusId) (starts : List Bus) :
    ∀ start ∈ starts, start.id ∈ visited ∨
      start.id ∈
        (entered (topology.walkStarts visited starts)).map Visit.bus := by
  induction starts generalizing visited with
  | nil => simp
  | cons start rest ih =>
      intro other hother
      by_cases hseen : start.id ∈ visited
      · rw [walkStarts_seen hseen]
        rcases List.mem_cons.mp hother with rfl | hother
        · exact Or.inl hseen
        · exact ih visited other hother
      · rw [walkStarts_fresh hseen, entered_append, List.map_append,
          List.mem_append, ← or_assoc]
        rw [← topology.mem_walkFrom_visited_iff]
        rcases List.mem_cons.mp hother with rfl | hother
        · exact Or.inl (topology.walkFrom_reaches_stack visited _
            ⟨other.id, 0, none⟩ List.mem_cons_self)
        · exact ih _ other hother

theorem walkStarts_links_perm (topology : Topology)
    (visited : List BusId) (starts : List Bus) :
    (((topology.walkStarts visited starts).map
        WalkStep.visit).filterMap Visit.link?).Perm
      ((entered (topology.walkStarts visited starts)).flatMap
        fun visit => topology.linksAt visit.bus) := by
  induction starts generalizing visited with
  | nil => simp [walkStarts]
  | cons start rest ih =>
      by_cases hseen : start.id ∈ visited
      · rw [walkStarts_seen hseen]
        exact ih visited
      · rw [walkStarts_fresh hseen, entered_append, List.map_append,
          List.filterMap_append, List.flatMap_append]
        have htree := topology.walkFrom_links_perm visited
          [⟨start.id, 0, none⟩]
        exact htree.append (ih _)

/-- Only links are left out: the start of a walk is visited. -/
theorem walkStarts_ignored_bridge (topology : Topology)
    (visited : List BusId) (starts : List Bus) :
    ∀ visit ∈ ignored (topology.walkStarts visited starts),
      visit.bridge.isSome := by
  induction starts generalizing visited with
  | nil => simp [walkStarts]
  | cons start rest ih =>
      by_cases hseen : start.id ∈ visited
      · rw [walkStarts_seen hseen]
        exact ih visited
      · rw [walkStarts_fresh hseen, ignored_append]
        intro visit hvisit
        rcases List.mem_append.mp hvisit with htree | hlater
        · rw [walkFrom_fresh hseen, ignored_cons_enter,
            List.append_nil] at htree
          have hbelow : ∀ parent, ∀ other ∈ topology.linksBelow parent,
              other.bridge.isSome := by
            intro parent other hother
            rcases mem_linksBelow_iff.mp hother with ⟨_, _, _, _, _, rfl⟩
            rfl
          exact topology.walkFrom_forall hbelow _ _ (hbelow _)
            (.ignore visit) (mem_ignored_iff.mp htree)
        · exact ih _ visit hlater

theorem walkStarts_supported (topology : Topology)
    (visited : List BusId) (starts : List Bus) (earlier : List Visit)
    (hstarts : ∀ start ∈ starts, start ∈ topology.buses) :
    topology.SupportedAfter earlier
      (entered (topology.walkStarts visited starts)) := by
  induction starts generalizing visited earlier with
  | nil => trivial
  | cons start rest ih =>
      obtain ⟨hstart, hrest⟩ := List.forall_mem_cons.mp hstarts
      by_cases hseen : start.id ∈ visited
      · rw [walkStarts_seen hseen]
        exact ih visited earlier hrest
      · rw [walkStarts_fresh hseen, entered_append]
        apply SupportedAfter.append
        · apply walkFrom_supported
          intro visit hvisit
          rw [List.mem_singleton] at hvisit
          exact Or.inl ⟨start, hstart, hvisit⟩
        · exact ih _ _ hrest

/-! ## The whole walk -/

theorem visits_nodup (topology : Topology) :
    (topology.visits.map Visit.bus).Nodup :=
  (topology.walkStarts_fresh_nodup [] topology.starts).1

theorem visits_supported {topology : Topology}
    {before after : List Visit} {visit : Visit}
    (hsplit : topology.visits = before ++ visit :: after) :
    topology.Supported before visit := by
  have hwalk := topology.walkStarts_supported [] topology.starts []
    fun _ hstart => mem_starts_iff.mp hstart
  exact hwalk.supported hsplit

theorem mem_visits_iff (topology : Topology) (id : BusId) :
    id ∈ topology.visits.map Visit.bus ↔
      id ∈ topology.buses.map Bus.id := by
  constructor
  · intro hid
    rcases List.mem_map.mp hid with ⟨visit, hvisit, rfl⟩
    obtain ⟨before, after, hsplit⟩ := List.append_of_mem hvisit
    rcases visits_supported hsplit with hstart | hlink
    · rcases hstart with ⟨start, hstart, rfl⟩
      exact List.mem_map_of_mem hstart
    · rcases hlink with ⟨parent, _, hbelow⟩
      rcases mem_linksBelow_iff.mp hbelow with
        ⟨bus, _, device, child, hchild, rfl⟩
      rcases (mem_children_iff.mp hchild).2 with ⟨_, _, hfound⟩
      exact List.mem_map_of_mem (mem_of_bus? hfound)
  · intro hid
    rcases List.mem_map.mp hid with ⟨bus, hbus, rfl⟩
    have hreached := topology.walkStarts_reaches [] topology.starts bus
      (mem_starts_iff.mpr hbus)
    rcases hreached with hnone | hvisited
    · contradiction
    · exact hvisited

theorem visits_perm_buses {topology : Topology}
    (hkeys : (topology.buses.map Bus.id).Nodup) :
    (topology.visits.map Visit.bus).Perm (topology.buses.map Bus.id) :=
  (List.perm_ext_iff_of_nodup topology.visits_nodup hkeys).mpr
    topology.mem_visits_iff

theorem bridge_eq_none_iff {topology : Topology} {visit : Visit}
    (hvisit : visit ∈ topology.visits) :
    visit.bridge = none ↔ visit.depth = 0 := by
  obtain ⟨before, after, hsplit⟩ := List.append_of_mem hvisit
  rcases visits_supported hsplit with hstart | hlink
  · rcases hstart with ⟨start, _, rfl⟩
    simp
  · rcases hlink with ⟨parent, _, hbelow⟩
    rcases mem_linksBelow_iff.mp hbelow with ⟨_, _, _, _, _, rfl⟩
    simp

/-- The visit follows a link that the registers of a bridge on the bus of
`parent` describe. -/
def LinkedFrom (topology : Topology) (parent visit : Visit)
    (bridge : Address) : Prop :=
  visit.depth = parent.depth + 1 ∧
    parent.bus.domain = visit.bus.domain ∧
      ∃ bus ∈ topology.buses, bus.id = parent.bus ∧
        ∃ device ∈ topology.devicesOn bus,
          device.kind = .bridge ∧ device.address = bridge ∧
            device.secondaryBus? = some visit.bus.number

theorem linkedFrom_of_mem_linksBelow {topology : Topology}
    {parent visit : Visit} {bridge : Address}
    (hbelow : visit ∈ topology.linksBelow parent)
    (hbridge : visit.bridge = some bridge) :
    topology.LinkedFrom parent visit bridge := by
  rcases mem_linksBelow_iff.mp hbelow with
    ⟨bus, hbus, device, child, hchild, rfl⟩
  rcases mem_children_iff.mp hchild with
    ⟨hdevice, secondary, hsecondary, hfound⟩
  have hparent := id_of_bus? hbus
  have hid := id_of_bus? hfound
  refine ⟨rfl, ?_, bus, mem_of_bus? hbus, hparent, device, hdevice,
    kind_of_secondaryBus? hsecondary, ?_, ?_⟩
  · rw [hid, hparent]
  · simpa using hbridge
  · rw [hid]
    exact hsecondary

theorem exists_linkedFrom {topology : Topology}
    {before after : List Visit} {visit : Visit} {bridge : Address}
    (hsplit : topology.visits = before ++ visit :: after)
    (hbridge : visit.bridge = some bridge) :
    ∃ parent ∈ before, topology.LinkedFrom parent visit bridge := by
  rcases visits_supported hsplit with hstart | hlink
  · rcases hstart with ⟨start, _, rfl⟩
    contradiction
  · rcases hlink with ⟨parent, hparent, hbelow⟩
    exact ⟨parent, hparent,
      linkedFrom_of_mem_linksBelow hbelow hbridge⟩

/-! ## The links of the whole walk -/

/-- The links left out by the walk. -/
def ignoredLinks (topology : Topology) : List (Address × BusId) :=
  (ignored topology.walk).filterMap Visit.link?

theorem map_warning_eq (links : List Visit)
    (hbridge : ∀ visit ∈ links, visit.bridge.isSome) :
    links.map Visit.warning =
      (links.filterMap Visit.link?).map fun (bridge, child) =>
        .ignoredLink child (some bridge) := by
  induction links with
  | nil => rfl
  | cons visit rest ih =>
      obtain ⟨hvisit, hrest⟩ := List.forall_mem_cons.mp hbridge
      obtain ⟨bridge, hsome⟩ := Option.isSome_iff_exists.mp hvisit
      rw [List.map_cons, ih hrest, Visit.filterMap_link?_cons]
      simp [Visit.warning, Visit.link?, hsome]

theorem walkWarnings_eq_map_ignored (topology : Topology) :
    topology.walkWarnings =
      (ignored topology.walk).map Visit.warning := by
  unfold walkWarnings ignored
  rw [List.map_filterMap]
  apply List.filterMap_congr
  intro step _
  cases step with
  | enter visit => rfl
  | ignore visit => rfl

theorem walkWarnings_eq (topology : Topology) :
    topology.walkWarnings =
      topology.ignoredLinks.map fun (bridge, child) =>
        .ignoredLink child (some bridge) := by
  rw [walkWarnings_eq_map_ignored]
  exact map_warning_eq _
    (topology.walkStarts_ignored_bridge [] topology.starts)

theorem linksAt_of_mem {topology : Topology} {bus : Bus}
    (hkeys : (topology.buses.map Bus.id).Nodup)
    (hbus : bus ∈ topology.buses) :
    topology.linksAt bus.id = topology.linksOn bus := by
  unfold linksAt
  rw [bus?_of_mem hkeys hbus]

theorem links_eq_flatMap_linksAt {topology : Topology}
    (hkeys : (topology.buses.map Bus.id).Nodup) :
    topology.links =
      (topology.buses.map Bus.id).flatMap topology.linksAt := by
  unfold links
  rw [List.flatMap_map]
  apply List.flatMap_congr
  intro bus hbus
  exact (linksAt_of_mem hkeys hbus).symm

/-- The visits and the warnings account for every link once. -/
theorem links_perm {topology : Topology}
    (hkeys : (topology.buses.map Bus.id).Nodup) :
    topology.links.Perm
      (topology.visits.filterMap Visit.link? ++
        topology.ignoredLinks) := by
  have hfollowed : topology.links.Perm
      (topology.visits.flatMap fun visit =>
        topology.linksAt visit.bus) := by
    rw [links_eq_flatMap_linksAt hkeys]
    have hbuses := (visits_perm_buses hkeys).flatMap_right
      topology.linksAt
    rw [List.flatMap_map] at hbuses
    exact hbuses.symm
  have hsteps := topology.walkStarts_links_perm [] topology.starts
  have hsplit := (map_visit_perm topology.walk).filterMap Visit.link?
  rw [List.filterMap_append] at hsplit
  exact hfollowed.trans (hsteps.symm.trans hsplit)

theorem walk_length {topology : Topology}
    (hkeys : (topology.buses.map Bus.id).Nodup) :
    topology.walk.length =
      topology.buses.length + topology.walkWarnings.length := by
  have hsteps := (map_visit_perm topology.walk).length_eq
  have hvisits := (visits_perm_buses hkeys).length_eq
  rw [List.length_map, List.length_append] at hsteps
  rw [List.length_map, List.length_map] at hvisits
  rw [walkWarnings_eq_map_ignored, List.length_map, hsteps, ← hvisits]
  rfl

theorem walk_length_le {topology : Topology}
    (hkeys : (topology.buses.map Bus.id).Nodup) :
    topology.walk.length ≤
      topology.buses.length + topology.links.length := by
  have hlinks := (links_perm hkeys).length_eq
  rw [List.length_append] at hlinks
  rw [walk_length hkeys, walkWarnings_eq, List.length_map]
  omega

/-- The walk takes at most one step for each bus and each link.  It visits
every bus of the map once and nothing else, the visits without a bridge being
those at depth zero; each other visit follows a link on a bus visited before
it.  The links of the topology, with multiplicity, are those followed and those
that a warning names. -/
theorem walk_coverage {records : List DeviceRecord}
    {buses : List BusRecord} {resolver : Names.Resolver}
    {topology : Topology}
    (hbuilt : (ofRecords records buses resolver).outcome = .ok topology) :
    topology.walk.length ≤
        topology.buses.length + topology.links.length ∧
      (topology.visits.map Visit.bus).Nodup ∧
      (∀ id, id ∈ topology.visits.map Visit.bus ↔
        id ∈ topology.buses.map Bus.id) ∧
      (∀ visit ∈ topology.visits,
        visit.bridge = none ↔ visit.depth = 0) ∧
      (∀ before visit after bridge,
        topology.visits = before ++ visit :: after →
        visit.bridge = some bridge →
        ∃ parent ∈ before, topology.LinkedFrom parent visit bridge) ∧
      ∃ left : List (Address × BusId),
        topology.walkWarnings =
            left.map (fun (bridge, child) =>
              .ignoredLink child (some bridge)) ∧
          topology.links.Perm
            (topology.visits.filterMap Visit.link? ++ left) := by
  have hkeys := keys_nodup_of_ofRecords hbuilt
  refine ⟨walk_length_le hkeys, topology.visits_nodup,
    topology.mem_visits_iff, ?_, ?_, ?_⟩
  · intro visit hvisit
    exact bridge_eq_none_iff hvisit
  · intro before visit after bridge hsplit hbridge
    exact exists_linkedFrom hsplit hbridge
  · exact ⟨topology.ignoredLinks, topology.walkWarnings_eq,
      links_perm hkeys⟩

/-- A bridge in a configuration space that is zero but for the header layout
and the bus behind it. -/
def plainBridge (bus device secondary : UInt8) : Device :=
  let config := List.replicate 14 0 ++ 1 :: List.replicate 10 0 ++
    secondary :: List.replicate 230 0
  { record := ⟨⟨0, bus, device, 0⟩, config, [], none, none, none⟩
    kind := .bridge
    capabilities := []
    names := ⟨"", "", .unknown, "", ""⟩ }

/-- Bus 1 is behind bus 0, bus 2 behind bus 1, and bus 1 again behind bus 2. -/
def bridgeCycle : Topology :=
  { devices := [plainBridge 0 1 1, plainBridge 1 0 2, plainBridge 2 0 1]
    buses := [⟨⟨0, 0⟩, true, [0]⟩, ⟨⟨0, 1⟩, false, [1]⟩,
      ⟨⟨0, 2⟩, false, [2]⟩] }

theorem walk_coverage_bridgeCycle :
    (ofRecords bridgeCycle.deviceRecords bridgeCycle.busRecords
        .empty).outcome = .ok bridgeCycle ∧
      bridgeCycle.links.length = 3 ∧
      bridgeCycle.walk.length ≤ 6 ∧
      (bridgeCycle.visits.map Visit.bus).Nodup ∧
      (∃ visit ∈ bridgeCycle.visits, visit.bus = ⟨0, 2⟩) ∧
      ∃ left : List (Address × BusId),
        bridgeCycle.walkWarnings =
            left.map (fun (bridge, child) =>
              .ignoredLink child (some bridge)) ∧
          bridgeCycle.links.Perm
            (bridgeCycle.visits.filterMap Visit.link? ++ left) := by
  have hbuilt : (ofRecords bridgeCycle.deviceRecords bridgeCycle.busRecords
        .empty).outcome = .ok bridgeCycle :=
    outcome_ofRecords_of_sorted (by decide +kernel) (by decide +kernel)
      (by decide +kernel)
  have hlinks : bridgeCycle.links.length = 3 := by decide +kernel
  obtain ⟨hlength, hnodup, hkeys, _, _, hleft⟩ := walk_coverage hbuilt
  rw [hlinks] at hlength
  refine ⟨hbuilt, hlinks, hlength, hnodup, ?_, hleft⟩
  have hlast := (hkeys ⟨0, 2⟩).mpr (by decide)
  simpa using hlast

end Topology

end PciInventory
