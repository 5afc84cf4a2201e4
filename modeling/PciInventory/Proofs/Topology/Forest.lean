import Mathlib.Data.List.Pairwise
import PciInventory.Proofs.Topology.Reach

/-!
# Walks of forests

In a forest every bus is behind at most one bridge, so a link is either
followed or its bus has started a walk of its own before.  The second happens
to a bus that is tried before every bus above it: buses that no root leads to
start in key order, whichever of them is on top.  The walk of a forest is
therefore without warnings exactly when each bus behind a bridge has a root or
a lower bus above it.
-/

namespace PciInventory

namespace Topology

open Relation

/-- The links of the topology form a forest with its roots on top. -/
structure Forest (topology : Topology) : Prop where
  acyclic : ∀ id, ¬TransGen topology.LeadsTo id id
  singleLink : (topology.links.map Prod.snd).Nodup
  rootsOnTop : ∀ bus ∈ topology.buses, bus.isRoot →
    bus.id ∉ topology.links.map Prod.snd

/-- Links that all go up or all go down in some measure form no cycle. -/
theorem acyclic_of_measure {topology : Topology} (height : BusId → Nat)
    (hlinks : ∀ bus ∈ topology.buses, ∀ link ∈ topology.children bus,
      height link.2.id < height bus.id) (id : BusId) :
    ¬TransGen topology.LeadsTo id id := by
  have hlower : ∀ {first last}, TransGen topology.LeadsTo first last →
      height last < height first := by
    intro first last hpath
    induction hpath with
    | single hlink =>
        obtain ⟨bus, device, below, hbus, hchild, rfl⟩ := hlink
        rw [← id_of_bus? hbus]
        exact hlinks bus (mem_of_bus? hbus) _ hchild
    | tail _ hlink ih =>
        obtain ⟨bus, device, below, hbus, hchild, rfl⟩ := hlink
        have hstep := hlinks bus (mem_of_bus? hbus) _ hchild
        rw [id_of_bus? hbus] at hstep
        exact Nat.lt_trans hstep ih
  exact fun hcycle => Nat.lt_irrefl _ (hlower hcycle)

/-! ## Links and visits -/

theorem mem_linksOn_of_mem_children {topology : Topology} {bus child : Bus}
    {device : Device} (hlink : (device, child) ∈ topology.children bus) :
    (device.address, child.id) ∈ topology.linksOn bus :=
  List.mem_map_of_mem (f := fun link => (link.1.address, link.2.id)) hlink

theorem mem_links_of_mem_children {topology : Topology} {bus child : Bus}
    {device : Device} (hbus : bus ∈ topology.buses)
    (hlink : (device, child) ∈ topology.children bus) :
    (device.address, child.id) ∈ topology.links :=
  List.mem_flatMap.mpr ⟨bus, hbus, mem_linksOn_of_mem_children hlink⟩

theorem mem_links_iff {topology : Topology} {link : Address × BusId} :
    link ∈ topology.links ↔ ∃ bus ∈ topology.buses, ∃ device child,
      (device, child) ∈ topology.children bus ∧
        link = (device.address, child.id) := by
  constructor
  · intro hlink
    obtain ⟨bus, hbus, hon⟩ := List.mem_flatMap.mp hlink
    obtain ⟨⟨device, child⟩, hchild, rfl⟩ := List.mem_map.mp hon
    exact ⟨bus, hbus, device, child, hchild, rfl⟩
  · intro ⟨bus, hbus, device, child, hchild, hlink⟩
    rw [hlink]
    exact mem_links_of_mem_children hbus hchild

/-- In a forest the bus and the bridge of a link can be told from the bus
behind it. -/
theorem Forest.link_unique {topology : Topology} (hforest : topology.Forest)
    {bus other child below : Bus} {device bridge : Device}
    (hbus : bus ∈ topology.buses) (hother : other ∈ topology.buses)
    (hlink : (device, child) ∈ topology.children bus)
    (hchild : (bridge, below) ∈ topology.children other)
    (hsame : below.id = child.id) :
    other = bus ∧ bridge.address = device.address := by
  have hnodup := hforest.singleLink
  have hfirst := mem_linksOn_of_mem_children hlink
  have hsecond := mem_linksOn_of_mem_children hchild
  have hbusEq : other = bus := by
    by_contra hne
    unfold links at hnodup
    rw [List.map_flatMap, List.nodup_flatMap] at hnodup
    have hsymm : Std.Symm (Function.onFun List.Disjoint
        fun bus => (topology.linksOn bus).map Prod.snd) :=
      ⟨fun _ _ hdisjoint => List.disjoint_symm hdisjoint⟩
    have hfirstChild : child.id ∈ (topology.linksOn bus).map Prod.snd :=
      List.mem_map_of_mem hfirst
    have hsecondChild : below.id ∈ (topology.linksOn other).map Prod.snd :=
      List.mem_map_of_mem hsecond
    rw [hsame] at hsecondChild
    exact hnodup.2.forall hother hbus hne hsecondChild hfirstChild
  have hpair := List.inj_on_of_nodup_map hnodup
    (mem_links_of_mem_children hother hchild)
    (mem_links_of_mem_children hbus hlink) hsame
  exact ⟨hbusEq, congrArg Prod.fst hpair⟩

theorem exists_visit_of_mem {topology : Topology} {bus : Bus}
    (hbus : bus ∈ topology.buses) :
    ∃ visit ∈ topology.visits, visit.bus = bus.id := by
  have hvisited := (topology.mem_visits_iff bus.id).mpr
    (List.mem_map_of_mem hbus)
  exact List.mem_map.mp hvisited

theorem eq_of_mem_visits {topology : Topology} {first second : Visit}
    (hfirst : first ∈ topology.visits) (hsecond : second ∈ topology.visits)
    (hbus : first.bus = second.bus) : first = second :=
  List.inj_on_of_nodup_map topology.visits_nodup hfirst hsecond hbus

theorem mem_buses_of_mem_children {topology : Topology} {bus child : Bus}
    {device : Device} (hlink : (device, child) ∈ topology.children bus) :
    child ∈ topology.buses := by
  obtain ⟨_, _, _, hfound⟩ := mem_children_iff.mp hlink
  exact mem_of_bus? hfound

/-- The bus behind a link is visited through it unless it is a start. -/
theorem Forest.followed {topology : Topology} (hforest : topology.Forest)
    {bus child : Bus} {device : Device} (hbus : bus ∈ topology.buses)
    (hlink : (device, child) ∈ topology.children bus)
    (hstart : ⟨child.id, 0, none⟩ ∉ topology.visits) :
    ∃ parent ∈ topology.visits, parent.bus = bus.id ∧
      ⟨child.id, parent.depth + 1, some device.address⟩ ∈
        topology.visits := by
  obtain ⟨visit, hvisit, hid⟩ :=
    exists_visit_of_mem (mem_buses_of_mem_children hlink)
  obtain ⟨before, after, hsplit⟩ := List.append_of_mem hvisit
  rcases visits_supported hsplit with ⟨start, _, rfl⟩ | hsupported
  · have hchild : start.id = child.id := hid
    rw [hchild] at hvisit
    exact (hstart hvisit).elim
  · obtain ⟨parent, hparent, hbelow⟩ := hsupported
    obtain ⟨other, hother, bridge, below, hchild, rfl⟩ :=
      mem_linksBelow_iff.mp hbelow
    have hunique := hforest.link_unique hbus (mem_of_bus? hother) hlink
      hchild hid
    have hmem : parent ∈ topology.visits := by
      rw [hsplit]
      exact List.mem_append_left _ hparent
    refine ⟨parent, hmem, ?_, ?_⟩
    · rw [← id_of_bus? hother, hunique.1]
    · have hchildId : below.id = child.id := hid
      rwa [hchildId, hunique.2] at hvisit

/-- The links left out lead to starts. -/
theorem Forest.walkWarnings_eq_nil_iff {topology : Topology}
    (hforest : topology.Forest)
    (hkeys : (topology.buses.map Bus.id).Nodup) :
    topology.walkWarnings = [] ↔ ∀ bus ∈ topology.buses, ∀ device child,
      (device, child) ∈ topology.children bus →
        ⟨child.id, 0, none⟩ ∉ topology.visits := by
  have hlinks := links_perm hkeys
  rw [walkWarnings_eq, List.map_eq_nil_iff]
  constructor
  · intro hnone bus hbus device child hlink hstart
    rw [hnone, List.append_nil] at hlinks
    obtain ⟨visit, hvisit, hfollowed⟩ := List.mem_filterMap.mp
      (hlinks.mem_iff.mp (mem_links_of_mem_children hbus hlink))
    obtain ⟨bridge, hbridge, hpair⟩ := Option.map_eq_some_iff.mp hfollowed
    have hsame := eq_of_mem_visits hvisit hstart (congrArg Prod.snd hpair)
    rw [hsame] at hbridge
    contradiction
  · intro hfollowed
    apply List.eq_nil_iff_forall_not_mem.mpr
    intro link hignored
    have hmem := hlinks.mem_iff.mpr (List.mem_append_right _ hignored)
    obtain ⟨bus, hbus, device, child, hlink, rfl⟩ := mem_links_iff.mp hmem
    obtain ⟨parent, -, -, hvisit⟩ := hforest.followed hbus hlink
      (hfollowed bus hbus device child hlink)
    have htwice := (hlinks.map Prod.snd).nodup_iff.mp hforest.singleLink
    rw [List.map_append, List.nodup_append] at htwice
    have htaken : (device.address, child.id) ∈
        topology.visits.filterMap Visit.link? :=
      List.mem_filterMap.mpr ⟨_, hvisit, rfl⟩
    exact htwice.2.2 _ (List.mem_map_of_mem htaken) _
      (List.mem_map_of_mem hignored) rfl

/-! ## Turns -/

/-- Some bus above this one has its turn as a start before it. -/
def StartsAbove (topology : Topology) (child : Bus) : Prop :=
  ∃ above ∈ topology.buses, TransGen topology.LeadsTo above.id child.id ∧
    (above.isRoot ∨ above.id.rank < child.id.rank)

theorem startsAbove_iff {topology : Topology}
    (hkeys : (topology.buses.map Bus.id).Nodup) {child : Bus}
    (hchild : child ∈ topology.buses) (hroot : ¬child.isRoot) :
    topology.StartsAbove child ↔ ∃ other ∈ topology.buses,
      StartsBefore other child ∧ topology.Reaches other.id child.id := by
  constructor
  · intro ⟨above, habove, hpath, hturn⟩
    refine ⟨above, habove, ?_, hpath.to_reflTransGen⟩
    by_cases haboveRoot : above.isRoot
    · exact Or.inl ⟨haboveRoot, hroot⟩
    · rcases hturn with hturn | hlower
      · exact (haboveRoot hturn).elim
      · rw [Bool.not_eq_true] at haboveRoot hroot
        exact Or.inr ⟨haboveRoot.trans hroot.symm, hlower⟩
  · intro ⟨other, hother, hturn, hreaches⟩
    refine ⟨other, hother, ?_, ?_⟩
    · rcases reflTransGen_iff_eq_or_transGen.mp hreaches with hsame | hpath
      · obtain rfl := List.inj_on_of_nodup_map hkeys hchild hother hsame
        exact (hturn.asymm hturn).elim
      · exact hpath
    · exact hturn.imp And.left And.right

/-- A bus behind a link of a forest is no start exactly when some bus above it
has its turn before it. -/
theorem Forest.start_notMem_iff {topology : Topology}
    (hforest : topology.Forest) (hbuses : Bus.Ascending topology.buses)
    {bus child : Bus} {device : Device} (hbus : bus ∈ topology.buses)
    (hlink : (device, child) ∈ topology.children bus) :
    ⟨child.id, 0, none⟩ ∉ topology.visits ↔ topology.StartsAbove child := by
  have hchild := mem_buses_of_mem_children hlink
  have hroot : ¬child.isRoot := fun hroot =>
    hforest.rootsOnTop child hchild hroot
      (List.mem_map_of_mem (mem_links_of_mem_children hbus hlink))
  rw [mem_visits_start_iff hbuses hchild,
    startsAbove_iff (keys_nodup_of_ascending hbuses) hchild hroot]
  push Not
  rfl

/-- The walk of a forest gives no warning exactly when each bus behind a bridge
has a root or a lower bus above it.  Such a bus is visited through its link, a
level below the bus that the bridge is on. -/
theorem forest_links_followed {records : List DeviceRecord}
    {buses : List BusRecord} {resolver : Names.Resolver}
    {topology : Topology}
    (hbuilt : (ofRecords records buses resolver).outcome = .ok topology)
    (hforest : topology.Forest) :
    (topology.walkWarnings = [] ↔ ∀ bus ∈ topology.buses, ∀ device child,
        (device, child) ∈ topology.children bus →
          topology.StartsAbove child) ∧
      ∀ bus ∈ topology.buses, ∀ device child,
        (device, child) ∈ topology.children bus →
          topology.StartsAbove child →
            ∃ parent ∈ topology.visits, parent.bus = bus.id ∧
              ⟨child.id, parent.depth + 1, some device.address⟩ ∈
                topology.visits := by
  have hbuses := (sorted_and_busMap_of_ofRecords hbuilt).2.ascending
  constructor
  · rw [hforest.walkWarnings_eq_nil_iff (keys_nodup_of_ascending hbuses)]
    constructor
    · intro hnever bus hbus device child hlink
      exact (hforest.start_notMem_iff hbuses hbus hlink).mp
        (hnever bus hbus device child hlink)
    · intro habove bus hbus device child hlink
      exact (hforest.start_notMem_iff hbuses hbus hlink).mpr
        (habove bus hbus device child hlink)
  · intro bus hbus device child hlink habove
    exact hforest.followed hbus hlink
      ((hforest.start_notMem_iff hbuses hbus hlink).mpr habove)

/-- Bus 1 is behind the root bus, and buses 6 and 5 are below bus 4, which no
root leads to. -/
def orphanTree : Topology :=
  { devices := [plainBridge 0 0 1, plainBridge 4 0 6, plainBridge 6 0 5]
    buses := [⟨⟨0, 0⟩, true, [0]⟩, ⟨⟨0, 1⟩, false, []⟩,
      ⟨⟨0, 4⟩, false, [1]⟩, ⟨⟨0, 5⟩, false, []⟩, ⟨⟨0, 6⟩, false, [2]⟩] }

theorem orphanTree_forest : orphanTree.Forest where
  acyclic := acyclic_of_measure
    (fun id => if id.number = 4 then 2
      else if id.number = 0 ∨ id.number = 6 then 1 else 0)
    (by decide +kernel)
  singleLink := by decide +kernel
  rootsOnTop := by decide +kernel

theorem orphanTree_startsAbove (bus : Bus) (hbus : bus ∈ orphanTree.buses)
    (device : Device) (child : Bus)
    (hlink : (device, child) ∈ orphanTree.children bus) :
    orphanTree.StartsAbove child := by
  have hchildren : ∀ bus ∈ orphanTree.buses,
      ∀ link ∈ orphanTree.children bus,
        link.2 = ⟨⟨0, 1⟩, false, []⟩ ∨ link.2 = ⟨⟨0, 6⟩, false, [2]⟩ ∨
          link.2 = ⟨⟨0, 5⟩, false, []⟩ := by decide +kernel
  have hroot : orphanTree.LeadsTo ⟨0, 0⟩ ⟨0, 1⟩ :=
    ⟨⟨⟨0, 0⟩, true, [0]⟩, plainBridge 0 0 1, ⟨⟨0, 1⟩, false, []⟩,
      by decide +kernel, by decide +kernel, rfl⟩
  have htop : orphanTree.LeadsTo ⟨0, 4⟩ ⟨0, 6⟩ :=
    ⟨⟨⟨0, 4⟩, false, [1]⟩, plainBridge 4 0 6, ⟨⟨0, 6⟩, false, [2]⟩,
      by decide +kernel, by decide +kernel, rfl⟩
  have hlow : orphanTree.LeadsTo ⟨0, 6⟩ ⟨0, 5⟩ :=
    ⟨⟨⟨0, 6⟩, false, [2]⟩, plainBridge 6 0 5, ⟨⟨0, 5⟩, false, []⟩,
      by decide +kernel, by decide +kernel, rfl⟩
  have hchild := hchildren bus hbus (device, child) hlink
  simp only at hchild
  rcases hchild with rfl | rfl | rfl
  · exact ⟨⟨⟨0, 0⟩, true, [0]⟩, by decide, .single hroot, by decide⟩
  · exact ⟨⟨⟨0, 4⟩, false, [1]⟩, by decide, .single htop, by decide⟩
  · exact ⟨⟨⟨0, 4⟩, false, [1]⟩, by decide, .tail (.single htop) hlow,
      by decide⟩

/-- Bus 5 is tried before bus 6, from which it is reached. -/
theorem forest_links_followed_orphanTree :
    (ofRecords orphanTree.deviceRecords orphanTree.busRecords
        .empty).outcome = .ok orphanTree ∧
      orphanTree.Forest ∧
      orphanTree.walkWarnings = [] ∧
      ∃ parent ∈ orphanTree.visits, parent.bus = ⟨0, 6⟩ ∧
        ⟨⟨0, 5⟩, parent.depth + 1, some ⟨0, 6, 0, 0⟩⟩ ∈
          orphanTree.visits := by
  have hbuilt : (ofRecords orphanTree.deviceRecords orphanTree.busRecords
        .empty).outcome = .ok orphanTree :=
    outcome_ofRecords_of_sorted (by decide +kernel) (by decide +kernel)
      (by decide +kernel)
  obtain ⟨hsilent, hfollowed⟩ :=
    forest_links_followed hbuilt orphanTree_forest
  have hlow : (plainBridge 6 0 5, (⟨⟨0, 5⟩, false, []⟩ : Bus)) ∈
      orphanTree.children ⟨⟨0, 6⟩, false, [2]⟩ := by decide +kernel
  have hbus : ⟨⟨0, 6⟩, false, [2]⟩ ∈ orphanTree.buses := by decide
  exact ⟨hbuilt, orphanTree_forest, hsilent.mpr orphanTree_startsAbove,
    hfollowed _ hbus _ _ hlow
      (orphanTree_startsAbove _ hbus _ _ hlow)⟩

/-- Bus 1 is behind bus 2, and no root leads to them. -/
def lowerChild : Topology :=
  { devices := [plainBridge 2 0 1]
    buses := [⟨⟨0, 1⟩, false, []⟩, ⟨⟨0, 2⟩, false, [0]⟩] }

/-- A forest whose only link is left out: bus 1 starts a walk before bus 2. -/
theorem walk_warns_lowerChild :
    (ofRecords lowerChild.deviceRecords lowerChild.busRecords
        .empty).outcome = .ok lowerChild ∧
      lowerChild.Forest ∧
      lowerChild.visits = [⟨⟨0, 1⟩, 0, none⟩, ⟨⟨0, 2⟩, 0, none⟩] ∧
      lowerChild.walkWarnings =
        [.ignoredLink ⟨0, 1⟩ (some ⟨0, 2, 0, 0⟩)] := by
  have hforest : lowerChild.Forest :=
    { acyclic := acyclic_of_measure (fun id => id.number.toNat)
        (by decide +kernel)
      singleLink := by decide +kernel
      rootsOnTop := by decide +kernel }
  have hstarts : lowerChild.starts =
      [⟨⟨0, 1⟩, false, []⟩, ⟨⟨0, 2⟩, false, [0]⟩] := by decide +kernel
  have hbelowFirst : lowerChild.linksBelow ⟨⟨0, 1⟩, 0, none⟩ = [] := by
    decide +kernel
  have hbelowSecond : lowerChild.linksBelow ⟨⟨0, 2⟩, 0, none⟩ =
      [⟨⟨0, 1⟩, 1, some ⟨0, 2, 0, 0⟩⟩] := by decide +kernel
  have hwalk : lowerChild.walk =
      [.enter ⟨⟨0, 1⟩, 0, none⟩, .enter ⟨⟨0, 2⟩, 0, none⟩,
        .ignore ⟨⟨0, 1⟩, 1, some ⟨0, 2, 0, 0⟩⟩] := by
    unfold walk
    rw [hstarts]
    simp [walkStarts, walkFrom_fresh, walkFrom_seen, hbelowFirst,
      hbelowSecond]
  refine ⟨?_, hforest, ?_, ?_⟩
  · exact outcome_ofRecords_of_sorted (by decide +kernel) (by decide +kernel)
      (by decide +kernel)
  · rw [visits, hwalk]
    rfl
  · rw [walkWarnings, hwalk]
    rfl

end Topology

end PciInventory
