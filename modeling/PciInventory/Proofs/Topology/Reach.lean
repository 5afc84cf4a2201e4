import Mathlib.Data.List.Nodup
import Mathlib.Logic.Relation
import PciInventory.Proofs.Topology.Coverage

/-!
# What a walk reaches

Every bus that is visited has its links taken up, so once nothing is pending
the visited buses are closed under links: they are the buses that can be
reached from the starts.  A bus starts a walk of its own exactly when no bus
that has its turn before it leads to it.
-/

namespace PciInventory

namespace Topology

open Relation

/-- A bridge on the bus `parent` leads to the bus `child`. -/
def LeadsTo (topology : Topology) (parent child : BusId) : Prop :=
  ∃ bus device below, topology.bus? parent = some bus ∧
    (device, below) ∈ topology.children bus ∧ below.id = child

/-- One can get from the one bus to the other along links. -/
abbrev Reaches (topology : Topology) : BusId → BusId → Prop :=
  ReflTransGen topology.LeadsTo

theorem leadsTo_iff {topology : Topology} {visit : Visit} {child : BusId} :
    topology.LeadsTo visit.bus child ↔
      child ∈ (topology.linksBelow visit).map Visit.bus := by
  rw [List.mem_map]
  constructor
  · intro ⟨bus, device, below, hbus, hlink, hchild⟩
    refine ⟨⟨below.id, visit.depth + 1, some device.address⟩, ?_, hchild⟩
    exact mem_linksBelow_iff.mpr ⟨bus, hbus, device, below, hlink, rfl⟩
  · intro ⟨next, hnext, hchild⟩
    obtain ⟨bus, hbus, device, below, hlink, rfl⟩ :=
      mem_linksBelow_iff.mp hnext
    exact ⟨bus, device, below, hbus, hlink, hchild⟩

/-! ## Closed sets of buses -/

/-- No link leads out of these buses. -/
def Closed (topology : Topology) (ids : List BusId) : Prop :=
  ∀ parent ∈ ids, ∀ child, topology.LeadsTo parent child → child ∈ ids

theorem Closed.mem_of_reaches {topology : Topology} {ids : List BusId}
    {first last : BusId} (hclosed : topology.Closed ids)
    (hfirst : first ∈ ids) (hreaches : topology.Reaches first last) :
    last ∈ ids := by
  induction hreaches with
  | refl => exact hfirst
  | tail _ hlink ih => exact hclosed _ ih _ hlink

/-- Links out of the visited buses that are all pending lead to visited buses
in the end. -/
theorem walkFrom_closed (topology : Topology) (visited : List BusId)
    (stack : List Visit)
    (hpending : ∀ parent ∈ visited, ∀ child,
      topology.LeadsTo parent child →
        child ∈ visited ∨ child ∈ stack.map Visit.bus) :
    topology.Closed (topology.walkFrom visited stack).2 := by
  induction visited, stack using topology.walkFrom_induction with
  | nil visited =>
      rw [walkFrom_nil]
      intro parent hparent child hlink
      simpa using hpending parent hparent child hlink
  | seen visited visit stack hseen ih =>
      rw [walkFrom_seen hseen]
      apply ih
      intro parent hparent child hlink
      rcases hpending parent hparent child hlink with hvisited | hwaiting
      · exact Or.inl hvisited
      · rw [List.map_cons, List.mem_cons] at hwaiting
        rcases hwaiting with rfl | hwaiting
        · exact Or.inl hseen
        · exact Or.inr hwaiting
  | fresh visited visit stack hfresh ih =>
      rw [walkFrom_fresh hfresh]
      apply ih
      intro parent hparent child hlink
      rw [List.map_append, List.mem_append, List.mem_cons]
      rcases List.mem_cons.mp hparent with rfl | hparent
      · exact Or.inr (Or.inl (leadsTo_iff.mp hlink))
      · rcases hpending parent hparent child hlink with hvisited | hwaiting
        · exact Or.inl (Or.inr hvisited)
        · rw [List.map_cons, List.mem_cons] at hwaiting
          rcases hwaiting with rfl | hwaiting
          · exact Or.inl (Or.inl rfl)
          · exact Or.inr (Or.inr hwaiting)

theorem walkFrom_reachable (topology : Topology) (visited : List BusId)
    (stack : List Visit) :
    ∀ id ∈ (topology.walkFrom visited stack).2,
      id ∈ visited ∨ ∃ visit ∈ stack, topology.Reaches visit.bus id := by
  induction visited, stack using topology.walkFrom_induction with
  | nil visited =>
      rw [walkFrom_nil]
      exact fun id hid => Or.inl hid
  | seen visited visit stack hseen ih =>
      rw [walkFrom_seen hseen]
      intro id hid
      rcases ih id hid with hvisited | ⟨other, hother, hreaches⟩
      · exact Or.inl hvisited
      · exact Or.inr ⟨other, List.mem_cons_of_mem _ hother, hreaches⟩
  | fresh visited visit stack hfresh ih =>
      rw [walkFrom_fresh hfresh]
      intro id hid
      rcases ih id hid with hvisited | ⟨other, hother, hreaches⟩
      · rcases List.mem_cons.mp hvisited with rfl | hvisited
        · exact Or.inr ⟨visit, List.mem_cons_self, ReflTransGen.refl⟩
        · exact Or.inl hvisited
      · rcases List.mem_append.mp hother with hbelow | hother
        · have hlink : topology.LeadsTo visit.bus other.bus :=
            leadsTo_iff.mpr (List.mem_map_of_mem hbelow)
          exact Or.inr ⟨visit, List.mem_cons_self,
            ReflTransGen.head hlink hreaches⟩
        · exact Or.inr ⟨other, List.mem_cons_of_mem _ hother, hreaches⟩

section Start

variable {topology : Topology} {visited : List BusId}

theorem Closed.walkFrom_start (hclosed : topology.Closed visited)
    (id : BusId) :
    topology.Closed (topology.walkFrom visited [⟨id, 0, none⟩]).2 :=
  topology.walkFrom_closed visited _ fun parent hparent child hlink =>
    Or.inl (hclosed parent hparent child hlink)

/-- The walk from one start adds the buses that can be reached from it. -/
theorem Closed.mem_walkFrom_start_iff (hclosed : topology.Closed visited)
    (start id : BusId) :
    id ∈ (topology.walkFrom visited [⟨start, 0, none⟩]).2 ↔
      id ∈ visited ∨ topology.Reaches start id := by
  constructor
  · intro hid
    rcases topology.walkFrom_reachable visited _ id hid with
      hvisited | ⟨visit, hvisit, hreaches⟩
    · exact Or.inl hvisited
    · rw [List.mem_singleton] at hvisit
      subst visit
      exact Or.inr hreaches
  · intro hid
    rcases hid with hvisited | hreaches
    · exact (topology.mem_walkFrom_visited_iff _ _ _).mpr
        (Or.inl hvisited)
    · have hstart := topology.walkFrom_reaches_stack visited
        [⟨start, 0, none⟩] _ List.mem_cons_self
      exact (hclosed.walkFrom_start start).mem_of_reaches hstart hreaches

end Start

/-! ## The starts -/

theorem bridge_ne_none_of_linksBelow {topology : Topology}
    {parent visit : Visit} (hbelow : visit ∈ topology.linksBelow parent) :
    visit.bridge ≠ none := by
  obtain ⟨_, _, _, _, _, rfl⟩ := mem_linksBelow_iff.mp hbelow
  exact Option.some_ne_none _

/-- Only the start itself is visited without a bridge. -/
theorem mem_walkFrom_start_iff_of_bridge {topology : Topology}
    {visited : List BusId} {start : BusId} (hfresh : start ∉ visited)
    {visit : Visit} (hbridge : visit.bridge = none) :
    visit ∈ entered (topology.walkFrom visited [⟨start, 0, none⟩]).1 ↔
      visit = ⟨start, 0, none⟩ := by
  have hbelow : ∀ parent, ∀ other ∈ topology.linksBelow parent,
      other.bridge ≠ none :=
    fun parent other hother => bridge_ne_none_of_linksBelow hother
  have hlater := topology.walkFrom_forall hbelow (start :: visited)
    (topology.linksBelow ⟨start, 0, none⟩) (hbelow _)
  rw [walkFrom_fresh hfresh, List.append_nil, entered_cons_enter,
    List.mem_cons]
  constructor
  · intro hvisit
    rcases hvisit with hstart | hentered
    · exact hstart
    · obtain ⟨step, hstep, hvisit⟩ := List.mem_filterMap.mp hentered
      cases step with
      | enter other =>
          obtain rfl := Option.some.inj hvisit
          exact (hlater _ hstep hbridge).elim
      | ignore other => contradiction
  · exact Or.inl

/-- A visit without a bridge is made to a start that is not reached from any
start before it. -/
theorem mem_walkStarts_iff_of_bridge {topology : Topology}
    {visited : List BusId} (hclosed : topology.Closed visited)
    {starts : List Bus} {visit : Visit} (hbridge : visit.bridge = none) :
    visit ∈ entered (topology.walkStarts visited starts) ↔
      ∃ before start after, starts = before ++ start :: after ∧
        visit = ⟨start.id, 0, none⟩ ∧ start.id ∉ visited ∧
          ∀ other ∈ before, ¬topology.Reaches other.id start.id := by
  induction starts generalizing visited with
  | nil => simp [walkStarts]
  | cons first rest ih =>
      by_cases hseen : first.id ∈ visited
      · rw [walkStarts_seen hseen, ih hclosed]
        constructor
        · rintro ⟨before, start, after, hrest, hvisit, hnew, hunreached⟩
          refine ⟨first :: before, start, after, by rw [hrest]; rfl, hvisit,
            hnew, List.forall_mem_cons.mpr ⟨?_, hunreached⟩⟩
          exact fun hreaches => hnew (hclosed.mem_of_reaches hseen hreaches)
        · rintro ⟨before, start, after, hsplit, hvisit, hnew, hunreached⟩
          cases before with
          | nil =>
              obtain ⟨rfl, -⟩ := List.cons.inj hsplit
              exact (hnew hseen).elim
          | cons other before =>
              obtain ⟨-, hrest⟩ := List.cons.inj hsplit
              exact ⟨before, start, after, hrest, hvisit, hnew,
                (List.forall_mem_cons.mp hunreached).2⟩
      · rw [walkStarts_fresh hseen, entered_append, List.mem_append,
          mem_walkFrom_start_iff_of_bridge hseen hbridge,
          ih (hclosed.walkFrom_start first.id)]
        simp only [hclosed.mem_walkFrom_start_iff, not_or]
        constructor
        · intro hvisit
          rcases hvisit with hfirst |
            ⟨before, start, after, hrest, hvisit, hnew, hunreached⟩
          · exact ⟨[], first, rest, rfl, hfirst, hseen, by simp⟩
          · exact ⟨first :: before, start, after, by rw [hrest]; rfl,
              hvisit, hnew.1,
              List.forall_mem_cons.mpr ⟨hnew.2, hunreached⟩⟩
        · rintro ⟨before, start, after, hsplit, hvisit, hnew, hunreached⟩
          cases before with
          | nil =>
              obtain ⟨rfl, -⟩ := List.cons.inj hsplit
              exact Or.inl hvisit
          | cons other before =>
              obtain ⟨rfl, hrest⟩ := List.cons.inj hsplit
              obtain ⟨hfirst, hothers⟩ := List.forall_mem_cons.mp hunreached
              exact Or.inr ⟨before, start, after, hrest, hvisit,
                ⟨hnew, hfirst⟩, hothers⟩

/-- The one bus has its turn as a start before the other. -/
def StartsBefore (first second : Bus) : Prop :=
  first.isRoot ∧ ¬second.isRoot ∨
    first.isRoot = second.isRoot ∧ first.id.rank < second.id.rank

theorem StartsBefore.asymm {first second : Bus}
    (hbefore : StartsBefore first second) : ¬StartsBefore second first := by
  intro hafter
  rcases hbefore with ⟨hroot, hother⟩ | ⟨hsame, hlt⟩ <;>
    rcases hafter with ⟨hroot', hother'⟩ | ⟨hsame', hlt'⟩
  · exact hother hroot'
  · exact hother (hsame' ▸ hroot)
  · exact hother' (hsame ▸ hroot')
  · omega

theorem starts_pairwise {topology : Topology}
    (hbuses : Bus.Ascending topology.buses) :
    topology.starts.Pairwise StartsBefore := by
  unfold starts roots
  rw [List.pairwise_append]
  refine ⟨?_, ?_, ?_⟩
  · refine (hbuses.sublist List.filter_sublist).imp_of_mem ?_
    intro first second hfirst hsecond hlt
    have hroot := (List.mem_filter.mp hfirst).2
    have hother := (List.mem_filter.mp hsecond).2
    exact Or.inr ⟨hroot.trans hother.symm, hlt⟩
  · refine (hbuses.sublist List.filter_sublist).imp_of_mem ?_
    intro first second hfirst hsecond hlt
    have hroot := (List.mem_filter.mp hfirst).2
    have hother := (List.mem_filter.mp hsecond).2
    rw [Bool.not_eq_true'] at hroot hother
    exact Or.inr ⟨hroot.trans hother.symm, hlt⟩
  · intro first hfirst second hsecond
    have hroot := (List.mem_filter.mp hfirst).2
    have hother := (List.mem_filter.mp hsecond).2
    exact Or.inl ⟨hroot, by simpa using hother⟩

theorem mem_before_of_startsBefore {before after : List Bus}
    {start other : Bus}
    (hpairwise : (before ++ start :: after).Pairwise StartsBefore)
    (hother : other ∈ before ++ start :: after)
    (hturn : StartsBefore other start) : other ∈ before := by
  rcases List.mem_append.mp hother with hbefore | hrest
  · exact hbefore
  · rcases List.mem_cons.mp hrest with rfl | hafter
    · exact (hturn.asymm hturn).elim
    · have hlater := (List.pairwise_append.mp hpairwise).2.1
      exact (hturn.asymm
        ((List.pairwise_cons.mp hlater).1 other hafter)).elim

/-- A bus of the map starts a walk of its own exactly when no bus that has its
turn before it leads to it. -/
theorem mem_visits_start_iff {topology : Topology}
    (hbuses : Bus.Ascending topology.buses) {start : Bus}
    (hstart : start ∈ topology.buses) :
    ⟨start.id, 0, none⟩ ∈ topology.visits ↔
      ∀ other ∈ topology.buses, StartsBefore other start →
        ¬topology.Reaches other.id start.id := by
  have hpairwise := starts_pairwise hbuses
  have hempty : topology.Closed [] := fun parent hparent =>
    (List.not_mem_nil hparent).elim
  have hbridge : (⟨start.id, 0, none⟩ : Visit).bridge = none := rfl
  unfold visits walk
  rw [← entered, mem_walkStarts_iff_of_bridge hempty hbridge]
  constructor
  · intro ⟨before, same, after, hsplit, hvisit, _, hunreached⟩
    have hsame : same ∈ topology.starts := by
      rw [hsplit]
      exact List.mem_append_right _ List.mem_cons_self
    have hid : start.id = same.id := congrArg Visit.bus hvisit
    obtain rfl := List.inj_on_of_nodup_map (keys_nodup_of_ascending hbuses)
      hstart (mem_starts_iff.mp hsame) hid
    intro other hother hturn
    apply hunreached
    rw [← mem_starts_iff, hsplit] at hother
    rw [hsplit] at hpairwise
    exact mem_before_of_startsBefore hpairwise hother hturn
  · intro hunreached
    obtain ⟨before, after, hsplit⟩ :=
      List.append_of_mem (mem_starts_iff.mpr hstart)
    refine ⟨before, start, after, hsplit, rfl, List.not_mem_nil, ?_⟩
    intro other hother
    have hmem : other ∈ topology.starts := by
      rw [hsplit]
      exact List.mem_append_left _ hother
    apply hunreached other (mem_starts_iff.mp hmem)
    rw [hsplit, List.pairwise_append] at hpairwise
    exact hpairwise.2.2 other hother start List.mem_cons_self

end Topology

end PciInventory
