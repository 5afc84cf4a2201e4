import PciInventory.Proofs.Topology.Buses
import PciInventory.Topology.Walk

/-!
# Invariants of the bus walk

A step of the walk takes the first pending link: it is left out if it leads to
a visited bus, else its bus is visited and the links on that bus become
pending.  Every property of a walk is carried through these two steps by one
induction principle.  What is pending, what was visited and what was left out
are tied together by an account of the links: nothing is taken up that is not
visited or left out in the end.
-/

namespace PciInventory

/-- The bus visited or the link left out in a step. -/
def WalkStep.visit : WalkStep → Visit
  | .enter visit => visit
  | .ignore visit => visit

def WalkStep.ignored? : WalkStep → Option Visit
  | .enter _ => none
  | .ignore visit => some visit

namespace Visit

def link? (visit : Visit) : Option (Address × BusId) :=
  visit.bridge.map fun bridge => (bridge, visit.bus)

theorem filterMap_link?_cons (visit : Visit) (rest : List Visit) :
    (visit :: rest).filterMap link? =
      visit.link?.toList ++ rest.filterMap link? := by
  cases hlink : visit.link? <;> simp [hlink]

end Visit

def entered (steps : List WalkStep) : List Visit :=
  steps.filterMap WalkStep.visit?

def ignored (steps : List WalkStep) : List Visit :=
  steps.filterMap WalkStep.ignored?

@[simp] theorem entered_nil : entered [] = [] := rfl

@[simp] theorem entered_cons_enter (visit : Visit)
    (steps : List WalkStep) :
    entered (.enter visit :: steps) = visit :: entered steps := rfl

@[simp] theorem entered_cons_ignore (visit : Visit)
    (steps : List WalkStep) :
    entered (.ignore visit :: steps) = entered steps := rfl

@[simp] theorem entered_append (first second : List WalkStep) :
    entered (first ++ second) = entered first ++ entered second :=
  List.filterMap_append

@[simp] theorem ignored_nil : ignored [] = [] := rfl

@[simp] theorem ignored_cons_enter (visit : Visit)
    (steps : List WalkStep) :
    ignored (.enter visit :: steps) = ignored steps := rfl

@[simp] theorem ignored_cons_ignore (visit : Visit)
    (steps : List WalkStep) :
    ignored (.ignore visit :: steps) = visit :: ignored steps := rfl

@[simp] theorem ignored_append (first second : List WalkStep) :
    ignored (first ++ second) = ignored first ++ ignored second :=
  List.filterMap_append

theorem mem_ignored_iff {visit : Visit} {steps : List WalkStep} :
    visit ∈ ignored steps ↔ .ignore visit ∈ steps := by
  unfold ignored
  rw [List.mem_filterMap]
  constructor
  · intro hvisit
    rcases hvisit with ⟨step, hstep, hignored⟩
    cases step with
    | enter other => contradiction
    | ignore other =>
        cases hignored
        exact hstep
  · intro hstep
    exact ⟨.ignore visit, hstep, rfl⟩

/-- Each step visits a bus or leaves a link out. -/
theorem map_visit_perm (steps : List WalkStep) :
    (steps.map WalkStep.visit).Perm (entered steps ++ ignored steps) := by
  induction steps with
  | nil => exact List.Perm.refl []
  | cons step rest ih =>
      cases step with
      | enter visit => exact ih.cons visit
      | ignore visit =>
          exact (ih.cons visit).trans List.perm_middle.symm

namespace Topology

/-- The links that become pending when a bus is visited. -/
def linksBelow (topology : Topology) (visit : Visit) : List Visit :=
  match topology.bus? visit.bus with
  | none => []
  | some bus => topology.linksFrom visit bus

@[simp] theorem walkFrom_nil (topology : Topology)
    (visited : List BusId) :
    topology.walkFrom visited [] = ([], visited) := by
  rw [walkFrom]

theorem walkFrom_seen {topology : Topology} {visited : List BusId}
    {visit : Visit} (hseen : visit.bus ∈ visited) (stack : List Visit) :
    topology.walkFrom visited (visit :: stack) =
      (.ignore visit :: (topology.walkFrom visited stack).1,
        (topology.walkFrom visited stack).2) := by
  rw [walkFrom, dif_pos hseen]

theorem walkFrom_fresh {topology : Topology} {visited : List BusId}
    {visit : Visit} (hfresh : visit.bus ∉ visited)
    (stack : List Visit) :
    topology.walkFrom visited (visit :: stack) =
      (.enter visit ::
          (topology.walkFrom (visit.bus :: visited)
            (topology.linksBelow visit ++ stack)).1,
        (topology.walkFrom (visit.bus :: visited)
          (topology.linksBelow visit ++ stack)).2) := by
  rw [walkFrom, dif_neg hfresh]
  unfold linksBelow
  split
  next hnone =>
    rw [hnone]
    rfl
  next bus hsome => rw [hsome]

/-- What holds of an empty stack and is carried through both kinds of step
holds of every walk. -/
@[elab_as_elim]
theorem walkFrom_induction (topology : Topology)
    {motive : List BusId → List Visit → Prop}
    (nil : ∀ visited, motive visited [])
    (seen : ∀ visited visit stack, visit.bus ∈ visited →
      motive visited stack → motive visited (visit :: stack))
    (fresh : ∀ visited visit stack, visit.bus ∉ visited →
      motive (visit.bus :: visited) (topology.linksBelow visit ++ stack) →
      motive visited (visit :: stack))
    (visited : List BusId) (stack : List Visit) :
    motive visited stack := by
  induction visited, stack using walkFrom.induct topology with
  | case1 visited => exact nil visited
  | case2 visited visit stack hseen ih =>
      exact seen visited visit stack hseen ih
  | case3 visited visit stack hfresh hnone ih =>
      apply fresh visited visit stack hfresh
      unfold linksBelow
      rw [hnone]
      exact ih
  | case4 visited visit stack hfresh bus hsome ih =>
      apply fresh visited visit stack hfresh
      unfold linksBelow
      rw [hsome]
      exact ih

/-! ## Buses visited once -/

theorem mem_walkFrom_visited_iff (topology : Topology)
    (visited : List BusId) (stack : List Visit) (id : BusId) :
    id ∈ (topology.walkFrom visited stack).2 ↔
      id ∈ visited ∨
        id ∈ (entered (topology.walkFrom visited stack).1).map
          Visit.bus := by
  induction visited, stack using topology.walkFrom_induction with
  | nil visited => simp
  | seen visited visit stack hseen ih =>
      rw [walkFrom_seen hseen]
      exact ih
  | fresh visited visit stack hfresh ih =>
      rw [walkFrom_fresh hfresh]
      simp only [entered_cons_enter, List.map_cons, List.mem_cons]
      rw [ih, List.mem_cons]
      constructor
      · intro hid
        rcases hid with (hvisit | hvisited) | hlater
        · exact Or.inr (Or.inl hvisit)
        · exact Or.inl hvisited
        · exact Or.inr (Or.inr hlater)
      · intro hid
        rcases hid with hvisited | hvisit | hlater
        · exact Or.inl (Or.inr hvisited)
        · exact Or.inl (Or.inl hvisit)
        · exact Or.inr hlater

theorem walkFrom_fresh_nodup (topology : Topology)
    (visited : List BusId) (stack : List Visit) :
    ((entered (topology.walkFrom visited stack).1).map Visit.bus).Nodup ∧
      ∀ id ∈ (entered (topology.walkFrom visited stack).1).map Visit.bus,
        id ∉ visited := by
  induction visited, stack using topology.walkFrom_induction with
  | nil visited => simp
  | seen visited visit stack hseen ih =>
      rw [walkFrom_seen hseen]
      exact ih
  | fresh visited visit stack hfresh ih =>
      obtain ⟨hnodup, hnew⟩ := ih
      rw [walkFrom_fresh hfresh]
      simp only [entered_cons_enter, List.map_cons]
      constructor
      · rw [List.nodup_cons]
        refine ⟨?_, hnodup⟩
        intro hagain
        exact hnew visit.bus hagain List.mem_cons_self
      · intro id hid
        rcases List.mem_cons.mp hid with rfl | hlater
        · exact hfresh
        · intro hvisited
          exact hnew id hlater (List.mem_cons_of_mem visit.bus hvisited)

theorem walkFrom_reaches_stack (topology : Topology)
    (visited : List BusId) (stack : List Visit) :
    ∀ visit ∈ stack,
      visit.bus ∈ (topology.walkFrom visited stack).2 := by
  induction visited, stack using topology.walkFrom_induction with
  | nil visited => simp
  | seen visited visit stack hseen ih =>
      rw [walkFrom_seen hseen]
      intro other hother
      rcases List.mem_cons.mp hother with rfl | hother
      · exact (topology.mem_walkFrom_visited_iff visited stack _).mpr
          (Or.inl hseen)
      · exact ih other hother
  | fresh visited visit stack hfresh ih =>
      rw [walkFrom_fresh hfresh]
      intro other hother
      rcases List.mem_cons.mp hother with rfl | hother
      · exact (topology.mem_walkFrom_visited_iff _ _ _).mpr
          (Or.inl List.mem_cons_self)
      · exact ih other (List.mem_append_right _ hother)

/-- A property of the pending links that visiting a bus hands on to the links
on it holds of every step. -/
theorem walkFrom_forall (topology : Topology) {holds : Visit → Prop}
    (hbelow : ∀ parent, ∀ visit ∈ topology.linksBelow parent, holds visit)
    (visited : List BusId) (stack : List Visit)
    (hstack : ∀ visit ∈ stack, holds visit) :
    ∀ step ∈ (topology.walkFrom visited stack).1, holds step.visit := by
  induction visited, stack using topology.walkFrom_induction with
  | nil visited => simp
  | seen visited visit stack hseen ih =>
      rw [walkFrom_seen hseen]
      obtain ⟨hvisit, hrest⟩ := List.forall_mem_cons.mp hstack
      exact List.forall_mem_cons.mpr ⟨hvisit, ih hrest⟩
  | fresh visited visit stack hfresh ih =>
      rw [walkFrom_fresh hfresh]
      obtain ⟨hvisit, hrest⟩ := List.forall_mem_cons.mp hstack
      refine List.forall_mem_cons.mpr ⟨hvisit, ih ?_⟩
      exact List.forall_mem_append.mpr ⟨hbelow visit, hrest⟩

/-! ## The account of the links -/

/-- The links on a bus, each with the address of its bridge. -/
def linksOn (topology : Topology) (bus : Bus) : List (Address × BusId) :=
  (topology.children bus).map fun (device, child) =>
    (device.address, child.id)

def links (topology : Topology) : List (Address × BusId) :=
  topology.buses.flatMap topology.linksOn

/-- The links on the bus with this key, if there is one. -/
def linksAt (topology : Topology) (id : BusId) :
    List (Address × BusId) :=
  match topology.bus? id with
  | none => []
  | some bus => topology.linksOn bus

theorem filterMap_linksBelow (topology : Topology) (visit : Visit) :
    (topology.linksBelow visit).filterMap Visit.link? =
      topology.linksAt visit.bus := by
  unfold linksBelow linksAt
  cases topology.bus? visit.bus with
  | none => rfl
  | some bus =>
      simp only [linksFrom, linksOn, List.filterMap_map]
      rw [← List.filterMap_eq_map]
      rfl

/-- The links followed or left out are those that were pending and those on the
buses visited. -/
theorem walkFrom_links_perm (topology : Topology)
    (visited : List BusId) (stack : List Visit) :
    (((topology.walkFrom visited stack).1.map
        WalkStep.visit).filterMap Visit.link?).Perm
      (stack.filterMap Visit.link? ++
        (entered (topology.walkFrom visited stack).1).flatMap
          fun visit => topology.linksAt visit.bus) := by
  induction visited, stack using topology.walkFrom_induction with
  | nil visited => simp
  | seen visited visit stack hseen ih =>
      rw [walkFrom_seen hseen]
      simp only [List.map_cons, WalkStep.visit, entered_cons_ignore,
        Visit.filterMap_link?_cons, List.append_assoc]
      exact ih.append_left visit.link?.toList
  | fresh visited visit stack hfresh ih =>
      rw [walkFrom_fresh hfresh]
      simp only [List.map_cons, WalkStep.visit, entered_cons_enter,
        List.flatMap_cons, Visit.filterMap_link?_cons, List.append_assoc]
      rw [List.filterMap_append, filterMap_linksBelow,
        List.append_assoc] at ih
      apply List.Perm.append_left
      exact ih.trans (List.perm_append_comm_assoc _ _ _)

/-! ## Where visits come from -/

/-- The visit starts at a bus of the map, or it follows a link on a bus visited
before. -/
def Supported (topology : Topology) (earlier : List Visit)
    (visit : Visit) : Prop :=
  (∃ start ∈ topology.buses, visit = ⟨start.id, 0, none⟩) ∨
    ∃ parent ∈ earlier, visit ∈ topology.linksBelow parent

/-- Each visit is supported by those before it. -/
def SupportedAfter (topology : Topology) :
    (earlier visits : List Visit) → Prop
  | _, [] => True
  | earlier, visit :: rest =>
      topology.Supported earlier visit ∧
        topology.SupportedAfter (earlier ++ [visit]) rest

theorem Supported.mono {topology : Topology}
    {earlier more : List Visit} {visit : Visit}
    (hsupported : topology.Supported earlier visit)
    (hmore : ∀ other ∈ earlier, other ∈ more) :
    topology.Supported more visit := by
  rcases hsupported with hstart | ⟨parent, hparent, hlink⟩
  · exact Or.inl hstart
  · exact Or.inr ⟨parent, hmore parent hparent, hlink⟩

theorem SupportedAfter.append {topology : Topology}
    {earlier first second : List Visit}
    (hfirst : topology.SupportedAfter earlier first)
    (hsecond : topology.SupportedAfter (earlier ++ first) second) :
    topology.SupportedAfter earlier (first ++ second) := by
  induction first generalizing earlier with
  | nil => simpa using hsecond
  | cons visit rest ih =>
      obtain ⟨hvisit, hrest⟩ := hfirst
      refine ⟨hvisit, ih hrest ?_⟩
      rw [List.append_assoc]
      exact hsecond

theorem SupportedAfter.supported {topology : Topology}
    {earlier visits before after : List Visit} {visit : Visit}
    (hvisits : topology.SupportedAfter earlier visits)
    (hsplit : visits = before ++ visit :: after) :
    topology.Supported (earlier ++ before) visit := by
  subst visits
  induction before generalizing earlier with
  | nil => simpa using hvisits.1
  | cons other before ih =>
      have hrest := ih hvisits.2
      rw [List.append_assoc] at hrest
      exact hrest

theorem walkFrom_supported (topology : Topology) (visited : List BusId)
    (stack earlier : List Visit)
    (hstack : ∀ visit ∈ stack, topology.Supported earlier visit) :
    topology.SupportedAfter earlier
      (entered (topology.walkFrom visited stack).1) := by
  induction visited, stack using topology.walkFrom_induction
    generalizing earlier with
  | nil visited =>
      rw [walkFrom_nil]
      trivial
  | seen visited visit stack hseen ih =>
      rw [walkFrom_seen hseen]
      exact ih earlier (List.forall_mem_cons.mp hstack).2
  | fresh visited visit stack hfresh ih =>
      rw [walkFrom_fresh hfresh]
      obtain ⟨hvisit, hrest⟩ := List.forall_mem_cons.mp hstack
      refine ⟨hvisit, ih (earlier ++ [visit]) ?_⟩
      intro next hnext
      rcases List.mem_append.mp hnext with hbelow | hother
      · exact Or.inr ⟨visit, by simp, hbelow⟩
      · exact (hrest next hother).mono fun _ hmem =>
          List.mem_append_left _ hmem

end Topology

end PciInventory
