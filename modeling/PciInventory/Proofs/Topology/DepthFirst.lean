import PciInventory.Proofs.Topology.Coverage

/-!
# The bus walk as a recursive search

The search below says what the walk is without a stack: to enter a bus is to
mark it, to show it, and to go through its links in order, where a link is
tested against the marks only when its turn comes.  The walk makes all links of
a bus pending before the first of them is explored.  A simulation joins the
two: walking pending links, with more work below them, gives what searching
those links gives, followed by the walk of that work from the marks the search
left.
-/

namespace PciInventory

def warned (steps : List WalkStep) : List Warning :=
  steps.filterMap WalkStep.warning?

@[simp] theorem warned_nil : warned [] = [] := rfl

@[simp] theorem warned_cons_enter (visit : Visit)
    (steps : List WalkStep) :
    warned (.enter visit :: steps) = warned steps := rfl

@[simp] theorem warned_cons_ignore (visit : Visit)
    (steps : List WalkStep) :
    warned (.ignore visit :: steps) = visit.warning :: warned steps := rfl

@[simp] theorem warned_append (first second : List WalkStep) :
    warned (first ++ second) = warned first ++ warned second :=
  List.filterMap_append

namespace Topology

/-! ## The recursive search -/

/-- What a search that began with the marks `before` has shown at its end.
Marks are never taken back. -/
structure Search (topology : Topology) (before : List BusId) where
  visits : List Visit
  warnings : List Warning
  marked : List BusId
  unvisited_le : topology.unvisited marked ≤ topology.unvisited before

/-- The children of the bus with this key. -/
def childrenAt (topology : Topology) (id : BusId) : List (Device × Bus) :=
  match topology.bus? id with
  | none => []
  | some bus => topology.children bus

def linkVisit (depth : Nat) (bridge : Device) (child : Bus) : Visit :=
  ⟨child.id, depth, some bridge.address⟩

mutual

/-- Marks and shows a bus that is not marked and goes through its links. -/
def enter (topology : Topology) (marked : List BusId) (visit : Visit)
    (_hnew : visit.bus ∉ marked) : topology.Search marked :=
  let below := topology.goThrough (visit.bus :: marked) (visit.depth + 1)
    (topology.childrenAt visit.bus)
  { visits := visit :: below.visits
    warnings := below.warnings
    marked := below.marked
    unvisited_le := Nat.le_trans below.unvisited_le
      (topology.unvisited_cons_le marked visit.bus) }
termination_by (topology.unvisited marked, 1)
decreasing_by
  -- Marking a key that has no bus makes nothing smaller, but then there are no
  -- links to go through.
  cases hbus : topology.bus? visit.bus with
  | none =>
      apply Prod.Lex.right'
      · exact topology.unvisited_cons_le marked visit.bus
      · simp [childrenAt, hbus]
  | some bus =>
      apply Prod.Lex.left
      exact unvisited_cons_lt hbus _hnew

/-- Goes through links in order: the child is entered, or a warning is given if
it is marked by then. -/
def goThrough (topology : Topology) (marked : List BusId) (depth : Nat) :
    List (Device × Bus) → topology.Search marked
  | [] => ⟨[], [], marked, Nat.le_refl _⟩
  | (bridge, child) :: rest =>
      if hmarked : (linkVisit depth bridge child).bus ∈ marked then
        let others := topology.goThrough marked depth rest
        { others with
          warnings :=
            (linkVisit depth bridge child).warning :: others.warnings }
      else
        let inner :=
          topology.enter marked (linkVisit depth bridge child) hmarked
        let others := topology.goThrough inner.marked depth rest
        { visits := inner.visits ++ others.visits
          warnings := inner.warnings ++ others.warnings
          marked := others.marked
          unvisited_le :=
            Nat.le_trans others.unvisited_le inner.unvisited_le }
termination_by links => (topology.unvisited marked, 2 * links.length)
decreasing_by
  · apply Prod.Lex.right
    simp
  · apply Prod.Lex.right
    rw [List.length_cons]
    omega
  · apply Prod.Lex.right'
    · exact inner.unvisited_le
    · simp

end

/-- The visits and the warnings of searching from each of `starts` that is not
marked by then. -/
def searchStarts (topology : Topology) (marked : List BusId) :
    List Bus → List Visit × List Warning
  | [] => ([], [])
  | start :: rest =>
      if hmarked : start.id ∈ marked then
        topology.searchStarts marked rest
      else
        let tree := topology.enter marked ⟨start.id, 0, none⟩ hmarked
        let later := topology.searchStarts tree.marked rest
        (tree.visits ++ later.1, tree.warnings ++ later.2)

/-- Root buses first, then the others, each group in key order. -/
def search (topology : Topology) : List Visit × List Warning :=
  topology.searchStarts []
    (topology.roots ++ topology.buses.filter fun bus => !bus.isRoot)

/-! ## The simulation -/

/-- Walking `pending` on top of any other work is the search `found` and then
that work. -/
structure Simulates (topology : Topology) {marked : List BusId}
    (pending : List Visit) (found : topology.Search marked) : Prop where
  visits : ∀ stack,
    entered (topology.walkFrom marked (pending ++ stack)).1 =
      found.visits ++ entered (topology.walkFrom found.marked stack).1
  warnings : ∀ stack,
    warned (topology.walkFrom marked (pending ++ stack)).1 =
      found.warnings ++ warned (topology.walkFrom found.marked stack).1
  marked : ∀ stack,
    (topology.walkFrom marked (pending ++ stack)).2 =
      (topology.walkFrom found.marked stack).2

def pendingLinks (depth : Nat) (links : List (Device × Bus)) : List Visit :=
  links.map fun (bridge, child) => linkVisit depth bridge child

theorem linksBelow_eq_pendingLinks (topology : Topology) (visit : Visit) :
    topology.linksBelow visit =
      pendingLinks (visit.depth + 1) (topology.childrenAt visit.bus) := by
  unfold linksBelow childrenAt
  cases topology.bus? visit.bus with
  | none => rfl
  | some bus => rfl

theorem goThrough_seen {topology : Topology} {marked : List BusId}
    {depth : Nat} {bridge : Device} {child : Bus}
    (hmarked : (linkVisit depth bridge child).bus ∈ marked)
    (rest : List (Device × Bus)) :
    topology.goThrough marked depth ((bridge, child) :: rest) =
      { topology.goThrough marked depth rest with
        warnings := (linkVisit depth bridge child).warning ::
          (topology.goThrough marked depth rest).warnings } := by
  rw [goThrough, dif_pos hmarked]

theorem goThrough_fresh {topology : Topology} {marked : List BusId}
    {depth : Nat} {bridge : Device} {child : Bus}
    (hnew : (linkVisit depth bridge child).bus ∉ marked)
    (rest : List (Device × Bus)) :
    topology.goThrough marked depth ((bridge, child) :: rest) =
      let inner := topology.enter marked (linkVisit depth bridge child) hnew
      let others := topology.goThrough inner.marked depth rest
      { visits := inner.visits ++ others.visits
        warnings := inner.warnings ++ others.warnings
        marked := others.marked
        unvisited_le :=
          Nat.le_trans others.unvisited_le inner.unvisited_le } := by
  rw [goThrough, dif_neg hnew]

theorem Simulates.enter {topology : Topology} {marked : List BusId}
    {visit : Visit} (hnew : visit.bus ∉ marked)
    (hbelow : topology.Simulates
      (pendingLinks (visit.depth + 1) (topology.childrenAt visit.bus))
      (topology.goThrough (visit.bus :: marked) (visit.depth + 1)
        (topology.childrenAt visit.bus))) :
    topology.Simulates [visit] (topology.enter marked visit hnew) := by
  rw [Topology.enter]
  constructor
  · intro stack
    have hrest := hbelow.visits stack
    rw [List.singleton_append, walkFrom_fresh hnew,
      linksBelow_eq_pendingLinks, entered_cons_enter, hrest]
    rfl
  · intro stack
    have hrest := hbelow.warnings stack
    rw [List.singleton_append, walkFrom_fresh hnew,
      linksBelow_eq_pendingLinks, warned_cons_enter, hrest]
  · intro stack
    have hrest := hbelow.marked stack
    rw [List.singleton_append, walkFrom_fresh hnew,
      linksBelow_eq_pendingLinks, hrest]

theorem Simulates.seen {topology : Topology} {marked : List BusId}
    {depth : Nat} {bridge : Device} {child : Bus}
    {rest : List (Device × Bus)}
    (hmarked : (linkVisit depth bridge child).bus ∈ marked)
    (hrest : topology.Simulates (pendingLinks depth rest)
      (topology.goThrough marked depth rest)) :
    topology.Simulates (pendingLinks depth ((bridge, child) :: rest))
      (topology.goThrough marked depth ((bridge, child) :: rest)) := by
  rw [goThrough_seen hmarked]
  constructor
  · intro stack
    have hothers := hrest.visits stack
    rw [pendingLinks, List.map_cons, List.cons_append,
      walkFrom_seen hmarked, entered_cons_ignore]
    exact hothers
  · intro stack
    have hothers := hrest.warnings stack
    rw [pendingLinks, List.map_cons, List.cons_append,
      walkFrom_seen hmarked, warned_cons_ignore]
    exact congrArg _ hothers
  · intro stack
    have hothers := hrest.marked stack
    rw [pendingLinks, List.map_cons, List.cons_append,
      walkFrom_seen hmarked]
    exact hothers

theorem Simulates.fresh {topology : Topology} {marked : List BusId}
    {depth : Nat} {bridge : Device} {child : Bus}
    {rest : List (Device × Bus)}
    (hnew : (linkVisit depth bridge child).bus ∉ marked)
    (hinner : topology.Simulates [linkVisit depth bridge child]
      (topology.enter marked (linkVisit depth bridge child) hnew))
    (hrest : topology.Simulates (pendingLinks depth rest)
      (topology.goThrough
        (topology.enter marked (linkVisit depth bridge child) hnew).marked
        depth rest)) :
    topology.Simulates (pendingLinks depth ((bridge, child) :: rest))
      (topology.goThrough marked depth ((bridge, child) :: rest)) := by
  rw [goThrough_fresh hnew]
  have hpending : ∀ stack,
      pendingLinks depth ((bridge, child) :: rest) ++ stack =
        [linkVisit depth bridge child] ++
          (pendingLinks depth rest ++ stack) := by
    intro stack
    rfl
  constructor
  · intro stack
    rw [hpending, hinner.visits, hrest.visits, List.append_assoc]
  · intro stack
    rw [hpending, hinner.warnings, hrest.warnings, List.append_assoc]
  · intro stack
    rw [hpending, hinner.marked, hrest.marked]

theorem simulates_goThrough (topology : Topology) (marked : List BusId)
    (depth : Nat) (links : List (Device × Bus)) :
    topology.Simulates (pendingLinks depth links)
      (topology.goThrough marked depth links) := by
  -- The search recurses through both functions, and so does the simulation.
  induction marked, depth, links using goThrough.induct topology
    (fun marked visit hnew =>
      topology.Simulates [visit] (topology.enter marked visit hnew)) with
  | case1 marked visit hnew hbelow => exact hbelow.enter hnew
  | case2 marked depth =>
      rw [goThrough]
      constructor <;> exact fun stack => rfl
  | case3 marked depth bridge child rest hmarked hrest =>
      exact hrest.seen hmarked
  | case4 marked depth bridge child rest hnew inner hinner hrest =>
      exact hinner.fresh hnew hrest

theorem simulates_enter {topology : Topology} {marked : List BusId}
    {visit : Visit} (hnew : visit.bus ∉ marked) :
    topology.Simulates [visit] (topology.enter marked visit hnew) :=
  (topology.simulates_goThrough _ _ _).enter hnew

theorem walkStarts_eq_searchStarts (topology : Topology)
    (marked : List BusId) (starts : List Bus) :
    entered (topology.walkStarts marked starts) =
        (topology.searchStarts marked starts).1 ∧
      warned (topology.walkStarts marked starts) =
        (topology.searchStarts marked starts).2 := by
  induction starts generalizing marked with
  | nil => exact ⟨rfl, rfl⟩
  | cons start rest ih =>
      rw [walkStarts, searchStarts]
      by_cases hmarked : start.id ∈ marked
      · rw [if_pos hmarked, dif_pos hmarked]
        exact ih marked
      · rw [if_neg hmarked, dif_neg hmarked]
        have htree : topology.Simulates [⟨start.id, 0, none⟩]
            (topology.enter marked ⟨start.id, 0, none⟩ hmarked) :=
          simulates_enter hmarked
        have hvisits := htree.visits []
        have hwarnings := htree.warnings []
        have hend := htree.marked []
        simp only [List.append_nil, walkFrom_nil, entered_nil,
          warned_nil] at hvisits hwarnings hend
        obtain ⟨hlaterVisits, hlaterWarnings⟩ := ih
          (topology.enter marked ⟨start.id, 0, none⟩ hmarked).marked
        simp only [entered_append, warned_append, hvisits, hwarnings, hend,
          hlaterVisits, hlaterWarnings, and_self]

theorem walk_eq_search (topology : Topology) :
    topology.visits = topology.search.1 ∧
      topology.walkWarnings = topology.search.2 :=
  topology.walkStarts_eq_searchStarts [] topology.starts

/-- The walk visits the buses that the recursive search enters and gives its
warnings, both in the order of the search.  In a topology that was built the
search takes buses in key order and the links on a bus in the order of their
bridges. -/
theorem walk_eq_ordered_search (topology : Topology) :
    topology.visits = topology.search.1 ∧
      topology.walkWarnings = topology.search.2 ∧
      ∀ records buses resolver,
        (ofRecords records buses resolver).outcome = .ok topology →
          Bus.Ascending topology.buses ∧
            ∀ bus ∈ topology.buses,
              ((topology.children bus).map Prod.fst).Pairwise
                fun first second =>
                  first.address.rank ≤ second.address.rank := by
  obtain ⟨hvisits, hwarnings⟩ := topology.walk_eq_search
  refine ⟨hvisits, hwarnings, ?_⟩
  intro records buses resolver hbuilt
  obtain ⟨hdevices, hmap⟩ := sorted_and_busMap_of_ofRecords hbuilt
  refine ⟨hmap.ascending, ?_⟩
  intro bus hbus
  exact children_ascending hdevices hmap hbus

/-- Two bridges of bus 0 lead to buses 1 and 2, and bus 2 is behind bus 1 as
well. -/
def sharedChild : Topology :=
  { devices := [plainBridge 0 1 1, plainBridge 0 2 2, plainBridge 1 0 2]
    buses := [⟨⟨0, 0⟩, true, [0, 1]⟩, ⟨⟨0, 1⟩, false, [2]⟩,
      ⟨⟨0, 2⟩, false, []⟩] }

/-- Bus 2 is entered below bus 1, before the link from bus 0 gets its turn. -/
theorem walk_eq_ordered_search_sharedChild :
    (ofRecords sharedChild.deviceRecords sharedChild.busRecords
        .empty).outcome = .ok sharedChild ∧
      sharedChild.search =
        ([⟨⟨0, 0⟩, 0, none⟩, ⟨⟨0, 1⟩, 1, some ⟨0, 0, 1, 0⟩⟩,
            ⟨⟨0, 2⟩, 2, some ⟨0, 1, 0, 0⟩⟩],
          [.ignoredLink ⟨0, 2⟩ (some ⟨0, 0, 2, 0⟩)]) ∧
      Bus.Ascending sharedChild.buses := by
  have hbuilt : (ofRecords sharedChild.deviceRecords sharedChild.busRecords
        .empty).outcome = .ok sharedChild :=
    outcome_ofRecords_of_sorted (by decide +kernel) (by decide +kernel)
      (by decide +kernel)
  have hwalk : sharedChild.walk =
      [.enter ⟨⟨0, 0⟩, 0, none⟩,
        .enter ⟨⟨0, 1⟩, 1, some ⟨0, 0, 1, 0⟩⟩,
        .enter ⟨⟨0, 2⟩, 2, some ⟨0, 1, 0, 0⟩⟩,
        .ignore ⟨⟨0, 2⟩, 1, some ⟨0, 0, 2, 0⟩⟩] := by
    have hstarts : sharedChild.starts =
        [⟨⟨0, 0⟩, true, [0, 1]⟩, ⟨⟨0, 1⟩, false, [2]⟩,
          ⟨⟨0, 2⟩, false, []⟩] := by decide +kernel
    have hbelowRoot : sharedChild.linksBelow ⟨⟨0, 0⟩, 0, none⟩ =
        [⟨⟨0, 1⟩, 1, some ⟨0, 0, 1, 0⟩⟩,
          ⟨⟨0, 2⟩, 1, some ⟨0, 0, 2, 0⟩⟩] := by decide +kernel
    have hbelowFirst :
        sharedChild.linksBelow ⟨⟨0, 1⟩, 1, some ⟨0, 0, 1, 0⟩⟩ =
          [⟨⟨0, 2⟩, 2, some ⟨0, 1, 0, 0⟩⟩] := by decide +kernel
    have hbelowSecond :
        sharedChild.linksBelow ⟨⟨0, 2⟩, 2, some ⟨0, 1, 0, 0⟩⟩ = [] := by
      decide +kernel
    unfold walk
    rw [hstarts]
    simp [walkStarts, walkFrom_fresh, walkFrom_seen, hbelowRoot,
      hbelowFirst, hbelowSecond]
  obtain ⟨hvisits, hwarnings, hordered⟩ :=
    walk_eq_ordered_search sharedChild
  unfold visits at hvisits
  unfold walkWarnings at hwarnings
  rw [hwalk] at hvisits hwarnings
  exact ⟨hbuilt, Prod.ext hvisits.symm hwarnings.symm,
    (hordered _ _ _ hbuilt).1⟩

end Topology

end PciInventory
