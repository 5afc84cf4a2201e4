import PciInventory.Topology.Basic

/-!
# Walking the bus forest

The walk goes depth first from every root bus and then from every bus not
reached so far, the lower bridge of a bus before the higher one.  Which bus is
behind a bridge is what the bridge's registers say, so links may form cycles or
meet; a bus is visited once, and a link to a visited bus is left out with a
warning.  Each step either shortens the stack of pending links or visits a bus
for the first time, so the walk ends.
-/

namespace PciInventory

/-- A bus reached by the walk, with its depth below the start and the bridge it
was reached through; the start itself has none. -/
structure Visit where
  bus : BusId
  depth : Nat
  bridge : Option Address
deriving DecidableEq

namespace Visit

def warning (visit : Visit) : Warning :=
  .ignoredLink visit.bus visit.bridge

end Visit

/-- The steps of a walk in their order: buses visited and links left out. -/
inductive WalkStep where
  | enter (visit : Visit)
  | ignore (visit : Visit)
deriving DecidableEq

namespace WalkStep

def visit? : WalkStep → Option Visit
  | .enter visit => some visit
  | .ignore _ => none

def warning? : WalkStep → Option Warning
  | .enter _ => none
  | .ignore visit => some visit.warning

end WalkStep

namespace Topology

def linksFrom (topology : Topology) (visit : Visit) (bus : Bus) :
    List Visit :=
  (topology.children bus).map fun (bridge, child) =>
    ⟨child.id, visit.depth + 1, some bridge.address⟩

def unvisited (topology : Topology) (visited : List BusId) : Nat :=
  (topology.buses.filter fun bus => !visited.contains bus.id).length

theorem unvisited_cons_le (topology : Topology) (visited : List BusId)
    (id : BusId) :
    topology.unvisited (id :: visited) ≤ topology.unvisited visited := by
  unfold unvisited
  rw [← List.countP_eq_length_filter, ← List.countP_eq_length_filter]
  apply List.countP_mono_left
  intro bus _ hbus
  simp_all

theorem unvisited_cons_lt {topology : Topology} {visited : List BusId}
    {id : BusId} {bus : Bus} (hbus : topology.bus? id = some bus)
    (hid : id ∉ visited) :
    topology.unvisited (id :: visited) < topology.unvisited visited := by
  have hmem : bus ∈ topology.buses := List.mem_of_find?_eq_some hbus
  have heq : bus.id = id := by
    have h := List.find?_some hbus
    simpa using h
  unfold unvisited
  have hsub :
      topology.buses.filter
          (fun other => !(id :: visited).contains other.id) =
        (topology.buses.filter
          fun other => !visited.contains other.id).filter
            fun other => other.id != id := by
    rw [List.filter_filter]
    apply List.filter_congr
    intro other _
    by_cases h : other.id = id <;> simp [h, bne]
  rw [hsub]
  apply List.length_filter_lt_length_iff_exists.mpr
  exact ⟨bus, by simp [hmem, heq, hid], by simp [heq]⟩

/-- Follows the pending links of `stack`, the first one first.  Returns the
steps taken and all buses visited by then. -/
def walkFrom (topology : Topology) (visited : List BusId) :
    List Visit → List WalkStep × List BusId
  | [] => ([], visited)
  | visit :: stack =>
      if _ : visit.bus ∈ visited then
        let after := topology.walkFrom visited stack
        (.ignore visit :: after.1, after.2)
      else
        match _ : topology.bus? visit.bus with
        | none =>
            let after := topology.walkFrom (visit.bus :: visited) stack
            (.enter visit :: after.1, after.2)
        | some bus =>
            let after := topology.walkFrom (visit.bus :: visited)
              (topology.linksFrom visit bus ++ stack)
            (.enter visit :: after.1, after.2)
termination_by stack => (topology.unvisited visited, stack.length)
decreasing_by
  · apply Prod.Lex.right
    simp
  · apply Prod.Lex.right'
    · exact topology.unvisited_cons_le visited visit.bus
    · simp
  · apply Prod.Lex.left
    exact unvisited_cons_lt (by assumption) (by assumption)

/-- Walks from each of `starts` that has not been visited by then. -/
def walkStarts (topology : Topology) (visited : List BusId) :
    List Bus → List WalkStep
  | [] => []
  | start :: rest =>
      if start.id ∈ visited then
        topology.walkStarts visited rest
      else
        let tree := topology.walkFrom visited [⟨start.id, 0, none⟩]
        tree.1 ++ topology.walkStarts tree.2 rest

/-- Root buses first, each group in key order. -/
def starts (topology : Topology) : List Bus :=
  topology.roots ++ topology.buses.filter fun bus => !bus.isRoot

def walk (topology : Topology) : List WalkStep :=
  topology.walkStarts [] topology.starts

def visits (topology : Topology) : List Visit :=
  topology.walk.filterMap WalkStep.visit?

def walkWarnings (topology : Topology) : List Warning :=
  topology.walk.filterMap WalkStep.warning?

end Topology

end PciInventory
