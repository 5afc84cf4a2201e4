import Mathlib
import PciInventory.Proofs.Snapshot.RoundTrip
import PciInventory.Snapshot.Source

/-!
# Calls to a snapshot source

A source is asked for its snapshot, its devices or its buses, and is saved to,
while the file tree changes in between by its own saves and by others.  What it
shows is the first snapshot that could be loaded when it was asked: until then
each request loads the file as it is at that moment and fails with the error of
this load, and from then on the file is not read again.  A save depends on the
tree and the path alone, and leaves what is loaded as it is.
-/

namespace PciInventory.SnapshotSource

inductive Call where
  | snapshot
  | listDevices
  | listBuses
  | save (topology : Topology) (created : UInt64)
  /-- Somebody else leaves this file tree. -/
  | change (after : FileTree)

inductive Answer where
  | snapshot (outcome : Except SnapshotError Snapshot)
  | devices (outcome : Except ScanError (List DeviceRecord))
  | buses (outcome : Except ScanError (List BusRecord))
  | saved (outcome : Except ScanError Unit)
  | changed

namespace Call

def perform (call : Call) (tree : FileTree) (source : SnapshotSource) :
    Answer × FileTree × SnapshotSource :=
  match call with
  | .snapshot =>
      let found := source.snapshot tree
      (.snapshot found.1, tree, found.2)
  | .listDevices =>
      let found := source.listDevices tree
      (.devices found.1, tree, found.2)
  | .listBuses =>
      let found := source.listBuses tree
      (.buses found.1, tree, found.2)
  | .save topology created =>
      let saved := (SnapshotSource.source created).save (tree, source) topology
      (.saved saved.1, saved.2)
  | .change after => (.changed, after, source)

def performAll (tree : FileTree) (source : SnapshotSource) :
    List Call → List Answer × FileTree × SnapshotSource
  | [] => ([], tree, source)
  | call :: rest =>
      let first := call.perform tree source
      let others := performAll first.2.1 first.2.2 rest
      (first.1 :: others.1, others.2)

/-! ## What the calls find -/

/-- The file tree behind a call, which the source does not change otherwise. -/
def treeAfter (path : Bytes) (tree : FileTree) : Call → FileTree
  | .save topology created =>
      match Snapshot.publish tree path topology.deviceRecords
          topology.busRecords created with
      | .ok (after, _) => after
      | .error _ => tree
  | .change after => after
  | _ => tree

/-- The calls, each with the file tree that it finds. -/
def moments (path : Bytes) (tree : FileTree) :
    List Call → List (Call × FileTree)
  | [] => []
  | call :: rest =>
      (call, tree) :: moments path (call.treeAfter path tree) rest

/-- Whether a call asks for the snapshot or a part of it. -/
def asks : Call → Bool
  | .snapshot | .listDevices | .listBuses => true
  | .save _ _ | .change _ => false

/-- What loading the file gives when the source is asked for it. -/
def loads (path : Bytes) (moment : Call × FileTree) : Option Snapshot :=
  if moment.1.asks then (load moment.2 path).toOption else none

/-- The first snapshot that could be loaded when the source was asked for it. -/
def firstLoad (path : Bytes) (moments : List (Call × FileTree)) :
    Option Snapshot :=
  moments.findSome? (loads path)

/-- The answer when a request is to be met by this snapshot or this failure. -/
def answer (path : Bytes) (tree : FileTree)
    (outcome : Except SnapshotError Snapshot) : Call → Answer
  | .snapshot => .snapshot outcome
  | .listDevices =>
      .devices ((outcome.map Snapshot.devices).mapError .snapshot)
  | .listBuses => .buses ((outcome.map Snapshot.buses).mapError .snapshot)
  | .save topology created =>
      .saved (((Snapshot.publish tree path topology.deviceRecords
        topology.busRecords created).map fun _ => ()).mapError .snapshot)
  | .change _ => .changed

/-- What meets a request: the snapshot that is kept, or else a load. -/
def served (path : Bytes) (tree : FileTree) :
    Option Snapshot → Except SnapshotError Snapshot
  | some kept => .ok kept
  | none => load tree path

/-- What a source has after the first `count` calls: what it had before, or else
the first snapshot that could be loaded. -/
def kept (source : SnapshotSource) (moments : List (Call × FileTree))
    (count : Nat) : Option Snapshot :=
  source.loaded.or (firstLoad source.path (moments.take count))

/-! ## One call -/

theorem snapshot_eq (tree : FileTree) (source : SnapshotSource) :
    source.snapshot tree =
      (served source.path tree source.loaded,
        ⟨source.path, source.loaded.or (load tree source.path).toOption⟩) := by
  rcases source with ⟨path, loaded⟩
  unfold SnapshotSource.snapshot served
  cases loaded with
  | some kept => rfl
  | none => cases load tree path <;> rfl

theorem loads_of_not_asks {call : Call} (hasks : call.asks = false)
    (path : Bytes) (tree : FileTree) : loads path (call, tree) = none :=
  if_neg (by simp [hasks])

/-- A call is answered by what is kept or else loaded, and leaves it kept if it
asked for it. -/
theorem perform_eq (call : Call) (tree : FileTree)
    (source : SnapshotSource) :
    call.perform tree source =
      (call.answer source.path tree
          (served source.path tree source.loaded),
        call.treeAfter source.path tree,
        ⟨source.path, source.loaded.or (loads source.path (call, tree))⟩) := by
  cases call with
  | snapshot =>
      simp only [perform, snapshot_eq]
      rfl
  | listDevices =>
      simp only [perform, SnapshotSource.listDevices, snapshot_eq]
      cases served source.path tree source.loaded <;> rfl
  | listBuses =>
      simp only [perform, SnapshotSource.listBuses, snapshot_eq]
      cases served source.path tree source.loaded <;> rfl
  | save topology created =>
      rw [loads_of_not_asks rfl, Option.or_none]
      simp only [perform, SnapshotSource.source, SnapshotSource.save, answer,
        treeAfter]
      cases Snapshot.publish tree source.path topology.deviceRecords
        topology.busRecords created <;> rfl
  | change after =>
      rw [loads_of_not_asks rfl, Option.or_none]
      rfl

/-! ## All calls -/

theorem kept_zero (source : SnapshotSource)
    (moments : List (Call × FileTree)) :
    kept source moments 0 = source.loaded :=
  Option.or_none

theorem kept_succ (source : SnapshotSource) (first : Call × FileTree)
    (rest : List (Call × FileTree)) (count : Nat) :
    kept source (first :: rest) (count + 1) =
      kept ⟨source.path, source.loaded.or (loads source.path first)⟩ rest
        count := by
  unfold kept firstLoad
  rw [List.take_succ_cons, List.findSome?_cons, Option.or_assoc]
  cases loads source.path first <;> rfl

theorem kept_of_le {source : SnapshotSource}
    {moments : List (Call × FileTree)} {count later : Nat}
    {snapshot : Snapshot} (hkept : kept source moments count = some snapshot)
    (hle : count ≤ later) : kept source moments later = some snapshot := by
  obtain ⟨others, hothers⟩ := List.take_prefix_take_left hle (l := moments)
  unfold kept firstLoad at hkept ⊢
  rw [← hothers, List.findSome?_append, ← Option.or_assoc, hkept]
  rfl

theorem kept_step {source : SnapshotSource}
    {moments : List (Call × FileTree)} {index : Nat}
    {moment : Call × FileTree} (hmoment : moments[index]? = some moment) :
    kept source moments (index + 1) =
      (kept source moments index).or (loads source.path moment) := by
  unfold kept firstLoad
  rw [List.take_add_one, hmoment, Option.toList_some, List.findSome?_append,
    List.findSome?_singleton, Option.or_assoc]

theorem length_moments (path : Bytes) (tree : FileTree)
    (calls : List Call) : (moments path tree calls).length = calls.length := by
  induction calls generalizing tree with
  | nil => rfl
  | cons call rest ih => simp [moments, ih]

/-- Every call finds the tree that saves and others have left, and is answered by
what the calls before it have left. -/
theorem performAll_eq (tree : FileTree) (source : SnapshotSource)
    (calls : List Call) :
    let moments := moments source.path tree calls
    performAll tree source calls =
      (moments.mapIdx fun index moment =>
          moment.1.answer source.path moment.2
            (served source.path moment.2 (kept source moments index)),
        calls.foldl (treeAfter source.path) tree,
        ⟨source.path, kept source moments calls.length⟩) := by
  induction calls generalizing tree source with
  | nil => simp [performAll, moments, kept_zero]
  | cons call rest ih =>
      simp only [performAll, perform_eq, moments, ih, List.mapIdx_cons,
        kept_zero, kept_succ, List.foldl_cons, List.length_cons]

end Call

namespace Answer

/-- Whatever the answer gives is of this snapshot. -/
def IsOf (snapshot : Option Snapshot) : Answer → Prop
  | .snapshot (.ok found) => snapshot = some found
  | .devices (.ok found) => snapshot.map Snapshot.devices = some found
  | .buses (.ok found) => snapshot.map Snapshot.buses = some found
  | _ => True

theorem IsOf.mono {before after : Option Snapshot} {answer : Answer}
    (hanswer : answer.IsOf before)
    (hkept : ∀ snapshot, before = some snapshot → after = some snapshot) :
    answer.IsOf after := by
  cases before with
  | some snapshot => rwa [hkept snapshot rfl]
  | none =>
      -- Nothing is of no snapshot: the answer is a failure or no list at all.
      unfold IsOf at hanswer ⊢
      split at hanswer
      next => contradiction
      next => contradiction
      next => contradiction
      next => trivial

theorem isOf_answer (path : Bytes) (tree : FileTree)
    (outcome : Except SnapshotError Snapshot) (call : Call) :
    (call.answer path tree outcome).IsOf outcome.toOption := by
  cases call with
  | snapshot => cases outcome <;> trivial
  | listDevices => cases outcome <;> trivial
  | listBuses => cases outcome <;> trivial
  | save topology created => trivial
  | change after => trivial

/-- A request is met by what is kept behind it. -/
theorem isOf_served (path : Bytes) (moment : Call × FileTree)
    (before : Option Snapshot) :
    (moment.1.answer path moment.2
        (Call.served path moment.2 before)).IsOf
      (before.or (Call.loads path moment)) := by
  rcases moment with ⟨call, tree⟩
  have hrequest (hasks : call.asks = true) :
      (Call.served path tree before).toOption =
        before.or (Call.loads path (call, tree)) := by
    rw [Call.loads, if_pos hasks]
    cases before <;> rfl
  cases call with
  | save topology created => trivial
  | change after => trivial
  | snapshot => exact hrequest rfl ▸ isOf_answer path tree _ .snapshot
  | listDevices => exact hrequest rfl ▸ isOf_answer path tree _ .listDevices
  | listBuses => exact hrequest rfl ▸ isOf_answer path tree _ .listBuses

end Answer

/-- All that a source gives is of one snapshot: the one that it had before, or
else the first that could be loaded when it was asked.  Until there is one, each
request fails with the error of loading the file as it is then, and leaves the
source without a snapshot.  Saves and changes by others do not touch what is
kept, and what they do to the tree does not depend on it. -/
theorem answers_from_first_load (tree : FileTree) (source : SnapshotSource)
    (calls : List Call) :
    let moments := Call.moments source.path tree calls
    let kept := Call.kept source moments
    let answers := (Call.performAll tree source calls).1
    (answers = moments.mapIdx fun index moment =>
        moment.1.answer source.path moment.2
          (Call.served source.path moment.2 (kept index))) ∧
      (Call.performAll tree source calls).2 =
        (calls.foldl (Call.treeAfter source.path) tree,
          ⟨source.path, kept calls.length⟩) ∧
      (∀ index moment, moments[index]? = some moment →
        kept (index + 1) =
          (kept index).or (Call.loads source.path moment)) ∧
      ∀ answer ∈ answers, answer.IsOf (kept calls.length) := by
  intro moments kept answers
  have hperform := Call.performAll_eq tree source calls
  have hanswers : answers = moments.mapIdx fun index moment =>
      moment.1.answer source.path moment.2
        (Call.served source.path moment.2 (kept index)) :=
    congrArg Prod.fst hperform
  refine ⟨hanswers, congrArg Prod.snd hperform,
    fun index moment hmoment => Call.kept_step hmoment, ?_⟩
  rw [hanswers]
  intro answer hanswer
  obtain ⟨index, hindex, rfl⟩ := List.mem_mapIdx.mp hanswer
  have hmoment : moments[index]? = some moments[index] :=
    List.getElem?_eq_getElem hindex
  have hwithin : index + 1 ≤ calls.length := by
    rw [← Call.length_moments source.path tree calls]
    exact hindex
  have hnext := Answer.isOf_served source.path moments[index] (kept index)
  rw [← Call.kept_step hmoment] at hnext
  exact hnext.mono fun snapshot hkept => Call.kept_of_le hkept hwithin

/-- The file is missing at first, and gone again when the buses are asked for. -/
def lateFileCalls : List Call :=
  [.listDevices,
    .change (FileTree.empty.insert [[0x74]] (.file Snapshot.smallestContent)),
    .listDevices, .change .empty, .listBuses]

set_option maxRecDepth 20000 in
theorem answers_from_first_load_lateFile :
    let answers :=
      (Call.performAll .empty (ofPath [0x74]) lateFileCalls).1
    answers =
        [.devices (.error (.snapshot (.io (.os .noEntry)))), .changed,
          .devices (.ok Snapshot.smallestSnapshot.devices), .changed,
          .buses (.ok Snapshot.smallestSnapshot.buses)] ∧
      ∀ answer ∈ answers, answer.IsOf (some Snapshot.smallestSnapshot) := by
  have hkept : Call.kept (ofPath [0x74])
      (Call.moments [0x74] .empty lateFileCalls) lateFileCalls.length =
        some Snapshot.smallestSnapshot := by cbv
  refine ⟨by cbv, ?_⟩
  rw [← hkept]
  exact (answers_from_first_load .empty (ofPath [0x74]) lateFileCalls).2.2.2

end PciInventory.SnapshotSource
