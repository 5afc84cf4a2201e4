import PciInventory.Proofs.Snapshot.Records
import PciInventory.Proofs.Snapshot.Widths

/-!
# The trace of reading a snapshot

Reading is done once more, step by step: each calculation in machine words, each
allocation of a table and each part that is read leaves an action in a trace.
What is left of the input is always the budget of the device table and the bus
table behind it.  So a record that has passed the budget check stays inside the
device table, and the bus table is there when it is read.
-/

namespace PciInventory.Snapshot

/-! ## Actions -/

/-- Sums and products are formed in words that hold the numbers below `limit`,
differences in words without a sign.  A part is read from the input that is
left. -/
inductive Action where
  | add (limit first second : Nat)
  | multiply (limit first second : Nat)
  | subtract (first second : Nat)
  | allocate (header : Header)
  | readHeader (input : Bytes)
  | readStatic (input : Bytes)
  | readDynamic (header : Header) (block : StaticBlock) (address : Address)
      (input : Bytes)
  | readBus (input : Bytes)

/-- The size of the bus table behind the device table. -/
def Header.busTable (header : Header) : Nat :=
  header.busCount.toNat * busSize

/-- Calculations do not leave their words and the tables fit into the `whole`
data.  Parts are read from what is left of the data: the variable part of a
record does without the bus table at the end, and a bus record is there. -/
def Action.Safe (whole : Bytes) : Action → Prop
  | .add limit first second => first + second < limit
  | .multiply limit first second => first * second < limit
  | .subtract first second => second ≤ first
  | .allocate header =>
      headerSize + header.deviceCount.toNat * staticSize + header.busTable ≤
        whole.length
  | .readHeader input => input = whole
  | .readStatic input => input <:+ whole
  | .readDynamic header block address input =>
      input <:+ whole ∧
        (Snapshot.readDynamic block address).Spares header.busTable input
  | .readBus input =>
      input <:+ whole ∧
        Snapshot.readBus.run input ≠ .error (.io .endOfData)

/-- A reader that also tells what it did until it ended. -/
def Traced (α : Type) : Type :=
  Bytes → List Action × Except SnapshotError (α × Bytes)

namespace Traced

variable {α β : Type}

instance : Monad Traced where
  pure value := fun input => ([], .ok (value, input))
  bind first next := fun input =>
    match first input with
    | (actions, .error error) => (actions, .error error)
    | (actions, .ok (value, rest)) =>
        let later := next value rest
        (actions ++ later.1, later.2)

def tell (action : Action) (value : α) : Traced α := fun input =>
  ([action], .ok (value, input))

def observe (action : Bytes → Action) (reader : Reader α) : Traced α :=
  fun input => ([action input], reader.run input)

def fail (error : SnapshotError) : Traced α := fun _ => ([], .error error)

/-- What is left of the input. -/
def remaining : Traced Bytes := fun input => ([], .ok (input, input))

def add (limit first second : Nat) : Traced Nat :=
  tell (.add limit first second) (first + second)

def multiply (limit first second : Nat) : Traced Nat :=
  tell (.multiply limit first second) (first * second)

def subtract (first second : Nat) : Traced Nat :=
  tell (.subtract first second) (first - second)

/-! ## Reading step by step -/

/-- The size of a record. -/
def recordLength (block : StaticBlock) : Traced Nat := do
  let resources ← multiply UInt64.size block.resourceCount.toNat resourceSize
  let named ← add UInt64.size resources block.driverLength.toNat
  let dynamic ← add UInt64.size named block.configLength
  add UInt64.size staticSize dynamic

def readRecord (header : Header) (isLast : Bool) (budget : Nat) :
    Traced (DeviceRecord × Nat) := do
  let block ← observe .readStatic StaticBlock.read
  let length ← recordLength block
  if budget < length then
    fail (.corrupt "device record overruns the device table")
  else
    let budget ← subtract budget length
    if block.isFinal ≠ isLast then
      fail (.corrupt "final-device flag out of place")
    else
      match Address.unpack? block.address with
      | none => fail (.corrupt "invalid device address")
      | some address =>
          let record ← observe (.readDynamic header block address)
            (readDynamic block address)
          return (record, budget)

/-- The records from `index` on. -/
def readRecords (header : Header) (index : Nat) :
    (count budget : Nat) → Traced (List DeviceRecord)
  | 0, _ => return []
  | count + 1, budget => do
      let next ← add UInt32.size index 1
      let (record, budget) ←
        readRecord header (next = header.deviceCount.toNat) budget
      let others ← readRecords header next count budget
      return record :: others

def readBuses : (count : Nat) → Traced (List BusRecord)
  | 0 => return []
  | count + 1 => do
      let bus ← observe .readBus readBus
      let others ← readBuses count
      return bus :: others

/-- The devices are allocated before their records are read, the buses after
that. -/
def readTables (header : Header) (budget : Nat) : Traced Snapshot := do
  tell (.allocate header) ()
  let devices ← readRecords header 0 header.deviceCount.toNat budget
  tell (.allocate header) ()
  let buses ← readBuses header.busCount.toNat
  let rest ← remaining
  if rest.isEmpty then return ⟨header.created, devices, buses⟩
  else fail (.corrupt "trailing bytes after bus table")

/-- What is read behind the header of a snapshot of `actual` bytes. -/
def readBody (actual : Nat) (header : Header) : Traced Snapshot := do
  if header.fileSize.toNat ≠ actual then
    fail (.sizeMismatch header.fileSize.toNat actual)
  else if header.deviceCount.toNat = 0 then
    fail (.emptyTable "device")
  else if header.busCount.toNat = 0 then
    fail (.emptyTable "bus")
  else
    let body ← subtract actual headerSize
    let busTable ← multiply UInt64.size header.busCount.toNat busSize
    let blocks ← multiply UInt64.size header.deviceCount.toNat staticSize
    let fixed ← add UInt64.size blocks busTable
    if body < fixed then
      fail (.corrupt "record counts exceed file size")
    else
      let budget ← subtract body busTable
      readTables header budget

/-- The reader of a snapshot that takes up all of `actual` bytes. -/
def reader (actual : Nat) : Traced Snapshot := do
  let header ← observe .readHeader Header.read
  readBody actual header

/-! ## Following the plain reader -/

/-- A trace of safe actions with the outcome of a plain reader.  If there were
too few bytes, then for the static block that was read last. -/
structure Follows (whole : Bytes)
    (traced : List Action × Except SnapshotError (α × Bytes))
    (plain : Except SnapshotError (α × Bytes)) : Prop where
  outcome : traced.2 = plain
  safe : ∀ action ∈ traced.1, action.Safe whole
  short : plain = .error (.io .endOfData) →
    ∃ earlier input, traced.1 = earlier ++ [.readStatic input] ∧
      input.length < staticSize

variable {whole input rest : Bytes}

theorem follows_pure (value : α) (input : Bytes) :
    Follows whole ((pure value : Traced α) input) (.ok (value, input)) :=
  ⟨rfl, by simp [pure], by simp⟩

theorem follows_fail {error : SnapshotError}
    (herror : error ≠ .io .endOfData) (input : Bytes) :
    Follows whole ((fail error : Traced α) input) (.error error) :=
  ⟨rfl, by simp [fail], fun heq => (herror (Except.error.inj heq)).elim⟩

theorem follows_observe {action : Bytes → Action} {reader : Reader α}
    (hsafe : (action input).Safe whole)
    (henough : reader.run input ≠ .error (.io .endOfData)) :
    Follows whole (observe action reader input) (reader.run input) :=
  ⟨rfl, by simpa [observe] using hsafe, fun heq => (henough heq).elim⟩

theorem follows_static (hleft : input <:+ whole) :
    Follows whole (observe .readStatic StaticBlock.read input)
      (StaticBlock.read.run input) :=
  ⟨rfl, by simpa [observe, Action.Safe] using hleft, fun hshort =>
    ⟨[], input, rfl, StaticBlock.read_hasWidth.length_lt hshort⟩⟩

theorem Follows.tell {action : Action} {value : α} {next : α → Traced β}
    {plain : Except SnapshotError (β × Bytes)}
    (hsafe : action.Safe whole)
    (hnext : Follows whole (next value input) plain) :
    Follows whole ((tell action value >>= next) input) plain := by
  refine ⟨hnext.outcome, List.forall_mem_cons.mpr ⟨hsafe, hnext.safe⟩, ?_⟩
  intro hshort
  obtain ⟨earlier, last, hactions, hlength⟩ := hnext.short hshort
  refine ⟨action :: earlier, last, ?_, hlength⟩
  rw [List.cons_append, ← hactions]
  rfl

theorem Follows.remaining {next : Bytes → Traced β}
    {plain : Except SnapshotError (β × Bytes)}
    (hnext : Follows whole (next input input) plain) :
    Follows whole ((Traced.remaining >>= next) input) plain :=
  hnext

theorem Follows.bind {first : Traced α} {next : α → Traced β}
    {plain : Except SnapshotError (α × Bytes)}
    {later : α × Bytes → Except SnapshotError (β × Bytes)}
    (hfirst : Follows whole (first input) plain)
    (hnext : ∀ value rest, plain = .ok (value, rest) →
      Follows whole (next value rest) (later (value, rest))) :
    Follows whole ((first >>= next) input) (plain >>= later) := by
  obtain ⟨houtcome, hsafe, hshort⟩ := hfirst
  cases hrun : first input with
  | mk actions outcome =>
      rw [hrun] at houtcome hsafe hshort
      simp only at houtcome hsafe hshort
      subst houtcome
      have hbind : (first >>= next) input =
          match outcome with
          | .error error => (actions, .error error)
          | .ok (value, rest) =>
              (actions ++ (next value rest).1, (next value rest).2) := by
        simp only [Bind.bind, hrun]
        rcases outcome with error | ⟨value, rest⟩ <;> rfl
      rw [hbind]
      rcases outcome with error | ⟨value, rest⟩
      · refine ⟨rfl, hsafe, ?_⟩
        intro herror
        exact hshort (congrArg _ (Except.error.inj herror))
      · have hlater := hnext value rest rfl
        refine ⟨hlater.outcome,
          List.forall_mem_append.mpr ⟨hsafe, hlater.safe⟩, ?_⟩
        intro herror
        obtain ⟨earlier, last, hactions, hlength⟩ := hlater.short herror
        exact ⟨actions ++ earlier, last,
          by rw [List.append_assoc, ← hactions], hlength⟩

theorem suffix_of_append {part : Bytes} (hleft : input <:+ whole)
    (hsplit : input = part ++ rest) : rest <:+ whole :=
  (hsplit ▸ List.suffix_append part rest).trans hleft

/-! ## Records -/

theorem follows_recordLength (block : StaticBlock) (input : Bytes) :
    Follows whole (recordLength block input)
      (.ok (staticSize + block.dynamicLength, input)) := by
  have hcount : block.resourceCount.toNat < 256 :=
    block.resourceCount.toNat_lt
  have hdriver : block.driverLength.toNat < 256 :=
    block.driverLength.toNat_lt
  have hconfig : block.configLength ≤ 4096 := by
    unfold StaticBlock.configLength
    split <;> decide
  unfold recordLength StaticBlock.dynamicLength resourceSize staticSize
  refine .tell ?_ (.tell ?_ (.tell ?_ ?_))
  · simp only [Action.Safe, UInt64.size]
    omega
  · simp only [Action.Safe, UInt64.size]
    omega
  · simp only [Action.Safe, UInt64.size]
    omega
  · refine ⟨rfl, ?_, by simp [add, Traced.tell]⟩
    simp only [add, Traced.tell, List.mem_singleton, forall_eq, Action.Safe,
      UInt64.size]
    omega

theorem Follows.recordLength {block : StaticBlock} {next : Nat → Traced β}
    {plain : Except SnapshotError (β × Bytes)}
    (hnext : Follows whole
      (next (staticSize + block.dynamicLength) input) plain) :
    Follows whole ((recordLength block >>= next) input) plain := by
  have hlater : Follows whole ((Traced.recordLength block >>= next) input)
      (.ok (staticSize + block.dynamicLength, input) >>= fun _ => plain) := by
    refine (follows_recordLength block input).bind fun length rest hrest => ?_
    cases hrest
    exact hnext
  exact hlater

/-- What follows the static block of a record, read without a trace. -/
def plainRecord (isLast : Bool) (budget : Nat) (block : StaticBlock) :
    Reader (DeviceRecord × Nat) :=
  if budget < staticSize + block.dynamicLength then
    Reader.fail (.corrupt "device record overruns the device table")
  else if block.isFinal ≠ isLast then
    Reader.fail (.corrupt "final-device flag out of place")
  else
    match Address.unpack? block.address with
    | none => Reader.fail (.corrupt "invalid device address")
    | some address => do
        let record ← readDynamic block address
        return (record, budget - (staticSize + block.dynamicLength))

/-- Once it is within its budget, a record ends before the bus table. -/
theorem follows_readRecord {header : Header} {isLast : Bool} {budget : Nat}
    (hleft : input <:+ whole)
    (hinput : input.length = budget + header.busTable) :
    Follows whole (readRecord header isLast budget input)
      ((Snapshot.readRecord isLast budget).run input) := by
  refine (follows_static hleft).bind fun block afterBlock hblock => ?_
  have hsplit := StaticBlock.run_read_eq_ok_iff.mp hblock
  have hlength : input.length = staticSize + afterBlock.length := by
    rw [hsplit, List.length_append, StaticBlock.encode_length]
  refine .recordLength ?_
  change Follows whole _ ((plainRecord isLast budget block).run afterBlock)
  unfold plainRecord
  split
  next => exact follows_fail (by simp) _
  next hbudget =>
  refine .tell (Nat.not_lt.mp hbudget) ?_
  split
  next => exact follows_fail (by simp) _
  next =>
  cases Address.unpack? block.address with
  | none => exact follows_fail (by simp) _
  | some address =>
      have hwidth := readDynamic_hasWidth block address
      have hspares : (readDynamic block address).Spares header.busTable
          afterBlock := hwidth.spares (by omega)
      have henough : (readDynamic block address).run afterBlock ≠
          .error (.io .endOfData) := by
        intro hshort
        have hlt := hwidth.length_lt hshort
        omega
      have hobserve : Follows whole
          (observe (.readDynamic header block address)
            (readDynamic block address) afterBlock)
          ((readDynamic block address).run afterBlock) :=
        follows_observe ⟨suffix_of_append hleft hsplit, hspares⟩ henough
      exact hobserve.bind fun record rest _ => follows_pure (record, _) rest

/-- The input that is left is the budget and the bus table, before each record
and behind the last one. -/
theorem left_of_readRecord {isLast : Bool} {budget left reserve : Nat}
    {record : DeviceRecord} (hleft : input <:+ whole)
    (hinput : input.length = budget + reserve)
    (hread : (Snapshot.readRecord isLast budget).run input =
      .ok ((record, left), rest)) :
    rest <:+ whole ∧ rest.length = left + reserve := by
  obtain ⟨_, content, _, hbudget, hsplit⟩ :=
    run_readRecord_eq_ok_iff.mp hread
  refine ⟨suffix_of_append hleft hsplit, ?_⟩
  rw [hsplit, List.length_append] at hinput
  omega

theorem follows_readRecords {header : Header} {index count budget : Nat}
    (hindex : index + count = header.deviceCount.toNat)
    (hleft : input <:+ whole)
    (hinput : input.length = budget + header.busTable) :
    Follows whole (readRecords header index count budget input)
      ((Snapshot.readRecords count budget).run input) := by
  induction count generalizing index budget input with
  | zero => exact follows_pure [] input
  | succ count ih =>
      have hcount : header.deviceCount.toNat < 2 ^ 32 :=
        header.deviceCount.toNat_lt
      -- One reader counts the records up, the other one down.
      have hlast : decide (index + 1 = header.deviceCount.toNat) =
          decide (count = 0) := by
        apply decide_eq_decide.mpr
        omega
      refine .tell (Nat.lt_of_le_of_lt ?_ hcount) ?_
      · omega
      · rw [hlast]
        refine (follows_readRecord hleft hinput).bind ?_
        rintro ⟨record, left⟩ rest hread
        obtain ⟨hrest, hlength⟩ := left_of_readRecord hleft hinput hread
        refine (ih (by omega) hrest hlength).bind ?_
        intro others last _
        exact follows_pure (record :: others) last

/-! ## Buses -/

theorem follows_readBuses {count : Nat} (hleft : input <:+ whole)
    (hinput : count * busSize ≤ input.length) :
    Follows whole (readBuses count input)
      ((Snapshot.readBuses count).run input) := by
  induction count generalizing input with
  | zero => exact follows_pure [] input
  | succ count ih =>
      rw [Nat.succ_mul] at hinput
      have henough : Snapshot.readBus.run input ≠
          .error (.io .endOfData) := by
        intro hshort
        have hlt := readBus_hasWidth.length_lt hshort
        omega
      have hobserve : Follows whole
          (observe .readBus Snapshot.readBus input)
          (Snapshot.readBus.run input) :=
        follows_observe ⟨hleft, henough⟩ henough
      refine hobserve.bind ?_
      intro bus rest hread
      have hsplit := run_readBus_eq_ok_iff.mp hread
      have hrest : count * busSize ≤ rest.length := by
        have hbus : (encodeBus bus).length = busSize := by
          simp [encodeBus, busSize]
        rw [hsplit, List.length_append, hbus] at hinput
        omega
      refine (ih (suffix_of_append hleft hsplit) hrest).bind ?_
      intro others last _
      exact follows_pure (bus :: others) last

/-! ## The whole snapshot -/

/-- The tables of a snapshot, read without a trace. -/
def plainTables (header : Header) (budget : Nat) : Reader Snapshot := do
  let devices ← Snapshot.readRecords header.deviceCount.toNat budget
  let buses ← Snapshot.readBuses header.busCount.toNat
  let rest ← get
  if rest.isEmpty then return ⟨header.created, devices, buses⟩
  else Reader.fail (.corrupt "trailing bytes after bus table")

/-- What follows the header, read without a trace. -/
def plainBody (actual : Nat) (header : Header) : Reader Snapshot :=
  if header.fileSize.toNat ≠ actual then
    Reader.fail (.sizeMismatch header.fileSize.toNat actual)
  else if header.deviceCount.toNat = 0 then
    Reader.fail (.emptyTable "device")
  else if header.busCount.toNat = 0 then
    Reader.fail (.emptyTable "bus")
  else if actual - headerSize < header.deviceCount.toNat * staticSize +
      header.busCount.toNat * busSize then
    Reader.fail (.corrupt "record counts exceed file size")
  else
    plainTables header (actual - headerSize - header.busCount.toNat * busSize)

theorem follows_readTables {header : Header} {budget : Nat}
    (hallocate : (Action.allocate header).Safe whole)
    (hleft : input <:+ whole)
    (hinput : input.length = budget + header.busTable) :
    Follows whole (readTables header budget input)
      ((plainTables header budget).run input) := by
  refine .tell hallocate ?_
  refine (follows_readRecords (Nat.zero_add _) hleft hinput).bind ?_
  intro devices afterDevices hdevices
  obtain ⟨_, _, table, _, hbudget, hsplit⟩ :=
    run_readRecords_eq_ok_iff.mp hdevices
  have hbuses : header.busTable ≤ afterDevices.length := by
    rw [hsplit, List.length_append] at hinput
    omega
  refine .tell hallocate ?_
  refine (follows_readBuses (suffix_of_append hleft hsplit) hbuses).bind ?_
  intro buses rest _
  refine .remaining ?_
  cases rest with
  | nil => exact follows_pure _ []
  | cons byte rest =>
      exact follows_fail (by simp) (byte :: rest)

theorem follows_readBody (header : Header)
    (hleft : input <:+ whole)
    (hwhole : whole.length = headerSize + input.length) :
    Follows whole (readBody whole.length header input)
      ((plainBody whole.length header).run input) := by
  have hdevices : header.deviceCount.toNat < 4294967296 :=
    header.deviceCount.toNat_lt
  have hbuses : header.busCount.toNat < 4294967296 :=
    header.busCount.toNat_lt
  unfold readBody plainBody
  split
  next => exact follows_fail (by simp) input
  next =>
  split
  next => exact follows_fail (by simp) input
  next =>
  split
  next => exact follows_fail (by simp) input
  next =>
  -- Only the header that was read before makes this difference safe.
  refine .tell (show headerSize ≤ whole.length by omega) ?_
  refine .tell ?_ (.tell ?_ (.tell ?_ ?_))
  · simp only [Action.Safe, busSize, UInt64.size]
    omega
  · simp only [Action.Safe, staticSize, UInt64.size]
    omega
  · simp only [Action.Safe, staticSize, busSize, UInt64.size]
    omega
  · split
    next => exact follows_fail (by simp) input
    next hfixed =>
    refine .tell ?_ (follows_readTables ?_ hleft ?_)
    all_goals simp only [Action.Safe, Header.busTable]
    all_goals omega

theorem reader_of_header_error {error : SnapshotError}
    (hheader : Header.read.run input = .error error) :
    reader whole.length input = ([.readHeader input], .error error) := by
  simp only [reader, Bind.bind, observe, hheader]

theorem reader_of_header {header : Header}
    (hheader : Header.read.run input = .ok (header, rest)) :
    reader whole.length input =
      (.readHeader input :: (readBody whole.length header rest).1,
        (readBody whole.length header rest).2) := by
  simp only [reader, Bind.bind, observe, hheader, List.singleton_append]

end Traced

theorem eq_error_of_map {Fault Result Part : Type}
    {outcome : Except Fault Result} {part : Result → Part} {error : Fault}
    (herror : outcome.map part = .error error) : outcome = .error error := by
  cases outcome with
  | error other => exact congrArg _ (Except.error.inj herror)
  | ok result => contradiction

open Traced in
/-- Reading the snapshot at any position of any bytes has the outcome of its
trace, and each action in the trace is safe.  Data can only be missing for the
header, before anything else is done, or for the static block that was read
last. -/
theorem decodeAt_eq_trace (content : Bytes) (position : Nat) :
    let input := content.drop position
    let traced := Traced.reader input.length input
    decodeAt content position = traced.2.map (fun result => result.1) ∧
      (∀ action ∈ traced.1, action.Safe input) ∧
      (decodeAt content position = .error (.io .endOfData) →
        (traced.1 = [.readHeader input] ∧ input.length < headerSize) ∨
          ∃ earlier block, traced.1 = earlier ++ [.readStatic block] ∧
            block.length < staticSize) := by
  intro input traced
  have hdecode : decodeAt content position =
      (Header.read.run input >>= fun result =>
        (plainBody input.length result.1).run result.2).map
          fun result => result.1 :=
    rfl
  rw [hdecode]
  cases hheader : Header.read.run input with
  | error error =>
      have htraced : traced = ([.readHeader input], .error error) :=
        reader_of_header_error hheader
      rw [htraced]
      refine ⟨rfl, by simp [Action.Safe], fun hshort => .inl ⟨rfl, ?_⟩⟩
      apply Header.read_hasWidth.length_lt
      rw [hheader]
      exact congrArg _ (Except.error.inj hshort)
  | ok result =>
      obtain ⟨header, rest⟩ := result
      have hsplit := Header.run_read_eq_ok_iff.mp hheader
      have hlength : input.length = headerSize + rest.length := by
        rw [hsplit, List.length_append, Header.encode_length]
      obtain ⟨houtcome, hsafe, hmissing⟩ := follows_readBody header
        (hsplit ▸ List.suffix_append header.encode rest) hlength
      have htraced : traced = (.readHeader input ::
          (readBody input.length header rest).1, _) :=
        reader_of_header hheader
      rw [htraced, houtcome]
      refine ⟨rfl, List.forall_mem_cons.mpr ⟨rfl, hsafe⟩, ?_⟩
      intro hshort
      obtain ⟨earlier, block, hactions, hblock⟩ :=
        hmissing (eq_error_of_map hshort)
      refine .inr ⟨.readHeader input :: earlier, block, ?_, hblock⟩
      rw [hactions, List.cons_append]

end PciInventory.Snapshot
