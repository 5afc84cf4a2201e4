import Mathlib.Algebra.Ring.Nat
import PciInventory.Proofs.Snapshot.Cursor
import PciInventory.Proofs.Snapshot.RoundTrip

/-!
# The footprint of writing

The sizes of the records add up to the size of the snapshot, and each record
stands where the sizes of those before it put it.  A finished snapshot is one
write of that size at the start, so nothing around it changes; an unfinished one
has only records in it, none of which reaches the place of the header.
-/

namespace PciInventory.Snapshot

/-! ## Sizes -/

/-- The length of a driver name with its zero byte. -/
def driverSize : Option String → Nat
  | none => 0
  | some driver => (Bytes.ofText driver).length + 1

def recordSize (record : DeviceRecord) : Nat :=
  staticSize + resourceSize * record.resources.length +
    driverSize record.driver + record.config.length

/-- Where the record at `index` begins in a snapshot of these records. -/
def recordOffset (devices : List DeviceRecord) (index : Nat) : Nat :=
  headerSize + ((devices.take index).map recordSize).sum

def snapshotSize (devices : List DeviceRecord) (buses : List BusRecord) :
    Nat :=
  headerSize + (devices.map recordSize).sum + busSize * buses.length

/-- Where a static block has its final flag. -/
def finalFlagOffset : Nat := 15

theorem encodeDriver_length_eq (driver : Option String) :
    (encodeDriver driver).length = driverSize driver := by
  cases driver with
  | none => rfl
  | some name => simp [encodeDriver, driverSize]

theorem encodeRecord_length {record : DeviceRecord} {isFinal : Bool}
    {content : Bytes}
    (hcontent : encodeRecord record isFinal = .ok content) :
    content.length = recordSize record := by
  obtain ⟨block, _, _, rfl⟩ := encodeRecord_eq_ok_iff.mp hcontent
  simp only [List.length_append, StaticBlock.encode_length,
    flatMap_encodeResource_length, encodeDriver_length_eq, recordSize,
    Nat.mul_comm resourceSize, Nat.add_assoc]

theorem encodeRecords_length {records : List DeviceRecord} {table : Bytes}
    (htable : encodeRecords records = (table, none)) :
    table.length = (records.map recordSize).sum := by
  induction records generalizing table with
  | nil =>
      simp only [encodeRecords, Prod.mk.injEq, and_true] at htable
      subst table
      rfl
  | cons record rest ih =>
      obtain ⟨content, others, hcontent, hothers, rfl⟩ :=
        encodeRecords_cons_eq_iff.mp htable
      rw [List.length_append, List.map_cons, List.sum_cons,
        encodeRecord_length hcontent, ih hothers]

theorem layout_length_eq {devices : List DeviceRecord}
    {buses : List BusRecord} {table : Bytes}
    (hfills : Fills devices buses table) (created : UInt64) :
    (layout devices buses created table).length =
      snapshotSize devices buses := by
  rw [layout_length, body_length, encodeRecords_length hfills.table_eq,
    snapshotSize, Nat.mul_comm busSize, Nat.add_assoc]

/-! ## Fields -/

theorem StaticBlock.getElem?_finalFlag (block : StaticBlock)
    (rest : Bytes) :
    (block.encode ++ rest)[finalFlagOffset]? =
      some (flagByte block.isFinal) := by
  rw [List.getElem?_append_left
    (by rw [encode_length]; decide), encode]
  rfl

/-- In a table each record begins with its block, behind the records before
it. -/
theorem exists_block_of_encodeRecords {records : List DeviceRecord}
    {table : Bytes} {index : Nat}
    (htable : encodeRecords records = (table, none))
    (hindex : index < records.length) :
    ∃ (front rest : Bytes) (block : StaticBlock),
      table = front ++ (block.encode ++ rest) ∧
      front.length = ((records.take index).map recordSize).sum ∧
      block.Describes records[index] ∧
      block.isFinal = decide (index + 1 = records.length) := by
  induction records generalizing index table with
  | nil => simp at hindex
  | cons record others ih =>
      obtain ⟨content, tail, hcontent, htail, rfl⟩ :=
        encodeRecords_cons_eq_iff.mp htable
      cases index with
      | zero =>
          obtain ⟨block, hdescribes, hfinal, rfl⟩ :=
            encodeRecord_eq_ok_iff.mp hcontent
          have hlast : others.isEmpty =
              decide (0 + 1 = (record :: others).length) := by
            cases others <;> simp
          exact ⟨[], _, block, List.append_assoc _ _ _, by simp,
            hdescribes, hfinal.trans hlast⟩
      | succ index =>
          -- The block is one of the table that follows the first record.
          obtain ⟨front, rest, block, rfl, hfront, hdescribes, hfinal⟩ :=
            ih htail (Nat.lt_of_succ_lt_succ hindex)
          refine ⟨content ++ front, rest, block, ?_, ?_, hdescribes, ?_⟩
          · rw [List.append_assoc]
          · rw [List.length_append, hfront, encodeRecord_length hcontent,
              List.take_succ_cons, List.map_cons, List.sum_cons]
          · simpa using hfinal

theorem getElem?_layout_finalFlag {devices : List DeviceRecord}
    {buses : List BusRecord} {table : Bytes} {index : Nat}
    (hfills : Fills devices buses table) (created : UInt64)
    (hindex : index < devices.length) :
    (layout devices buses created table)[
        recordOffset devices index + finalFlagOffset]? =
      some (flagByte (decide (index + 1 = devices.length))) := by
  obtain ⟨front, rest, block, htable, hfront, _, hfinal⟩ :=
    exists_block_of_encodeRecords hfills.table_eq hindex
  have hlayout : layout devices buses created table =
      ((headerOf devices buses created table).encode ++ front) ++
        (block.encode ++ (rest ++ buses.flatMap encodeBus)) := by
    simp only [layout, body, htable, List.append_assoc]
  have hoffset :
      ((headerOf devices buses created table).encode ++ front).length =
        recordOffset devices index := by
    rw [List.length_append, Header.encode_length, hfront, recordOffset]
  rw [hlayout, ← hoffset, List.getElem?_append_right (Nat.le_add_right _ _),
    Nat.add_sub_cancel_left, StaticBlock.getElem?_finalFlag, hfinal]

theorem number?_field {front field back : Bytes} {offset width : Nat}
    (hfront : front.length = offset) (hfield : field.length = width) :
    Bytes.number? (front ++ (field ++ back)) offset width =
      some field.toNumber := by
  subst offset width
  simp [Bytes.number?, Bytes.slice?]

theorem number?_layout_fileSize {devices : List DeviceRecord}
    {buses : List BusRecord} {table : Bytes}
    (hfills : Fills devices buses table) (created : UInt64)
    (back : Bytes) :
    Bytes.number? (layout devices buses created table ++ back)
        fileSizeOffset 8 =
      some (layout devices buses created table).length := by
  have hsize : Bytes.toNumber (Bytes.littleEndian 8
      (headerOf devices buses created table).fileSize.toNat) =
      (layout devices buses created table).length := by
    rw [Bytes.toNumber_littleEndian, headerOf, hfills.fileSize_toNat,
      layout_length, ← hfills.fileSize_toNat]
    exact Nat.mod_eq_of_lt (UInt64.toNat_lt _)
  rw [← hsize]
  simp only [layout, Header.encode, List.append_assoc]
  rw [← List.append_assoc magic]
  exact number?_field (by simp [magic, fileSizeOffset]) (by simp)

/-! ## Outside the snapshot -/

theorem number?_add (bytes : Bytes) (start offset width : Nat) :
    bytes.number? (start + offset) width =
      Bytes.number? (bytes.drop start) offset width := by
  simp only [Bytes.number?, Bytes.slice?, List.drop_drop]

theorem exists_piece_of_writeAt {buffer : Bytes} {start : Nat}
    {devices : List DeviceRecord} {buses : List BusRecord}
    {created : UInt64} {error : SnapshotError}
    (hfailed : (writeAt buffer start devices buses created).2 =
      .error error) :
    ∃ piece, (writeAt buffer start devices buses created).1 =
      buffer.overwrite (start + headerSize) piece := by
  unfold writeAt at hfailed ⊢
  rcases writes_cases devices buses created with
    ⟨table, hfills⟩ | ⟨_, hnothing | hrecords⟩
  · rw [hfills.writes_eq created] at hfailed
    contradiction
  · rw [hnothing]
    exact ⟨[], (Bytes.overwrite_nil _ _).symm⟩
  · rw [hrecords]
    exact ⟨(encodeRecords devices).1, rfl⟩

/-- A write leaves what is before it and fills the gap with zeros. -/
theorem getElem?_overwrite_of_lt {buffer piece : Bytes}
    {offset position : Nat} (hbefore : position < offset) :
    (position < buffer.length →
      (buffer.overwrite offset piece)[position]? = buffer[position]?) ∧
    (buffer.length ≤ position → ∀ byte,
      (buffer.overwrite offset piece)[position]? = some byte →
        byte = 0) := by
  by_cases hpiece : piece = []
  · rw [hpiece, Bytes.overwrite_nil]
    constructor
    · intro _
      rfl
    · intro hend byte hbyte
      rw [List.getElem?_eq_none hend] at hbyte
      contradiction
  · rw [Bytes.getElem?_overwrite hpiece, if_pos hbefore]
    constructor
    · intro hold
      simp [hold]
    · intro hend byte hbyte
      rw [List.getElem?_eq_none hend] at hbyte
      exact (Option.some.inj hbyte).symm

/-- What a snapshot of `size` bytes changes, and what it does not. -/
structure Footprint (before after : Cursor) (devices : List DeviceRecord)
    (buses : List BusRecord) (size : Nat) : Prop where
  size_eq : size = snapshotSize devices buses
  position_eq : after.position = before.position + size
  fileSize :
    after.content.number? (before.position + fileSizeOffset) 8 = some size
  finalFlag : ∀ index < devices.length,
    after.content[before.position +
        (recordOffset devices index + finalFlagOffset)]? =
      some (if index + 1 = devices.length then 1 else 0)
  before_start : ∀ position < before.position,
    position < before.content.length →
      after.content[position]? = before.content[position]?
  gap : ∀ position < before.position, before.content.length ≤ position →
    after.content[position]? = some 0
  behind_end : ∀ position, before.position + size ≤ position →
    after.content[position]? = before.content[position]?

theorem Fills.footprint {before after : Cursor}
    {devices : List DeviceRecord} {buses : List BusRecord}
    {table : Bytes} (hfills : Fills devices buses table)
    (created : UInt64)
    (hcontent : after.content = before.content.overwrite before.position
      (layout devices buses created table))
    (hposition : after.position = before.position +
      (layout devices buses created table).length) :
    Footprint before after devices buses
      (layout devices buses created table).length := by
  have hpiece : layout devices buses created table ≠ [] := by
    apply List.ne_nil_of_length_pos
    rw [layout_length]
    exact Nat.lt_of_lt_of_le (by decide) (Nat.le_add_right _ _)
  have hdrop := Bytes.drop_overwrite before.content before.position
    (layout devices buses created table)
  rw [← hcontent] at hdrop
  constructor
  · exact layout_length_eq hfills created
  · exact hposition
  · rw [number?_add, hdrop]
    exact number?_layout_fileSize hfills created _
  · intro index hindex
    have hflag := getElem?_layout_finalFlag hfills created hindex
    have hinside := (List.getElem?_eq_some_iff.mp hflag).1
    rw [← List.getElem?_drop, hdrop, List.getElem?_append_left hinside,
      hflag]
    simp [flagByte]
  · intro position hbefore hold
    rw [hcontent]
    exact (getElem?_overwrite_of_lt hbefore).1 hold
  · intro position hbefore hend
    rw [hcontent, Bytes.getElem?_overwrite hpiece, if_pos hbefore,
      List.getElem?_eq_none hend]
    rfl
  · intro position hbehind
    rw [hcontent, Bytes.getElem?_overwrite hpiece, if_neg (by omega),
      if_neg (by omega)]

/-- A snapshot that is written leaves its footprint.  One that is not leaves
everything before the end of the header's place as it was, and nothing but
zeros is new there. -/
theorem footprint_or_headless {before after : Cursor}
    {devices : List DeviceRecord} {buses : List BusRecord}
    {created : UInt64} {outcome : Except SnapshotError Nat}
    (hwritten : before.writeSnapshot devices buses created =
      (after, outcome)) :
    (after.content, outcome) =
        writeAt before.content before.position devices buses created ∧
      (∀ size, outcome = .ok size →
        Footprint before after devices buses size) ∧
      ∀ error, outcome = .error error →
        ∀ position < before.position + headerSize,
          (position < before.content.length →
            after.content[position]? = before.content[position]?) ∧
          (before.content.length ≤ position → ∀ byte,
            after.content[position]? = some byte → byte = 0) := by
  obtain ⟨hsame, hposition⟩ :=
    before.writeSnapshot_eq devices buses created
  rw [hwritten] at hsame hposition
  have hcontent : after.content = (writeAt before.content
      before.position devices buses created).1 :=
    congrArg Prod.fst hsame
  have houtcome : outcome = (writeAt before.content
      before.position devices buses created).2 :=
    congrArg Prod.snd hsame
  refine ⟨hsame, ?_, ?_⟩
  · intro size hsize
    obtain ⟨table, hfills⟩ :=
      exists_fills_of_writes (houtcome.symm.trans hsize)
    rw [hfills.writeAt_eq created] at hcontent houtcome
    have hlength : (layout devices buses created table).length = size :=
      Except.ok.inj (houtcome.symm.trans hsize)
    have hend := hposition size hsize
    rw [← hlength] at hend ⊢
    exact hfills.footprint created hcontent hend
  · intro error herror position hbefore
    obtain ⟨piece, hpiece⟩ :=
      exists_piece_of_writeAt (houtcome.symm.trans herror)
    have hafter : after.content = before.content.overwrite
        (before.position + headerSize) piece :=
      hcontent.trans hpiece
    rw [hafter]
    exact getElem?_overwrite_of_lt hbefore

/-- The cursor stands one byte behind the end of its buffer. -/
def gapCursor : Cursor :=
  ⟨[0xaa, 0xbb], 3⟩

def boundRecord : DeviceRecord :=
  ⟨⟨0, 0, 1, 0⟩, List.replicate 256 0, [⟨1, 2, 3⟩], some "ahci", none, none⟩

def unboundRecord : DeviceRecord :=
  ⟨⟨0, 0, 2, 0⟩, List.replicate 256 0, [], none, none, none⟩

/-- What a snapshot of both records leaves. -/
def gapFinal : Cursor :=
  (gapCursor.writeSnapshot [boundRecord, unboundRecord]
    [⟨⟨0, 0⟩, true⟩] 7).1

/-- The second record has too short a configuration space, so the header is
never written. -/
def gapFailed : Cursor :=
  (gapCursor.writeSnapshot
    [boundRecord, { unboundRecord with config := [0x86] }]
    [⟨⟨0, 0⟩, true⟩] 7).1

theorem footprint_or_headless_gapCursor :
    gapCursor.writeSnapshot [boundRecord, unboundRecord]
        [⟨⟨0, 0⟩, true⟩] 7 = (gapFinal, .ok 608) ∧
      Footprint gapCursor gapFinal [boundRecord, unboundRecord]
        [⟨⟨0, 0⟩, true⟩] 608 ∧
      gapCursor.writeSnapshot
          [boundRecord, { unboundRecord with config := [0x86] }]
          [⟨⟨0, 0⟩, true⟩] 7 =
        (gapFailed, .error
          (.corrupt "config space is neither 256 nor 4096 bytes")) ∧
      gapFailed.content[1]? = some 0xbb := by
  have hwritten : gapCursor.writeSnapshot [boundRecord, unboundRecord]
      [⟨⟨0, 0⟩, true⟩] 7 = (gapFinal, .ok 608) := by
    have hsize : (gapCursor.writeSnapshot [boundRecord, unboundRecord]
        [⟨⟨0, 0⟩, true⟩] 7).2 = .ok 608 := by decide +kernel
    rw [gapFinal, ← hsize]
  have hfailed :
      gapCursor.writeSnapshot
          [boundRecord, { unboundRecord with config := [0x86] }]
          [⟨⟨0, 0⟩, true⟩] 7 =
        (gapFailed, .error
          (.corrupt "config space is neither 256 nor 4096 bytes")) := by
    have herror : (gapCursor.writeSnapshot
        [boundRecord, { unboundRecord with config := [0x86] }]
        [⟨⟨0, 0⟩, true⟩] 7).2 = .error
          (.corrupt "config space is neither 256 nor 4096 bytes") := by
      decide +kernel
    rw [gapFailed, ← herror]
  have hkept := (footprint_or_headless hfailed).2.2 _ rfl 1 (by decide)
  exact ⟨hwritten, (footprint_or_headless hwritten).2.1 608 rfl,
    hfailed, hkept.1 (by decide)⟩

end PciInventory.Snapshot
