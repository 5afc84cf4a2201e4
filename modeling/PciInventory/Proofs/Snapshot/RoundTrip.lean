import Mathlib.Control.Monad.Basic
import PciInventory.Proofs.Snapshot.Layout

/-!
# Writing and reading a snapshot

Reading undoes writing up to the normalisation of the records, wherever the
writer started, and writing undoes reading byte for byte.  Both follow from the
layout of a finished snapshot: the writer leaves it, and the reader accepts
nothing else.
-/

namespace PciInventory.Snapshot

theorem decode_layout {devices : List DeviceRecord}
    {buses : List BusRecord} {table : Bytes}
    (hfills : Fills devices buses table) (created : UInt64) :
    decode (layout devices buses created table) =
      .ok ⟨created, devices.map DeviceRecord.stored, buses⟩ := by
  apply decode_eq_ok_iff_layout.mpr
  refine ⟨DeviceRecord.keptExactly_of_mem_map_stored, table,
    hfills.map_stored, ?_⟩
  simp only [layout, headerOf, List.length_map]

theorem decode_of_encode {devices : List DeviceRecord}
    {buses : List BusRecord} {created : UInt64} {content : Bytes}
    (hencode : encode devices buses created = .ok content) :
    decode content =
      .ok ⟨created, devices.map DeviceRecord.stored, buses⟩ := by
  obtain ⟨table, hfills, rfl⟩ := encode_eq_ok_iff.mp hencode
  exact decode_layout hfills created

theorem decode_eq_ok_iff_encode {content : Bytes} {snapshot : Snapshot} :
    decode content = .ok snapshot ↔
      (∀ record ∈ snapshot.devices, record.KeptExactly) ∧
        encode snapshot.devices snapshot.buses snapshot.created =
          .ok content := by
  rw [decode_eq_ok_iff_layout, encode_eq_ok_iff]

theorem map_stored_of_keptExactly {devices : List DeviceRecord}
    (hkept : ∀ record ∈ devices, record.KeptExactly) :
    devices.map DeviceRecord.stored = devices := by
  calc
    devices.map DeviceRecord.stored = devices.map id :=
      List.map_congr_left fun record hrecord =>
        (hkept record hrecord).stored_eq
    _ = devices := List.map_id devices

theorem decodeAt_eq_decode_drop (content : Bytes) (position : Nat) :
    decodeAt content position = decode (content.drop position) := by
  unfold decode decodeAt
  rw [List.drop_zero]

/-- A snapshot written from `start` on to the end of the buffer is read back
as it was written, up to the normalisation of its records. -/
theorem decodeAt_writeAt {buffer : Bytes} {start size : Nat}
    {devices : List DeviceRecord} {buses : List BusRecord}
    {created : UInt64}
    (hwritten :
      (writeAt buffer start devices buses created).2 = .ok size)
    (hend :
      (writeAt buffer start devices buses created).1.length =
        start + size) :
    decodeAt (writeAt buffer start devices buses created).1 start =
        .ok ⟨created, devices.map DeviceRecord.stored, buses⟩ ∧
      ((∀ record ∈ devices, record.KeptExactly) →
        decodeAt (writeAt buffer start devices buses created).1 start =
          .ok ⟨created, devices, buses⟩) := by
  obtain ⟨table, hfills⟩ := exists_fills_of_writes hwritten
  rw [hfills.writeAt_eq created buffer start] at hwritten hend ⊢
  have hsize : size = (layout devices buses created table).length :=
    (Except.ok.inj hwritten).symm
  have hdecode :
      decodeAt (buffer.overwrite start
          (layout devices buses created table)) start =
        .ok ⟨created, devices.map DeviceRecord.stored, buses⟩ := by
    rw [decodeAt_eq_decode_drop, Bytes.drop_overwrite_of_length]
    · exact decode_layout hfills created
    · rw [← hsize]
      exact hend
  refine ⟨hdecode, ?_⟩
  intro hkept
  rw [hdecode, map_stored_of_keptExactly hkept]

/-- Device 40 and function 12 are out of range, and the NUMA node is the
sentinel. -/
def unkeptRecord : DeviceRecord :=
  ⟨⟨0, 1, 40, 12⟩, List.replicate 256 0, [⟨1, 2, 3⟩], some "",
    some 0xffff, none⟩

theorem decodeAt_writeAt_unkeptRecord :
    (writeAt [0xaa, 0xaa] 2 [unkeptRecord] [⟨⟨0, 1⟩, true⟩] 7).2 =
        .ok 332 ∧
      (writeAt [0xaa, 0xaa] 2 [unkeptRecord] [⟨⟨0, 1⟩, true⟩] 7).1.length =
        2 + 332 ∧
      decodeAt
          (writeAt [0xaa, 0xaa] 2 [unkeptRecord] [⟨⟨0, 1⟩, true⟩] 7).1 2 =
        .ok ⟨7,
          [⟨⟨0, 1, 8, 4⟩, List.replicate 256 0, [⟨1, 2, 3⟩], some "",
            none, none⟩],
          [⟨⟨0, 1⟩, true⟩]⟩ ∧
      decodeAt
          (writeAt [] 0 [unkeptRecord.stored] [⟨⟨0, 1⟩, true⟩] 7).1 0 =
        .ok ⟨7, [unkeptRecord.stored], [⟨⟨0, 1⟩, true⟩]⟩ := by
  have hwritten :
      (writeAt [0xaa, 0xaa] 2 [unkeptRecord] [⟨⟨0, 1⟩, true⟩] 7).2 =
        .ok 332 := by decide +kernel
  have hend :
      (writeAt [0xaa, 0xaa] 2 [unkeptRecord]
        [⟨⟨0, 1⟩, true⟩] 7).1.length = 2 + 332 := by decide +kernel
  have hstored :
      (writeAt [] 0 [unkeptRecord.stored] [⟨⟨0, 1⟩, true⟩] 7).2 =
        .ok 332 := by decide +kernel
  have hstoredEnd :
      (writeAt [] 0 [unkeptRecord.stored]
        [⟨⟨0, 1⟩, true⟩] 7).1.length = 0 + 332 := by decide +kernel
  refine ⟨hwritten, hend, ?_, ?_⟩
  · rw [(decodeAt_writeAt hwritten hend).1]
    decide +kernel
  · apply (decodeAt_writeAt hstored hstoredEnd).2
    intro record hrecord
    rw [List.mem_singleton] at hrecord
    subst record
    exact unkeptRecord.stored_keptExactly

/-- A byte string that is accepted is the only one for its content, and the
writer gives it back.  So what is accepted is what can be written. -/
theorem decode_canonical (content : Bytes) :
    (∀ snapshot, decode content = .ok snapshot →
      writeAt [] 0 snapshot.devices snapshot.buses snapshot.created =
        (content, .ok content.length)) ∧
      ((∃ snapshot, decode content = .ok snapshot) ↔
        ∃ devices buses created,
          encode devices buses created = .ok content) ∧
      ∀ snapshot other, decode content = .ok snapshot →
        decode other = .ok snapshot → other = content := by
  refine ⟨?_, ⟨?_, ?_⟩, ?_⟩
  · intro snapshot hdecode
    obtain ⟨_, table, hfills, rfl⟩ := decode_eq_ok_iff_layout.mp hdecode
    rw [hfills.writeAt_eq snapshot.created [] 0, Bytes.nil_overwrite_zero]
  · intro hparts
    rcases hparts with ⟨snapshot, hdecode⟩
    exact ⟨snapshot.devices, snapshot.buses, snapshot.created,
      (decode_eq_ok_iff_encode.mp hdecode).2⟩
  · intro hparts
    rcases hparts with ⟨devices, buses, created, hencode⟩
    exact ⟨_, decode_of_encode hencode⟩
  · intro snapshot other hdecode hother
    have hcontent := (decode_eq_ok_iff_encode.mp hdecode).2
    rw [(decode_eq_ok_iff_encode.mp hother).2] at hcontent
    exact Except.ok.inj hcontent

/-- One endpoint record with nothing known about it, on one root bus. -/
def smallestSnapshot : Snapshot :=
  ⟨5, [⟨⟨0, 0, 1, 2⟩, List.replicate 256 0, [], none, none, none⟩],
    [⟨⟨0, 0⟩, true⟩]⟩

def smallestContent : Bytes :=
  [0x78, 0x65, 0x69, 0x63, 0x70, 5, 0, 0, 0, 0, 0, 0, 0,
    0x33, 1, 0, 0, 0, 0, 0, 0, 1, 0, 0, 0, 1, 0, 0, 0,
    0x0a, 0, 0, 0, 0, 0, 0, 0, 0, 0, 0xff, 0xff, 0xff, 0xff, 0, 1] ++
    List.replicate 256 0 ++ [0, 0, 0, 0, 1, 0]

theorem decode_canonical_smallestContent :
    decode smallestContent = .ok smallestSnapshot ∧
      writeAt [] 0 smallestSnapshot.devices smallestSnapshot.buses
          smallestSnapshot.created =
        (smallestContent, .ok smallestContent.length) := by
  have hdecode : decode smallestContent = .ok smallestSnapshot := by
    decide +kernel
  exact ⟨hdecode,
    (decode_canonical smallestContent).1 smallestSnapshot hdecode⟩

end PciInventory.Snapshot
