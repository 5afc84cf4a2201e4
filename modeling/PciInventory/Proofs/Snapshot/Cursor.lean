import PciInventory.Proofs.Snapshot.Layout

/-!
# Writing a snapshot step by step

A cursor is a growing buffer with the position of the next write in it.  The
snapshot is written once more through a cursor: it goes past the place of the
header, writes part after part, looks where it got to, goes back for the header
and returns to the end.  The buffer and the outcome are those of the writes that
are listed for the snapshot, and the cursor ends behind it.
-/

namespace PciInventory.Snapshot

structure Cursor where
  content : Bytes
  position : Nat

namespace Cursor

def seek (cursor : Cursor) (position : Nat) : Cursor :=
  { cursor with position }

/-- Writes past the end fill the gap with zeros. -/
def write (cursor : Cursor) (piece : Bytes) : Cursor :=
  ⟨cursor.content.overwrite cursor.position piece,
    cursor.position + piece.length⟩

def writeEach {α : Type} (cursor : Cursor) (encode : α → Bytes)
    (values : List α) : Cursor :=
  values.foldl (fun cursor value => cursor.write (encode value)) cursor

/-! ## The writer -/

/-- The record is checked before any of it is written. -/
def writeRecord (cursor : Cursor) (record : DeviceRecord)
    (isFinal : Bool) : Cursor × Except SnapshotError Unit :=
  match StaticBlock.ofRecord record isFinal with
  | .error error => (cursor, .error error)
  | .ok block =>
      let cursor := cursor.write block.encode
      let cursor := cursor.writeEach encodeResource record.resources
      let cursor := cursor.write (encodeDriver record.driver)
      (cursor.write record.config, .ok ())

/-- The records from `index` on, of `count` in all. -/
def writeRecords (cursor : Cursor) (count index : Nat) :
    List DeviceRecord → Cursor × Except SnapshotError Unit
  | [] => (cursor, .ok ())
  | record :: rest =>
      match cursor.writeRecord record (index + 1 = count) with
      | (cursor, .error error) => (cursor, .error error)
      | (cursor, .ok _) => cursor.writeRecords count (index + 1) rest

/-- The header for what has been written up to the cursor.  It is written at
`start`, after which the cursor goes back to where it was. -/
def writeHeader (cursor : Cursor) (start : Nat)
    (devices : List DeviceRecord) (buses : List BusRecord)
    (created : UInt64) : Cursor × Except SnapshotError Nat :=
  if cursor.position < start then
    (cursor, .error (.corrupt "stream position underflow"))
  else
    let size := cursor.position - start
    let header : Header :=
      { created
        fileSize := UInt64.ofNat size
        deviceCount := UInt32.ofNat devices.length
        busCount := UInt32.ofNat buses.length }
    (((cursor.seek start).write header.encode).seek cursor.position,
      .ok size)

def writeSnapshot (cursor : Cursor) (devices : List DeviceRecord)
    (buses : List BusRecord) (created : UInt64) :
    Cursor × Except SnapshotError Nat :=
  if devices.isEmpty then
    (cursor, .error (.emptyTable "device"))
  else if buses.isEmpty then
    (cursor, .error (.emptyTable "bus"))
  else if UInt32.size ≤ devices.length then
    (cursor, .error (.tooLarge "device table"))
  else if UInt32.size ≤ buses.length then
    (cursor, .error (.tooLarge "bus table"))
  else
    let start := cursor.position
    match (cursor.seek (start + headerSize)).writeRecords
        devices.length 0 devices with
    | (cursor, .error error) => (cursor, .error error)
    | (cursor, .ok _) =>
        (cursor.writeEach encodeBus buses).writeHeader start
          devices buses created

/-! ## Writes in a row -/

theorem write_nil (cursor : Cursor) : cursor.write [] = cursor := by
  simp [write]

theorem write_write (cursor : Cursor) (first second : Bytes) :
    (cursor.write first).write second =
      cursor.write (first ++ second) := by
  simp only [write, Bytes.overwrite_append, List.length_append,
    Nat.add_assoc]

theorem writeEach_eq {α : Type} (cursor : Cursor) (encode : α → Bytes)
    (values : List α) :
    cursor.writeEach encode values =
      cursor.write (values.flatMap encode) := by
  induction values generalizing cursor with
  | nil => exact cursor.write_nil.symm
  | cons value rest ih =>
      have hstep : cursor.writeEach encode (value :: rest) =
          (cursor.write (encode value)).writeEach encode rest := by
        simp [writeEach]
      rw [hstep, ih, write_write, List.flatMap_cons]

theorem writeRecord_eq (cursor : Cursor) (record : DeviceRecord)
    (isFinal : Bool) :
    cursor.writeRecord record isFinal =
      match encodeRecord record isFinal with
      | .error error => (cursor, .error error)
      | .ok content => (cursor.write content, .ok ()) := by
  unfold writeRecord encodeRecord
  cases StaticBlock.ofRecord record isFinal with
  | error error => simp [Except.map]
  | ok block =>
      simp only [Except.map, writeEach_eq, write_write, List.append_assoc]

/-- The records that fit are written, up to the first that does not. -/
theorem writeRecords_eq (cursor : Cursor) {count index : Nat}
    {records : List DeviceRecord}
    (hcount : index + records.length = count) :
    cursor.writeRecords count index records =
      (cursor.write (encodeRecords records).1,
        match (encodeRecords records).2 with
        | none => .ok ()
        | some error => .error error) := by
  induction records generalizing cursor index with
  | nil => simp [writeRecords, encodeRecords, write_nil]
  | cons record rest ih =>
      -- The count and the rest of the list agree on which record is the last.
      have hlast : decide (index + 1 = count) = rest.isEmpty := by
        rw [← hcount, List.length_cons]
        cases rest <;> simp
      have hrest : index + 1 + rest.length = count := by
        rw [← hcount, List.length_cons]
        omega
      simp only [writeRecords, encodeRecords, writeRecord_eq, hlast]
      cases encodeRecord record rest.isEmpty with
      | error error => simp [write_nil]
      | ok content => simp only [ih _ hrest, write_write]

/-! ## The whole snapshot -/

/-- The cursor of the body is never before the start. -/
theorem writeHeader_eq (cursor : Cursor) (start : Nat) (piece : Bytes)
    (devices : List DeviceRecord) (buses : List BusRecord)
    (created : UInt64) :
    let written := (cursor.seek (start + headerSize)).write piece
    let size := headerSize + piece.length
    let header : Header :=
      { created
        fileSize := UInt64.ofNat size
        deviceCount := UInt32.ofNat devices.length
        busCount := UInt32.ofNat buses.length }
    written.writeHeader start devices buses created =
      (⟨(cursor.content.overwrite (start + headerSize) piece).overwrite
          start header.encode, start + size⟩, .ok size) := by
  intro written size header
  have hposition : written.position = start + size :=
    Nat.add_assoc start headerSize piece.length
  unfold writeHeader
  rw [if_neg (by omega), hposition, Nat.add_sub_cancel_left]
  rfl

/-- Writing through a cursor has the outcome of the listed writes, and ends
behind the snapshot. -/
theorem writeSnapshot_eq (cursor : Cursor) (devices : List DeviceRecord)
    (buses : List BusRecord) (created : UInt64) :
    ((cursor.writeSnapshot devices buses created).1.content,
        (cursor.writeSnapshot devices buses created).2) =
      writeAt cursor.content cursor.position devices buses created ∧
    ∀ size, (cursor.writeSnapshot devices buses created).2 = .ok size →
      (cursor.writeSnapshot devices buses created).1.position =
        cursor.position + size := by
  unfold writeSnapshot writeAt writes
  split
  next => exact ⟨rfl, by simp⟩
  next =>
  split
  next => exact ⟨rfl, by simp⟩
  next =>
  split
  next => exact ⟨rfl, by simp⟩
  next =>
  split
  next => exact ⟨rfl, by simp⟩
  next =>
  simp only [writeRecords_eq _ (Nat.zero_add devices.length)]
  cases (encodeRecords devices).2 with
  | some error => exact ⟨rfl, by simp⟩
  | none =>
      simp only [writeEach_eq, write_write, writeHeader_eq]
      exact ⟨rfl, by simp⟩

end Cursor

end PciInventory.Snapshot
