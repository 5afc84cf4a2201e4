import PciInventory.Proofs.Overwrite
import PciInventory.Proofs.Snapshot.Records

/-!
# The layout of a finished snapshot

Lists that fit the format have exactly one finished snapshot: the header, the
device table and the bus table behind one another.  The writer, wherever it
starts, leaves this byte string from its start on, and the reader accepts a
byte string if and only if it is the finished snapshot of the lists it returns
and these lists are kept exactly.
-/

namespace PciInventory.Snapshot

/-- The lists fill a snapshot whose device table is `table`. -/
structure Fills (devices : List DeviceRecord) (buses : List BusRecord)
    (table : Bytes) : Prop where
  devices_ne_nil : devices ≠ []
  buses_ne_nil : buses ≠ []
  devices_length : devices.length < UInt32.size
  buses_length : buses.length < UInt32.size
  table_eq : encodeRecords devices = (table, none)

def body (buses : List BusRecord) (table : Bytes) : Bytes :=
  table ++ buses.flatMap encodeBus

def headerOf (devices : List DeviceRecord) (buses : List BusRecord)
    (created : UInt64) (table : Bytes) : Header :=
  { created
    fileSize := UInt64.ofNat (headerSize + (body buses table).length)
    deviceCount := UInt32.ofNat devices.length
    busCount := UInt32.ofNat buses.length }

def layout (devices : List DeviceRecord) (buses : List BusRecord)
    (created : UInt64) (table : Bytes) : Bytes :=
  (headerOf devices buses created table).encode ++ body buses table

/-- Where the size of the whole snapshot stands. -/
def fileSizeOffset : Nat := 13

theorem body_length (buses : List BusRecord) (table : Bytes) :
    (body buses table).length =
      table.length + buses.length * busSize := by
  rw [body, List.length_append, flatMap_encodeBus_length]

theorem layout_length (devices : List DeviceRecord)
    (buses : List BusRecord) (created : UInt64) (table : Bytes) :
    (layout devices buses created table).length =
      headerSize + (body buses table).length := by
  rw [layout, List.length_append, Header.encode_length]

section Filled

variable {devices : List DeviceRecord} {buses : List BusRecord}
variable {table : Bytes}

theorem Fills.deviceCount_toNat (hfills : Fills devices buses table) :
    (UInt32.ofNat devices.length).toNat = devices.length := by
  have hlt : devices.length < 4294967296 := hfills.devices_length
  rw [UInt32.toNat_ofNat']
  omega

theorem Fills.busCount_toNat (hfills : Fills devices buses table) :
    (UInt32.ofNat buses.length).toNat = buses.length := by
  have hlt : buses.length < 4294967296 := hfills.buses_length
  rw [UInt32.toNat_ofNat']
  omega

/-- Records are bounded and so are the tables, so the size never wraps. -/
theorem Fills.fileSize_toNat (hfills : Fills devices buses table) :
    (UInt64.ofNat (headerSize + (body buses table).length)).toNat =
      headerSize + (body buses table).length := by
  have hdevices : devices.length < 4294967296 := hfills.devices_length
  have hbuses : buses.length < 4294967296 := hfills.buses_length
  have htable := (encodeRecords_length_bounds hfills.table_eq).2
  rw [UInt64.toNat_ofNat', body_length]
  unfold headerSize busSize
  omega

theorem Fills.body_ne_nil (hfills : Fills devices buses table) :
    body buses table ≠ [] := by
  have hbuses := List.length_pos_iff.mpr hfills.buses_ne_nil
  apply List.ne_nil_of_length_pos
  rw [body_length]
  unfold busSize
  omega

theorem Fills.map_stored (hfills : Fills devices buses table) :
    Fills (devices.map DeviceRecord.stored) buses table :=
  ⟨by simpa using hfills.devices_ne_nil, hfills.buses_ne_nil,
    by simpa using hfills.devices_length, hfills.buses_length,
    (encodeRecords_map_stored devices).trans hfills.table_eq⟩

/-! ## Writing -/

theorem Fills.writes_eq (hfills : Fills devices buses table)
    (created : UInt64) :
    writes devices buses created =
      ([⟨headerSize, body buses table⟩,
        ⟨0, (headerOf devices buses created table).encode⟩],
        .ok (layout devices buses created table).length) := by
  have hdevices : devices.isEmpty = false := by
    simpa using hfills.devices_ne_nil
  have hbuses : buses.isEmpty = false := by
    simpa using hfills.buses_ne_nil
  unfold writes
  rw [hdevices, hbuses, if_neg Bool.false_ne_true,
    if_neg Bool.false_ne_true, if_neg (Nat.not_le.mpr hfills.devices_length),
    if_neg (Nat.not_le.mpr hfills.buses_length), layout_length]
  simp only [hfills.table_eq]
  rfl

/-- Lists that do not fill a snapshot fail, after at most the records in front
of the first that does not fit. -/
theorem writes_cases (devices : List DeviceRecord)
    (buses : List BusRecord) (created : UInt64) :
    (∃ table, Fills devices buses table) ∨
      ∃ error, writes devices buses created = ([], .error error) ∨
        writes devices buses created =
          ([⟨headerSize, (encodeRecords devices).1⟩], .error error) := by
  unfold writes
  split
  next => exact Or.inr ⟨_, Or.inl rfl⟩
  next hdevices =>
    split
    next => exact Or.inr ⟨_, Or.inl rfl⟩
    next hbuses =>
      split
      next => exact Or.inr ⟨_, Or.inl rfl⟩
      next hdeviceCount =>
        split
        next => exact Or.inr ⟨_, Or.inl rfl⟩
        next hbusCount =>
          cases hrecords : (encodeRecords devices).2 with
          | some error =>
              refine Or.inr ⟨error, Or.inr ?_⟩
              simp only [hrecords]
          | none =>
              exact Or.inl ⟨(encodeRecords devices).1,
                by simpa using hdevices, by simpa using hbuses,
                Nat.not_le.mp hdeviceCount, Nat.not_le.mp hbusCount,
                Prod.ext rfl hrecords⟩

theorem exists_fills_of_writes {created : UInt64} {size : Nat}
    (hok : (writes devices buses created).2 = .ok size) :
    ∃ table, Fills devices buses table := by
  rcases writes_cases devices buses created with
    hfills | ⟨error, hnothing | hrecords⟩
  · exact hfills
  · rw [hnothing] at hok
    contradiction
  · rw [hrecords] at hok
    contradiction

/-- The body is written behind the place of the header, the header last; the
outcome is the same as of one write of the finished snapshot. -/
theorem Fills.writeAt_eq (hfills : Fills devices buses table)
    (created : UInt64) (buffer : Bytes) (start : Nat) :
    writeAt buffer start devices buses created =
      (buffer.overwrite start (layout devices buses created table),
        .ok (layout devices buses created table).length) := by
  unfold writeAt
  rw [hfills.writes_eq created]
  have hheader :=
    (headerOf devices buses created table).encode_length
  simp only [perform, List.foldl_cons, List.foldl_nil, Nat.add_zero]
  rw [← hheader, Bytes.overwrite_prepend]
  rfl

theorem encode_eq_ok_iff {created : UInt64} {content : Bytes} :
    encode devices buses created = .ok content ↔
      ∃ table, Fills devices buses table ∧
        content = layout devices buses created table := by
  have hwritten : encode devices buses created =
      (writeAt [] 0 devices buses created).2.map fun _ =>
        (writeAt [] 0 devices buses created).1 := rfl
  rw [hwritten]
  constructor
  · intro hencode
    cases hsize : (writeAt [] 0 devices buses created).2 with
    | error error =>
        rw [hsize] at hencode
        contradiction
    | ok size =>
        obtain ⟨table, hfills⟩ := exists_fills_of_writes hsize
        rw [hfills.writeAt_eq created [] 0, Bytes.nil_overwrite_zero]
          at hencode
        exact ⟨table, hfills, (Except.ok.inj hencode).symm⟩
  · intro hparts
    rcases hparts with ⟨table, hfills, rfl⟩
    rw [hfills.writeAt_eq created [] 0, Bytes.nil_overwrite_zero]
    rfl

end Filled

/-! ## Reading -/

theorem decodeAt_eq_ok_iff {content : Bytes} {position : Nat}
    {snapshot : Snapshot} :
    decodeAt content position = .ok snapshot ↔
      ∃ rest, (reader (content.drop position).length).run
        (content.drop position) = .ok (snapshot, rest) := by
  unfold decodeAt
  simp only
  cases (reader (content.drop position).length).run
      (content.drop position) with
  | error error => simp [Except.map]
  | ok result => simp [Except.map, Prod.ext_iff]

theorem eq_headerOf {header : Header} {devices : List DeviceRecord}
    {buses : List BusRecord} {table : Bytes}
    (hsize : header.fileSize.toNat =
      headerSize + (body buses table).length)
    (hdevices : devices.length = header.deviceCount.toNat)
    (hbuses : buses.length = header.busCount.toNat) :
    header = headerOf devices buses header.created table := by
  unfold headerOf
  rw [← hsize, hdevices, hbuses, UInt64.ofNat_toNat, UInt32.ofNat_toNat,
    UInt32.ofNat_toNat]

theorem exists_layout_of_reader {input rest : Bytes}
    {snapshot : Snapshot}
    (hread : (reader input.length).run input = .ok (snapshot, rest)) :
    (∀ record ∈ snapshot.devices, record.KeptExactly) ∧
      ∃ table, Fills snapshot.devices snapshot.buses table ∧
        input = layout snapshot.devices snapshot.buses
          snapshot.created table := by
  unfold reader at hread
  simp only [Reader.run_bind_eq_ok_iff, Header.run_read_eq_ok_iff]
    at hread
  obtain ⟨header, afterHeader, hinput, hread⟩ := hread
  split at hread
  next => exact (Reader.run_fail_ne_ok hread).elim
  next hsize =>
    split at hread
    next => exact (Reader.run_fail_ne_ok hread).elim
    next hdeviceCount =>
      split at hread
      next => exact (Reader.run_fail_ne_ok hread).elim
      next hbusCount =>
        split at hread
        next => exact (Reader.run_fail_ne_ok hread).elim
        next =>
          simp only [Reader.run_bind_eq_ok_iff,
            run_readRecords_eq_ok_iff, run_readBuses_eq_ok_iff,
            Reader.run_get_eq_ok_iff] at hread
          obtain ⟨devices, _, ⟨hdevices, hkept, table, htable, _, rfl⟩,
            buses, _, ⟨hbuses, rfl⟩, _, trailing, ⟨rfl, rfl⟩, hread⟩ :=
            hread
          split at hread
          next htrailing =>
            obtain ⟨rfl, rfl⟩ := Reader.run_pure_eq_ok_iff.mp hread
            have hempty : trailing = [] := by simpa using htrailing
            subst trailing
            rw [List.append_nil] at hinput
            have hlength : input.length =
                headerSize + (body buses table).length := by
              rw [hinput, List.length_append, Header.encode_length]
              rfl
            have hheader :
                header = headerOf devices buses header.created table :=
              eq_headerOf
                ((Classical.not_not.mp hsize).trans hlength)
                hdevices hbuses
            refine ⟨hkept, table, ⟨?_, ?_, ?_, ?_, htable⟩, ?_⟩
            · intro hnil
              exact hdeviceCount
                (hdevices.symm.trans (List.length_eq_zero_iff.mpr hnil))
            · intro hnil
              exact hbusCount
                (hbuses.symm.trans (List.length_eq_zero_iff.mpr hnil))
            · rw [hdevices]
              exact header.deviceCount.toNat_lt
            · rw [hbuses]
              exact header.busCount.toNat_lt
            · rw [layout, ← hheader]
              exact hinput
          next => exact (Reader.run_fail_ne_ok hread).elim

theorem reader_layout {devices : List DeviceRecord}
    {buses : List BusRecord} {table : Bytes}
    (hfills : Fills devices buses table) (created : UInt64)
    (hkept : ∀ record ∈ devices, record.KeptExactly) :
    (reader (layout devices buses created table).length).run
        (layout devices buses created table) =
      .ok (⟨created, devices, buses⟩, []) := by
  have hdevices := List.length_pos_iff.mpr hfills.devices_ne_nil
  have hbuses := List.length_pos_iff.mpr hfills.buses_ne_nil
  have htable := (encodeRecords_length_bounds hfills.table_eq).1
  have hbody := body_length buses table
  unfold reader
  simp only [Reader.run_bind_eq_ok_iff, Header.run_read_eq_ok_iff]
  refine ⟨headerOf devices buses created table, body buses table, rfl, ?_⟩
  simp only [headerOf, hfills.deviceCount_toNat, hfills.busCount_toNat,
    hfills.fileSize_toNat, layout_length]
  rw [if_neg (by simp), if_neg (by omega), if_neg (by omega),
    if_neg (by omega)]
  simp only [Reader.run_bind_eq_ok_iff, run_readRecords_eq_ok_iff,
    run_readBuses_eq_ok_iff, Reader.run_get_eq_ok_iff]
  refine ⟨devices, buses.flatMap encodeBus,
    ⟨rfl, hkept, table, hfills.table_eq, by omega, rfl⟩,
    buses, [], ⟨rfl, by rw [List.append_nil]⟩, [], [], ⟨rfl, rfl⟩, ?_⟩
  exact Reader.run_pure_eq_ok_iff.mpr ⟨rfl, rfl⟩

/-- The reader accepts exactly the finished snapshots of lists that are kept
exactly. -/
theorem decode_eq_ok_iff_layout {content : Bytes} {snapshot : Snapshot} :
    decode content = .ok snapshot ↔
      (∀ record ∈ snapshot.devices, record.KeptExactly) ∧
        ∃ table, Fills snapshot.devices snapshot.buses table ∧
          content = layout snapshot.devices snapshot.buses
            snapshot.created table := by
  unfold decode
  rw [decodeAt_eq_ok_iff, List.drop_zero]
  constructor
  · intro hparts
    rcases hparts with ⟨rest, hread⟩
    exact exists_layout_of_reader hread
  · intro hparts
    rcases hparts with ⟨hkept, table, hfills, rfl⟩
    exact ⟨[], reader_layout hfills snapshot.created hkept⟩

theorem exists_error_of_ne_ok {content : Bytes}
    (hrefused : ∀ snapshot, decode content ≠ .ok snapshot) :
    ∃ reason, decode content = .error reason := by
  cases hdecode : decode content with
  | error reason => exact ⟨reason, rfl⟩
  | ok snapshot => exact (hrefused snapshot hdecode).elim

end PciInventory.Snapshot
