import PciInventory.Proofs.Snapshot.RoundTrip

/-!
# Interrupted writes

The header is written last and its bus count last of all.  As long as a byte of
the bus count is missing, either the count reads zero or it does not account
for the bus table behind the device table, which the other header fields and
the records already determine.  So whatever prefix of the byte writes has been
performed, the content is refused unless it is the finished snapshot.
-/

namespace PciInventory.Snapshot

/-- The writes of single bytes that make up one write. -/
def bytewise (offset : Nat) : Bytes → List Write
  | [] => []
  | byte :: rest => ⟨offset, [byte]⟩ :: bytewise (offset + 1) rest

/-- The bytes written for a snapshot, one by one in their order. -/
def byteWrites (devices : List DeviceRecord) (buses : List BusRecord)
    (created : UInt64) : List Write :=
  (writes devices buses created).1.flatMap fun write =>
    bytewise write.offset write.content

theorem bytewise_length (offset : Nat) (content : Bytes) :
    (bytewise offset content).length = content.length := by
  induction content generalizing offset with
  | nil => rfl
  | cons byte rest ih => simp [bytewise, ih]

theorem perform_append (start : Nat) (buffer : Bytes)
    (first second : List Write) :
    perform start buffer (first ++ second) =
      perform start (perform start buffer first) second :=
  List.foldl_append

theorem perform_take_bytewise (start : Nat) (buffer : Bytes)
    (offset : Nat) (content : Bytes) (count : Nat) :
    perform start buffer ((bytewise offset content).take count) =
      buffer.overwrite (start + offset) (content.take count) := by
  induction content generalizing offset buffer count with
  | nil => simp [bytewise, perform]
  | cons byte rest ih =>
      cases count with
      | zero => simp [perform]
      | succ count =>
          have hstep :
              perform start buffer
                  ((bytewise offset (byte :: rest)).take (count + 1)) =
                perform start (buffer.overwrite (start + offset) [byte])
                  ((bytewise (offset + 1) rest).take count) := rfl
          rw [hstep, ih, List.take_succ_cons]
          exact buffer.overwrite_append (start + offset) [byte]
            (rest.take count)

theorem perform_flatMap_bytewise (start : Nat) (buffer : Bytes)
    (made : List Write) :
    perform start buffer
        (made.flatMap fun write => bytewise write.offset write.content) =
      perform start buffer made := by
  induction made generalizing buffer with
  | nil => rfl
  | cons write rest ih =>
      have hwhole := perform_take_bytewise start buffer write.offset
        write.content write.content.length
      rw [List.take_of_length_le (Nat.le_of_eq (bytewise_length _ _)),
        List.take_length] at hwhole
      rw [List.flatMap_cons, perform_append, hwhole, ih]
      rfl

theorem perform_byteWrites (devices : List DeviceRecord)
    (buses : List BusRecord) (created : UInt64) (start : Nat)
    (buffer : Bytes) :
    perform start buffer (byteWrites devices buses created) =
      (writeAt buffer start devices buses created).1 :=
  perform_flatMap_bytewise start buffer (writes devices buses created).1

/-! ## What a cut leaves -/

theorem Fills.perform_take_byteWrites {devices : List DeviceRecord}
    {buses : List BusRecord} {table : Bytes}
    (hfills : Fills devices buses table) (created : UInt64)
    (count : Nat) :
    perform 0 [] ((byteWrites devices buses created).take count) =
      (Bytes.overwrite [] headerSize
        ((body buses table).take count)).overwrite 0
          ((headerOf devices buses created table).encode.take
            (count - (body buses table).length)) := by
  unfold byteWrites
  rw [hfills.writes_eq created]
  simp only [List.flatMap_cons, List.flatMap_nil, List.append_nil,
    List.take_append, bytewise_length]
  rw [perform_append, perform_take_bytewise, perform_take_bytewise,
    Nat.zero_add]

/-- Lists that do not fill a snapshot leave some records and no header. -/
theorem exists_perform_take_byteWrites {devices : List DeviceRecord}
    {buses : List BusRecord} (created : UInt64)
    (hunfilled : ¬∃ table, Fills devices buses table) (count : Nat) :
    ∃ piece,
      perform 0 [] ((byteWrites devices buses created).take count) =
        Bytes.overwrite [] headerSize piece := by
  unfold byteWrites
  rcases writes_cases devices buses created with
    hfills | ⟨error, hnothing | hrecords⟩
  · exact (hunfilled hfills).elim
  · rw [hnothing]
    exact ⟨[], by simp [perform]⟩
  · rw [hrecords]
    refine ⟨(encodeRecords devices).1.take count, ?_⟩
    simp only [List.flatMap_cons, List.flatMap_nil, List.append_nil]
    rw [perform_take_bytewise, Nat.zero_add]

/-! ## What the reader makes of it -/

theorem toNumber_littleEndian_word32 (word : UInt32) :
    Bytes.toNumber (Bytes.littleEndian 4 word.toNat) = word.toNat := by
  have hlt : word.toNat < Bytes.capacity 4 := word.toNat_lt
  rw [Bytes.toNumber_littleEndian, Nat.mod_eq_of_lt hlt]

/-- The header up to its last field. -/
def Header.front (header : Header) : Bytes :=
  magic ++
    Bytes.littleEndian 8 header.created.toNat ++
    Bytes.littleEndian 8 header.fileSize.toNat ++
    Bytes.littleEndian 4 header.deviceCount.toNat

theorem Header.encode_eq_front (header : Header) :
    header.encode =
      header.front ++ Bytes.littleEndian 4 header.busCount.toNat := rfl

theorem Header.front_length (header : Header) :
    header.front.length = 25 := by
  simp [front, magic]

theorem layout_eq_front (devices : List DeviceRecord)
    (buses : List BusRecord) (created : UInt64) (table : Bytes) :
    layout devices buses created table =
      (headerOf devices buses created table).front ++
        (Bytes.littleEndian 4 (UInt32.ofNat buses.length).toNat ++
          body buses table) := by
  rw [layout, Header.encode_eq_front, List.append_assoc]
  rfl

/-- No snapshot without a byte of its bus count. -/
theorem exists_busCount_byte {content : Bytes} {snapshot : Snapshot}
    (hdecode : decode content = .ok snapshot) :
    ∃ position byte, 25 ≤ position ∧ position < headerSize ∧
      content[position]? = some byte ∧ byte ≠ 0 := by
  obtain ⟨_, table, hfills, rfl⟩ := decode_eq_ok_iff_layout.mp hdecode
  have hcount := hfills.busCount_toNat
  have hpos := List.length_pos_iff.mpr hfills.buses_ne_nil
  obtain ⟨byte, hmem, hne⟩ :
      ∃ byte ∈ Bytes.littleEndian 4
        (UInt32.ofNat snapshot.buses.length).toNat, byte ≠ 0 := by
    apply Bytes.exists_ne_zero_of_toNumber_ne_zero
    rw [toNumber_littleEndian_word32]
    omega
  obtain ⟨index, hindex⟩ := List.mem_iff_getElem?.mp hmem
  have hlt : index < 4 := by
    have hlength := (List.getElem?_eq_some_iff.mp hindex).1
    simpa using hlength
  refine ⟨25 + index, byte, by omega, by unfold headerSize; omega, ?_, hne⟩
  rw [layout_eq_front, List.getElem?_append_right
      (by rw [Header.front_length]; omega), Header.front_length,
    Nat.add_sub_cancel_left, List.getElem?_append_left (by simp [hlt])]
  exact hindex

/-- As long as nothing of the bus count is written. -/
theorem decode_ne_ok_of_short_front {piece front : Bytes}
    (hfront : front.length ≤ 25) (snapshot : Snapshot) :
    decode ((Bytes.overwrite [] headerSize piece).overwrite 0 front) ≠
      .ok snapshot := by
  intro hdecode
  obtain ⟨position, byte, hleast, hlt, hbyte, hne⟩ :=
    exists_busCount_byte hdecode
  have hrecords : (Bytes.overwrite [] headerSize piece)[position]? =
      some byte := by
    by_cases hempty : front = []
    · rw [hempty, Bytes.overwrite_nil] at hbyte
      exact hbyte
    · rw [Bytes.getElem?_overwrite hempty, if_neg (by omega),
        if_neg (by omega)] at hbyte
      exact hbyte
  by_cases hpiece : piece = []
  · rw [hpiece, Bytes.overwrite_nil] at hrecords
    simp at hrecords
  · rw [Bytes.getElem?_overwrite hpiece, if_pos hlt] at hrecords
    exact hne (Option.some.inj hrecords).symm

/-- The rest of a snapshot leaves no choice for its bus count. -/
theorem eq_layout_of_decode {devices : List DeviceRecord}
    {buses : List BusRecord} {created : UInt64} {table : Bytes}
    (hfills : Fills devices buses table) {field : Bytes}
    (hfield : field.length = 4) {snapshot : Snapshot}
    (hdecode :
      decode ((headerOf devices buses created table).front ++
        (field ++ body buses table)) = .ok snapshot) :
    (headerOf devices buses created table).front ++
        (field ++ body buses table) =
      layout devices buses created table := by
  obtain ⟨_, other, hother, hcontent⟩ :=
    decode_eq_ok_iff_layout.mp hdecode
  rw [layout_eq_front] at hcontent ⊢
  obtain ⟨hfront, hrest⟩ := List.append_inj hcontent
    (by rw [Header.front_length, Header.front_length])
  obtain ⟨hcount, hbody⟩ := List.append_inj hrest (by simp [hfield])
  have hdevices : snapshot.devices.length = devices.length := by
    have hbytes := (List.append_inj' hfront (by simp)).2
    have hnumber := congrArg Bytes.toNumber hbytes
    rw [toNumber_littleEndian_word32, toNumber_littleEndian_word32]
      at hnumber
    exact (hother.deviceCount_toNat.symm.trans hnumber.symm).trans
      hfills.deviceCount_toNat
  have hbusTable : snapshot.buses.flatMap encodeBus =
      buses.flatMap encodeBus :=
    (encodeRecords_append_inj hother.table_eq hfills.table_eq
      hdevices hbody.symm).2
  have hbuses : snapshot.buses.length = buses.length := by
    have hlength := congrArg List.length hbusTable
    rw [flatMap_encodeBus_length, flatMap_encodeBus_length] at hlength
    unfold busSize at hlength
    omega
  rw [hcount, hbuses]

theorem overwrite_front_of_body {content front : Bytes}
    (hcontent : content ≠ []) (hfront : front.length ≤ headerSize) :
    (Bytes.overwrite [] headerSize content).overwrite 0 front =
      front ++ (List.replicate (headerSize - front.length) 0 ++ content) := by
  have hbody : Bytes.overwrite [] headerSize content =
      List.replicate headerSize 0 ++ content := by
    simp [Bytes.overwrite_of_ne_nil hcontent]
  rw [hbody]
  have hdrop := Bytes.drop_overwrite
    (List.replicate headerSize 0 ++ content) 0 front
  rw [List.drop_zero, Nat.zero_add, List.drop_append_of_le_length
    (by simpa using hfront), List.drop_replicate] at hdrop
  exact hdrop

theorem Fills.cut_in_busCount {devices : List DeviceRecord}
    {buses : List BusRecord} {table : Bytes}
    (hfills : Fills devices buses table) (created : UInt64)
    {count : Nat} (hcount : (body buses table).length + 25 ≤ count) :
    ∃ field : Bytes, field.length = 4 ∧
      perform 0 [] ((byteWrites devices buses created).take count) =
        (headerOf devices buses created table).front ++
          (field ++ body buses table) := by
  rw [hfills.perform_take_byteWrites created count,
    List.take_of_length_le (by omega), Header.encode_eq_front,
    List.take_append, List.take_of_length_le
      (by rw [Header.front_length]; omega), Header.front_length]
  generalize hwritten :
    (Bytes.littleEndian 4
      (headerOf devices buses created table).busCount.toNat).take
        (count - (body buses table).length - 25) = written
  have hlength : written.length ≤ 4 := by
    rw [← hwritten, List.length_take, Bytes.littleEndian_length]
    omega
  rw [overwrite_front_of_body hfills.body_ne_nil
    (by rw [List.length_append, Header.front_length]; unfold headerSize; omega)]
  refine ⟨written ++ List.replicate (4 - written.length) 0, ?_, ?_⟩
  · rw [List.length_append, List.length_replicate]
    omega
  · rw [List.length_append, Header.front_length]
    simp only [headerSize, List.append_assoc]
    rw [show 29 - (25 + written.length) = 4 - written.length by omega]

theorem take_byteWrites_finished_or_refused (devices : List DeviceRecord)
    (buses : List BusRecord) (created : UInt64) (count : Nat) :
    encode devices buses created =
        .ok (perform 0 []
          ((byteWrites devices buses created).take count)) ∨
      ∃ reason,
        decode (perform 0 []
          ((byteWrites devices buses created).take count)) =
            .error reason := by
  by_cases hlists : ∃ table, Fills devices buses table
  · obtain ⟨table, hfills⟩ := hlists
    by_cases hcount : (body buses table).length + 25 ≤ count
    · obtain ⟨field, hfield, hcontent⟩ :=
        hfills.cut_in_busCount created hcount
      rw [hcontent]
      cases hdecode :
          decode ((headerOf devices buses created table).front ++
            (field ++ body buses table)) with
      | error reason => exact Or.inr ⟨reason, rfl⟩
      | ok snapshot =>
          exact Or.inl (encode_eq_ok_iff.mpr
            ⟨table, hfills, eq_layout_of_decode hfills hfield hdecode⟩)
    · right
      apply exists_error_of_ne_ok
      rw [hfills.perform_take_byteWrites created count]
      apply decode_ne_ok_of_short_front
      rw [List.length_take]
      omega
  · right
    apply exists_error_of_ne_ok
    obtain ⟨piece, hpiece⟩ :=
      exists_perform_take_byteWrites created hlists count
    rw [hpiece]
    exact @decode_ne_ok_of_short_front piece [] (Nat.zero_le 25)

/-- Whatever prefix of the byte writes has been performed on an empty buffer,
the content is the finished snapshot, which reads back, or is refused; so is
what a failed write leaves behind. -/
theorem interrupted_write (devices : List DeviceRecord)
    (buses : List BusRecord) (created : UInt64) :
    perform 0 [] (byteWrites devices buses created) =
        (writeAt [] 0 devices buses created).1 ∧
      (∀ count content,
        perform 0 []
            ((byteWrites devices buses created).take count) = content →
          encode devices buses created = .ok content ∧
              decode content =
                .ok ⟨created, devices.map DeviceRecord.stored, buses⟩ ∨
            ∃ reason, decode content = .error reason) ∧
      ∀ error, (writeAt [] 0 devices buses created).2 = .error error →
        ∃ reason,
          decode (writeAt [] 0 devices buses created).1 =
            .error reason := by
  have hall := perform_byteWrites devices buses created 0 []
  refine ⟨hall, ?_, ?_⟩
  · intro count content hcontent
    subst content
    have hcut := take_byteWrites_finished_or_refused devices buses created
      count
    rcases hcut with hencode | hrefused
    · exact Or.inl ⟨hencode, decode_of_encode hencode⟩
    · exact Or.inr hrefused
  · intro error hfailed
    have hcut := take_byteWrites_finished_or_refused devices buses created
      (byteWrites devices buses created).length
    rw [List.take_length, hall] at hcut
    rcases hcut with hencode | hrefused
    · obtain ⟨table, hfills, _⟩ := encode_eq_ok_iff.mp hencode
      rw [hfills.writeAt_eq created [] 0] at hfailed
      contradiction
    · exact hrefused

/-- The second record does not fit the format, so the first one is written and
the header is not. -/
def unfittingDevices : List DeviceRecord :=
  [⟨⟨0, 0, 1, 0⟩, List.replicate 256 0, [], some "ahci", none, none⟩,
    ⟨⟨0, 0, 2, 0⟩, [0x86], [], none, none, none⟩]

theorem interrupted_write_unfittingDevices :
    (writeAt [] 0 unfittingDevices [⟨⟨0, 0⟩, true⟩] 7).2 =
        .error
          (.corrupt "config space is neither 256 nor 4096 bytes") ∧
      (writeAt [] 0 unfittingDevices [⟨⟨0, 0⟩, true⟩] 7).1.length =
        306 ∧
      ∃ reason,
        decode (writeAt [] 0 unfittingDevices [⟨⟨0, 0⟩, true⟩] 7).1 =
          .error reason := by
  have hfailed :
      (writeAt [] 0 unfittingDevices [⟨⟨0, 0⟩, true⟩] 7).2 =
        .error
          (.corrupt "config space is neither 256 nor 4096 bytes") := by
    decide +kernel
  refine ⟨hfailed, by decide +kernel, ?_⟩
  exact (interrupted_write unfittingDevices
    [⟨⟨0, 0⟩, true⟩] 7).2.2 _ hfailed

end PciInventory.Snapshot
