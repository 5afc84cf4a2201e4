import PciInventory.Proofs.Snapshot.RoundTrip

/-!
# Snapshots cut short or padded

Where a snapshot ends follows from its counts and its records; the size in the
header only has to agree with that.  So two accepted snapshots with the same
counts, of which one goes on where the other ends, are of one length, and
setting the size field right does not save content that has been cut or
padded.
-/

namespace PciInventory.Snapshot

/-- The content with its own length written into the size field. -/
def withOwnSize (content : Bytes) : Bytes :=
  content.overwrite fileSizeOffset (Bytes.littleEndian 8 content.length)

theorem littleEndian_eight_toNat (number : Nat) :
    Bytes.littleEndian 8 (UInt64.ofNat number).toNat =
      Bytes.littleEndian 8 number := by
  have hnumber : (UInt64.ofNat number).toNat =
      Bytes.toNumber (Bytes.littleEndian 8 number) := by
    rw [Bytes.toNumber_littleEndian, UInt64.toNat_ofNat']
    rfl
  have hbytes := Bytes.littleEndian_toNumber (Bytes.littleEndian 8 number)
  rw [Bytes.littleEndian_length] at hbytes
  rw [hnumber, hbytes]

theorem Header.encode_append_inj {header other : Header}
    {rest otherRest : Bytes}
    (happend : header.encode ++ rest = other.encode ++ otherRest) :
    header = other ∧ rest = otherRest := by
  have hread : Header.read.run (header.encode ++ rest) =
      .ok (header, rest) :=
    Header.run_read_eq_ok_iff.mpr rfl
  have hother : Header.read.run (header.encode ++ rest) =
      .ok (other, otherRest) :=
    Header.run_read_eq_ok_iff.mpr happend
  rw [hread] at hother
  simpa using hother

/-- The size field can be set without touching anything else. -/
theorem Header.withOwnSize_append (header : Header) (rest : Bytes) :
    withOwnSize (header.encode ++ rest) =
      ({ header with
        fileSize := UInt64.ofNat (header.encode ++ rest).length } :
          Header).encode ++ rest := by
  generalize hlength : (header.encode ++ rest).length = length
  have hfront : (magic ++
      Bytes.littleEndian 8 header.created.toNat).length =
        fileSizeOffset := by
    simp [magic, fileSizeOffset]
  have hfield :
      ((magic ++ Bytes.littleEndian 8 header.created.toNat) ++
        (Bytes.littleEndian 8 header.fileSize.toNat ++
          (Bytes.littleEndian 4 header.deviceCount.toNat ++
            (Bytes.littleEndian 4 header.busCount.toNat ++
              rest)))).overwrite
          (magic ++ Bytes.littleEndian 8 header.created.toNat).length
          (Bytes.littleEndian 8 length) = _ :=
    Bytes.overwrite_field _ _ (by simp)
  rw [hfront] at hfield
  rw [withOwnSize, hlength]
  simp only [encode, littleEndian_eight_toNat, List.append_assoc]
    at hfield ⊢
  exact hfield

/-! ## Where a snapshot ends -/

theorem exists_header_of_decode {content : Bytes} {snapshot : Snapshot}
    (hdecode : decode content = .ok snapshot) :
    ∃ header rest, content = Header.encode header ++ rest ∧
      header.fileSize = UInt64.ofNat content.length := by
  obtain ⟨_, table, _, hcontent⟩ := decode_eq_ok_iff_layout.mp hdecode
  have hlength := layout_length snapshot.devices snapshot.buses
    snapshot.created table
  rw [← hcontent] at hlength
  exact ⟨headerOf snapshot.devices snapshot.buses snapshot.created table,
    body snapshot.buses table, hcontent, by rw [hlength, headerOf]⟩

/-- What follows the header of an accepted snapshot, in terms of its two
counts. -/
theorem exists_body_of_decode {header : Header} {rest : Bytes}
    {snapshot : Snapshot}
    (hdecode : decode (header.encode ++ rest) = .ok snapshot) :
    ∃ table, encodeRecords snapshot.devices = (table, none) ∧
      rest = table ++ snapshot.buses.flatMap encodeBus ∧
      snapshot.devices.length = header.deviceCount.toNat ∧
      snapshot.buses.length = header.busCount.toNat := by
  obtain ⟨_, table, hfills, hcontent⟩ :=
    decode_eq_ok_iff_layout.mp hdecode
  obtain ⟨hheader, hrest⟩ := Header.encode_append_inj hcontent
  have hdevices := hfills.deviceCount_toNat
  have hbuses := hfills.busCount_toNat
  exact ⟨table, hfills.table_eq, hrest, by rw [hheader]; exact hdevices.symm,
    by rw [hheader]; exact hbuses.symm⟩

/-- With the same counts an accepted snapshot cannot go on where another one
ends. -/
theorem eq_of_prefix_of_decode {header other : Header}
    {rest otherRest : Bytes} {snapshot otherSnapshot : Snapshot}
    (hdecode : decode (header.encode ++ rest) = .ok snapshot)
    (hother : decode (other.encode ++ otherRest) = .ok otherSnapshot)
    (hdevices : header.deviceCount = other.deviceCount)
    (hbuses : header.busCount = other.busCount)
    (hshorter : rest <+: otherRest) : rest = otherRest := by
  obtain ⟨table, htable, hrest, hdeviceCount, hbusCount⟩ :=
    exists_body_of_decode hdecode
  obtain ⟨otherTable, hotherTable, hotherRest, hotherDeviceCount,
    hotherBusCount⟩ := exists_body_of_decode hother
  obtain ⟨tail, htail⟩ := hshorter
  have hrecords : snapshot.devices.length = otherSnapshot.devices.length := by
    rw [hdeviceCount, hotherDeviceCount, hdevices]
  have happend : table ++ (snapshot.buses.flatMap encodeBus ++ tail) =
      otherTable ++ otherSnapshot.buses.flatMap encodeBus := by
    rw [← hotherRest, ← htail, hrest, List.append_assoc]
  obtain ⟨_, hbusTable⟩ :=
    encodeRecords_append_inj htable hotherTable hrecords happend
  -- Bus records are all of one size, so nothing is left for the tail.
  have hlength := congrArg List.length hbusTable
  rw [List.length_append, flatMap_encodeBus_length, flatMap_encodeBus_length,
    hbusCount, hotherBusCount, hbuses] at hlength
  have hnil : tail = [] := List.eq_nil_of_length_eq_zero (by omega)
  rw [← htail, hnil, List.append_nil]

/-- Of what stands behind one header, only one part can be accepted. -/
theorem refused_of_shorter {header : Header} {rest otherRest : Bytes}
    (hne : rest ≠ otherRest) (hshorter : rest <+: otherRest) :
    (∀ snapshot, decode (header.encode ++ rest) = .ok snapshot →
      ∃ reason,
        decode (withOwnSize (header.encode ++ otherRest)) = .error reason) ∧
    ∀ snapshot, decode (header.encode ++ otherRest) = .ok snapshot →
      ∃ reason,
        decode (withOwnSize (header.encode ++ rest)) = .error reason := by
  constructor
  · intro snapshot hdecode
    apply exists_error_of_ne_ok
    intro other hother
    rw [Header.withOwnSize_append] at hother
    exact hne (eq_of_prefix_of_decode hdecode hother rfl rfl hshorter)
  · intro snapshot hdecode
    apply exists_error_of_ne_ok
    intro other hother
    rw [Header.withOwnSize_append] at hother
    exact hne (eq_of_prefix_of_decode hother hdecode rfl rfl hshorter)

/-- An accepted snapshot holds its own size.  Without some of its last bytes,
as long as the header is kept, or with more bytes behind it, it is refused
although the size is set right again. -/
theorem resized_refused {content : Bytes} {snapshot : Snapshot}
    (hdecode : decode content = .ok snapshot) :
    withOwnSize content = content ∧
      (∀ count, 1 ≤ count → headerSize + count ≤ content.length →
        ∃ reason,
          decode (withOwnSize
            (content.take (content.length - count))) = .error reason) ∧
      ∀ padding, 1 ≤ padding.length →
        ∃ reason,
          decode (withOwnSize (content ++ padding)) = .error reason := by
  obtain ⟨header, rest, hcontent, hsize⟩ := exists_header_of_decode hdecode
  have hlength : content.length = headerSize + rest.length := by
    rw [hcontent, List.length_append, Header.encode_length]
  refine ⟨?_, ?_, ?_⟩
  · rw [hcontent, Header.withOwnSize_append, ← hcontent, ← hsize, hcontent]
  · intro count hcount hkept
    have htake : content.take (content.length - count) =
        header.encode ++ rest.take (rest.length - count) := by
      rw [hcontent, List.take_append, List.take_of_length_le, ← hcontent,
        Header.encode_length]
      · congr 2
        omega
      · rw [← hcontent, Header.encode_length]
        omega
    have hne : rest.take (rest.length - count) ≠ rest := by
      intro heq
      have htaken := congrArg List.length heq
      rw [List.length_take] at htaken
      omega
    rw [htake]
    rw [hcontent] at hdecode
    exact (refused_of_shorter hne (List.take_prefix _ _)).2 snapshot hdecode
  · intro padding hpadding
    have hne : rest ≠ rest ++ padding := by
      intro heq
      have hadded := congrArg List.length heq
      rw [List.length_append] at hadded
      omega
    rw [hcontent] at hdecode ⊢
    rw [List.append_assoc]
    exact (refused_of_shorter hne (List.prefix_append _ _)).1 snapshot hdecode

/-- The bus record is cut off, and another one is put behind. -/
theorem resized_refused_smallestContent :
    decode smallestContent = .ok smallestSnapshot ∧
      withOwnSize smallestContent = smallestContent ∧
      (∃ reason,
        decode (withOwnSize
          (smallestContent.take (smallestContent.length - 6))) =
            .error reason) ∧
      ∃ reason,
        decode (withOwnSize
          (smallestContent ++ encodeBus ⟨⟨0, 1⟩, false⟩)) =
            .error reason := by
  have hdecode : decode smallestContent = .ok smallestSnapshot := by
    decide +kernel
  have hrefused := resized_refused hdecode
  exact ⟨hdecode, hrefused.1,
    hrefused.2.1 6 (by decide) (by decide +kernel),
    hrefused.2.2 (encodeBus ⟨⟨0, 1⟩, false⟩) (by decide +kernel)⟩

end PciInventory.Snapshot
