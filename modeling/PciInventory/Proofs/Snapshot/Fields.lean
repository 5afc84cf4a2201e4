import PciInventory.Snapshot.Format

/-!
# Exact readers

Every reader of the format is exact: it takes a value off the front of its
input if and only if the input begins with the encoding of that value.  Reading
an encoding back and re-encoding what was read are the two directions of this
one statement.  The fields come first, then the two blocks of fixed size.
-/

namespace PciInventory.Snapshot

namespace Reader

theorem run_bind_eq_ok_iff {α β : Type} {reader : Reader α}
    {next : α → Reader β} {input rest : Bytes} {value : β} :
    (reader >>= next).run input = .ok (value, rest) ↔
      ∃ first middle, reader.run input = .ok (first, middle) ∧
        (next first).run middle = .ok (value, rest) := by
  rw [StateT.run_bind]
  cases hfirst : reader.run input with
  | error error => simp [bind, Except.bind]
  | ok result =>
      obtain ⟨first, middle⟩ := result
      simp only [bind, Except.bind, Except.ok.injEq, Prod.mk.injEq]
      constructor
      · intro hnext
        exact ⟨first, middle, ⟨rfl, rfl⟩, hnext⟩
      · intro hparts
        rcases hparts with ⟨_, _, ⟨rfl, rfl⟩, hnext⟩
        exact hnext

theorem run_pure_eq_ok_iff {α : Type} {result value : α}
    {input rest : Bytes} :
    (pure result : Reader α).run input = .ok (value, rest) ↔
      value = result ∧ input = rest := by
  have hrun : (pure result : Reader α).run input =
      .ok (result, input) := rfl
  rw [hrun, Except.ok.injEq, Prod.mk.injEq, eq_comm (a := result)]

theorem run_fail_ne_ok {α : Type} {error : SnapshotError}
    {input rest : Bytes} {value : α} :
    (fail error : Reader α).run input ≠ .ok (value, rest) := by
  intro hok
  cases hok

theorem run_get_eq_ok_iff {input rest value : Bytes} :
    (get : Reader Bytes).run input = .ok (value, rest) ↔
      value = input ∧ rest = input := by
  have hrun : (get : Reader Bytes).run input = .ok (input, input) := rfl
  rw [hrun, Except.ok.injEq, Prod.mk.injEq, eq_comm (a := input),
    eq_comm (a := input)]

theorem run_bytes_eq_ok_iff {width : Nat} {input field rest : Bytes} :
    (bytes width).run input = .ok (field, rest) ↔
      field.length = width ∧ input = field ++ rest := by
  have hrun : (bytes width).run input =
      if (input.take width).length = width then
        .ok (input.take width, input.drop width)
      else .error (.io .endOfData) := rfl
  rw [hrun]
  constructor
  · intro hok
    split at hok
    next hwidth =>
      simp only [Except.ok.injEq, Prod.mk.injEq] at hok
      obtain ⟨rfl, rfl⟩ := hok
      exact ⟨hwidth, (List.take_append_drop width input).symm⟩
    next => contradiction
  · intro hparts
    rcases hparts with ⟨rfl, rfl⟩
    simp

theorem run_number_eq_ok_iff {width value : Nat} {input rest : Bytes} :
    (number width).run input = .ok (value, rest) ↔
      value < Bytes.capacity width ∧
        input = Bytes.littleEndian width value ++ rest := by
  unfold number
  simp only [run_bind_eq_ok_iff, run_bytes_eq_ok_iff, run_pure_eq_ok_iff]
  constructor
  · intro hparts
    rcases hparts with ⟨field, middle, ⟨rfl, rfl⟩, rfl, rfl⟩
    exact ⟨Bytes.toNumber_lt field,
      by rw [Bytes.littleEndian_toNumber field]⟩
  · intro hparts
    rcases hparts with ⟨hvalue, rfl⟩
    refine ⟨Bytes.littleEndian width value, rest,
      ⟨Bytes.littleEndian_length width value, rfl⟩, ?_, rfl⟩
    rw [Bytes.toNumber_littleEndian, Nat.mod_eq_of_lt hvalue]

/-- The four word readers are instances. -/
theorem run_word_eq_ok_iff {Word : Type} {ofNat : Nat → Word}
    (toNat : Word → Nat) {width : Nat}
    (hofNat : ∀ word, ofNat (toNat word) = word)
    (htoNat : ∀ value, toNat (ofNat value) = value % Bytes.capacity width)
    {input rest : Bytes} {word : Word} :
    (do return ofNat (← number width) : Reader Word).run input =
        .ok (word, rest) ↔
      input = Bytes.littleEndian width (toNat word) ++ rest := by
  simp only [run_bind_eq_ok_iff, run_number_eq_ok_iff, run_pure_eq_ok_iff]
  constructor
  · intro hparts
    rcases hparts with ⟨value, middle, ⟨hlt, rfl⟩, rfl, rfl⟩
    rw [htoNat, Nat.mod_eq_of_lt hlt]
  · intro hinput
    have hlt : toNat word < Bytes.capacity width := by
      rw [← hofNat word, htoNat]
      exact Nat.mod_lt _ (Bytes.capacity_pos width)
    exact ⟨toNat word, rest, ⟨hlt, hinput⟩, (hofNat word).symm, rfl⟩

theorem run_word8_eq_ok_iff {input rest : Bytes} {word : UInt8} :
    word8.run input = .ok (word, rest) ↔ input = word :: rest := by
  have hbyte : Bytes.littleEndian 1 word.toNat ++ rest = word :: rest := by
    simp
  rw [← hbyte]
  exact run_word_eq_ok_iff UInt8.toNat
    (fun _ => UInt8.ofNat_toNat) (fun _ => UInt8.toNat_ofNat')

theorem run_word16_eq_ok_iff {input rest : Bytes} {word : UInt16} :
    word16.run input = .ok (word, rest) ↔
      input = Bytes.littleEndian 2 word.toNat ++ rest :=
  run_word_eq_ok_iff UInt16.toNat
    (fun _ => UInt16.ofNat_toNat) (fun _ => UInt16.toNat_ofNat')

theorem run_word32_eq_ok_iff {input rest : Bytes} {word : UInt32} :
    word32.run input = .ok (word, rest) ↔
      input = Bytes.littleEndian 4 word.toNat ++ rest :=
  run_word_eq_ok_iff UInt32.toNat
    (fun _ => UInt32.ofNat_toNat) (fun _ => UInt32.toNat_ofNat')

theorem run_word64_eq_ok_iff {input rest : Bytes} {word : UInt64} :
    word64.run input = .ok (word, rest) ↔
      input = Bytes.littleEndian 8 word.toNat ++ rest :=
  run_word_eq_ok_iff UInt64.toNat
    (fun _ => UInt64.ofNat_toNat) (fun _ => UInt64.toNat_ofNat')

theorem run_flag_eq_ok_iff {reason : String} {input rest : Bytes}
    {value : Bool} :
    (flag reason).run input = .ok (value, rest) ↔
      input = flagByte value :: rest := by
  unfold flag
  simp only [run_bind_eq_ok_iff, run_word8_eq_ok_iff]
  constructor
  · intro hparts
    rcases hparts with ⟨byte, middle, rfl, hvalue⟩
    split at hvalue
    next hzero =>
      obtain ⟨rfl, rfl⟩ := run_pure_eq_ok_iff.mp hvalue
      simp [flagByte, hzero]
    next =>
      split at hvalue
      next hone =>
        obtain ⟨rfl, rfl⟩ := run_pure_eq_ok_iff.mp hvalue
        simp [flagByte, hone]
      next => exact (run_fail_ne_ok hvalue).elim
  · intro hinput
    subst hinput
    refine ⟨flagByte value, rest, rfl, ?_⟩
    cases value <;> rfl

theorem run_terminated_eq_ok_iff {length : Nat} {input rest : Bytes}
    {text : String} :
    (terminated length).run input = .ok (text, rest) ↔
      length = (Bytes.ofText text).length + 1 ∧
        0 ∉ Bytes.ofText text ∧
        input = Bytes.ofText text ++ 0 :: rest := by
  unfold terminated
  simp only [run_bind_eq_ok_iff, run_bytes_eq_ok_iff]
  constructor
  · intro hparts
    rcases hparts with ⟨field, middle, ⟨rfl, rfl⟩, htext⟩
    split at htext
    next => exact (run_fail_ne_ok htext).elim
    next hlast =>
      split at htext
      next => exact (run_fail_ne_ok htext).elim
      next hzero =>
        split at htext
        next decoded hdecode =>
          obtain ⟨rfl, rfl⟩ := run_pure_eq_ok_iff.mp htext
          have hname : field.dropLast = Bytes.ofText text :=
            Utf8.decode?_eq_some_iff.mp hdecode
          have hfield : field = Bytes.ofText text ++ [0] := by
            rw [← hname]
            obtain ⟨front, hfront⟩ :=
              List.getLast?_eq_some_iff.mp (Classical.not_not.mp hlast)
            simp [hfront]
          rw [hname] at hzero
          refine ⟨?_, by simpa using hzero, ?_⟩
          · rw [hfield]
            simp
          · rw [hfield]
            simp
        next => exact (run_fail_ne_ok htext).elim
  · intro hparts
    rcases hparts with ⟨rfl, hzero, rfl⟩
    refine ⟨Bytes.ofText text ++ [0], rest, ⟨by simp, by simp⟩, ?_⟩
    have hdecode : Utf8.decode? (Bytes.ofText text) = some text :=
      Utf8.decode?_eq_some_iff.mpr rfl
    simp only [List.getLast?_concat, ne_eq, not_true_eq_false, if_false,
      List.dropLast_concat, List.contains_iff_mem, hzero, hdecode]
    exact run_pure_eq_ok_iff.mpr ⟨rfl, rfl⟩

end Reader

namespace Header

theorem encode_length (header : Header) :
    header.encode.length = headerSize := by
  simp [encode, magic, headerSize]

theorem run_read_eq_ok_iff {input rest : Bytes} {header : Header} :
    read.run input = .ok (header, rest) ↔
      input = header.encode ++ rest := by
  unfold read
  simp only [Reader.run_bind_eq_ok_iff, Reader.run_bytes_eq_ok_iff]
  constructor
  · intro hparts
    rcases hparts with ⟨mark, afterMark, ⟨_, rfl⟩, hheader⟩
    split at hheader
    next => exact (Reader.run_fail_ne_ok hheader).elim
    next hmark =>
      simp only [Reader.run_bind_eq_ok_iff, Reader.run_word64_eq_ok_iff,
        Reader.run_word32_eq_ok_iff, Reader.run_pure_eq_ok_iff] at hheader
      obtain ⟨created, _, rfl, fileSize, _, rfl, deviceCount, _, rfl,
        busCount, _, rfl, rfl, rfl⟩ := hheader
      rw [Classical.not_not.mp hmark]
      simp only [encode, List.append_assoc]
  · intro hinput
    subst hinput
    simp only [encode, List.append_assoc]
    refine ⟨magic, _, ⟨rfl, rfl⟩, ?_⟩
    simp only [ne_eq, not_true_eq_false, if_false,
      Reader.run_bind_eq_ok_iff, Reader.run_word64_eq_ok_iff,
      Reader.run_word32_eq_ok_iff, Reader.run_pure_eq_ok_iff]
    exact ⟨header.created, _, rfl, header.fileSize, _, rfl,
      header.deviceCount, _, rfl, header.busCount, _, rfl, rfl, rfl⟩

end Header

namespace StaticBlock

theorem encode_length (block : StaticBlock) :
    block.encode.length = staticSize := by
  simp [encode, staticSize]

theorem run_read_eq_ok_iff {input rest : Bytes} {block : StaticBlock} :
    read.run input = .ok (block, rest) ↔
      input = block.encode ++ rest := by
  unfold read
  simp only [Reader.run_bind_eq_ok_iff, Reader.run_word64_eq_ok_iff,
    Reader.run_flag_eq_ok_iff, Reader.run_word8_eq_ok_iff,
    Reader.run_word16_eq_ok_iff, Reader.run_pure_eq_ok_iff]
  constructor
  · intro hparts
    rcases hparts with ⟨address, _, rfl, isExtended, _, rfl,
      resourceCount, _, rfl, numaNode, _, rfl, iommuGroup, _, rfl,
      driverLength, _, rfl, isFinal, _, rfl, rfl, rfl⟩
    simp only [encode, List.append_assoc, List.cons_append, List.nil_append]
  · intro hinput
    subst hinput
    simp only [encode, List.append_assoc, List.cons_append, List.nil_append]
    exact ⟨block.address, _, rfl, block.isExtended, _, rfl,
      block.resourceCount, _, rfl, block.numaNode, _, rfl,
      block.iommuGroup, _, rfl, block.driverLength, _, rfl,
      block.isFinal, _, rfl, rfl, rfl⟩

end StaticBlock

end PciInventory.Snapshot
