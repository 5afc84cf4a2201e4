import PciInventory.Proofs.Snapshot.Fields
import PciInventory.Snapshot.Reader

/-!
# Widths of readers

Every reader of the format has a width that is known before it starts.  It looks
at that many bytes and at no others, and if they are there it never runs out of
data: it takes all of them or finds fault with them.
-/

namespace PciInventory.Snapshot

namespace Reader

variable {α β : Type} {width : Nat} {reader : Reader α}

/-- The outcome depends on the first `width` bytes alone, and is not that there
are too few. -/
def HasWidth (width : Nat) (reader : Reader α) : Prop :=
  ∀ front : Bytes, front.length = width →
    (∃ value, ∀ tail, reader.run (front ++ tail) = .ok (value, tail)) ∨
      ∃ error, error ≠ .io .endOfData ∧
        ∀ tail, reader.run (front ++ tail) = .error error

theorem HasWidth.pure (value : α) : HasWidth 0 (pure value) := by
  intro front hfront
  rw [List.length_eq_zero_iff.mp hfront]
  exact Or.inl ⟨value, fun _ => rfl⟩

/-- What is refused at once has any width. -/
theorem HasWidth.fail {error : SnapshotError}
    (herror : error ≠ .io .endOfData) :
    HasWidth width (fail error : Reader α) := by
  intro front _
  exact Or.inr ⟨error, herror, fun _ => rfl⟩

theorem HasWidth.bytes (width : Nat) : HasWidth width (bytes width) := by
  intro front hfront
  refine Or.inl ⟨front, fun tail => ?_⟩
  exact run_bytes_eq_ok_iff.mpr ⟨hfront, rfl⟩

theorem HasWidth.bind {later : Nat} {next : α → Reader β}
    (hfirst : HasWidth width reader)
    (hnext : ∀ value, HasWidth later (next value)) :
    HasWidth (width + later) (reader >>= next) := by
  intro front hfront
  have hsplit : front.take width ++ front.drop width = front :=
    List.take_append_drop width front
  have hrun : ∀ tail, (reader >>= next).run (front ++ tail) =
      reader.run (front.take width ++ (front.drop width ++ tail)) >>=
        fun result => (next result.1).run result.2 := by
    intro tail
    rw [StateT.run_bind, ← List.append_assoc, hsplit]
  rcases hfirst (front.take width) (by rw [List.length_take]; omega) with
    ⟨value, htaken⟩ | ⟨error, herror, hfailed⟩
  · have hrest : (front.drop width).length = later := by
      rw [List.length_drop]
      omega
    simp only [hrun, htaken]
    exact hnext value (front.drop width) hrest
  · refine Or.inr ⟨error, herror, fun tail => ?_⟩
    rw [hrun, hfailed]
    rfl

theorem HasWidth.bind_pure {map : α → β} (hreader : HasWidth width reader) :
    HasWidth width (reader >>= fun value => Pure.pure (map value)) :=
  hreader.bind fun value => .pure (map value)

theorem HasWidth.ite {condition : Prop} [Decidable condition]
    {other : Reader α} (hreader : HasWidth width reader)
    (hother : HasWidth width other) :
    HasWidth width (if condition then reader else other) := by
  split
  next => exact hreader
  next => exact hother

theorem HasWidth.of_eq {other : Nat} (hreader : HasWidth width reader)
    (heq : width = other) : HasWidth other reader :=
  heq ▸ hreader

/-! ## What a width is good for -/

theorem HasWidth.length_lt {input : Bytes}
    (hreader : HasWidth width reader)
    (hshort : reader.run input = .error (.io .endOfData)) :
    input.length < width := by
  apply Nat.lt_of_not_ge
  intro henough
  have hfront : (input.take width).length = width := by
    rw [List.length_take]
    omega
  rcases hreader _ hfront with ⟨value, htaken⟩ | ⟨error, herror, hfailed⟩
  · have hrun := htaken (input.drop width)
    rw [List.take_append_drop, hshort] at hrun
    contradiction
  · have hrun := hfailed (input.drop width)
    rw [List.take_append_drop, hshort] at hrun
    exact herror (Except.error.inj hrun).symm

/-- The reader does without the last `reserve` bytes of its input: it does not
run out of data if they are cut off, and what is behind the rest that it leaves
makes no difference. -/
def Spares (reserve : Nat) (input : Bytes) (reader : Reader α) : Prop :=
  ∃ front tail, input = front ++ tail ∧ tail.length = reserve ∧
    reader.run front ≠ .error (.io .endOfData) ∧
    ∀ other, reader.run (front ++ other) =
      (reader.run front).map fun result => (result.1, result.2 ++ other)

theorem HasWidth.spares {reserve : Nat} {input : Bytes}
    (hreader : HasWidth width reader)
    (henough : width + reserve ≤ input.length) :
    reader.Spares reserve input := by
  obtain ⟨keep, hkeep⟩ : ∃ keep, input.length - reserve = keep := ⟨_, rfl⟩
  have hlength : (input.take keep).length = keep := by
    rw [List.length_take]
    omega
  refine ⟨input.take keep, input.drop keep,
    (List.take_append_drop keep input).symm, ?_, ?_, ?_⟩
  · rw [List.length_drop]
    omega
  · intro hshort
    have hlt := hreader.length_lt hshort
    omega
  · intro other
    have hfront : ((input.take keep).take width).length = width := by
      rw [List.length_take]
      omega
    have hsplit : (input.take keep).take width ++
        (input.take keep).drop width = input.take keep :=
      List.take_append_drop width _
    rcases hreader _ hfront with ⟨value, htaken⟩ | ⟨error, _, hfailed⟩
    · have hbare := htaken ((input.take keep).drop width)
      have hmore := htaken ((input.take keep).drop width ++ other)
      rw [hsplit] at hbare
      rw [← List.append_assoc, hsplit] at hmore
      rw [hbare, hmore]
      rfl
    · have hbare := hfailed ((input.take keep).drop width)
      have hmore := hfailed ((input.take keep).drop width ++ other)
      rw [hsplit] at hbare
      rw [← List.append_assoc, hsplit] at hmore
      rw [hbare, hmore]
      rfl

/-! ## Fields -/

theorem word8_hasWidth : HasWidth 1 word8 :=
  (HasWidth.bytes 1).bind_pure.bind_pure

theorem word16_hasWidth : HasWidth 2 word16 :=
  (HasWidth.bytes 2).bind_pure.bind_pure

theorem word32_hasWidth : HasWidth 4 word32 :=
  (HasWidth.bytes 4).bind_pure.bind_pure

theorem word64_hasWidth : HasWidth 8 word64 :=
  (HasWidth.bytes 8).bind_pure.bind_pure

theorem flag_hasWidth (reason : String) : HasWidth 1 (flag reason) :=
  word8_hasWidth.bind fun _ =>
    .ite (.pure _) (.ite (.pure _) (.fail (by simp)))

theorem terminated_hasWidth (length : Nat) :
    HasWidth length (terminated length) := by
  change HasWidth (length + 0) (terminated length)
  refine (HasWidth.bytes length).bind fun field => ?_
  refine .ite (.fail (by simp)) (.ite (.fail (by simp)) ?_)
  split
  next => exact .pure _
  next => exact .fail (by simp)

end Reader

open Reader

/-! ## Blocks and records -/

theorem Header.read_hasWidth : HasWidth headerSize Header.read := by
  change HasWidth (magic.length + 24) Header.read
  refine (HasWidth.bytes magic.length).bind fun mark => ?_
  refine .ite (.fail (by simp)) ?_
  exact word64_hasWidth.bind fun _ => word64_hasWidth.bind fun _ =>
    word32_hasWidth.bind fun _ => word32_hasWidth.bind_pure

theorem StaticBlock.read_hasWidth :
    HasWidth staticSize StaticBlock.read :=
  word64_hasWidth.bind fun _ => (flag_hasWidth _).bind fun _ =>
    word8_hasWidth.bind fun _ => word16_hasWidth.bind fun _ =>
      word16_hasWidth.bind fun _ => word8_hasWidth.bind fun _ =>
        (flag_hasWidth _).bind_pure

theorem readResource_hasWidth : HasWidth resourceSize readResource :=
  word64_hasWidth.bind fun _ => word64_hasWidth.bind fun _ =>
    word64_hasWidth.bind_pure

theorem readResources_hasWidth (count : Nat) :
    HasWidth (count * resourceSize) (readResources count) := by
  induction count with
  | zero =>
      rw [Nat.zero_mul]
      exact .pure []
  | succ count ih =>
      have hboth : HasWidth (resourceSize + count * resourceSize)
          (readResources (count + 1)) :=
        readResource_hasWidth.bind fun _ => ih.bind_pure
      exact hboth.of_eq (by rw [Nat.succ_mul, Nat.add_comm])

theorem readDriver_hasWidth (length : UInt8) :
    HasWidth length.toNat (readDriver length) := by
  unfold readDriver
  split
  next hlength =>
    rw [hlength]
    exact .pure none
  next => exact (terminated_hasWidth length.toNat).bind_pure

theorem readDynamic_hasWidth (block : StaticBlock) (address : Address) :
    HasWidth block.dynamicLength (readDynamic block address) := by
  have hall : HasWidth (block.resourceCount.toNat * resourceSize +
      (block.driverLength.toNat + block.configLength))
      (readDynamic block address) :=
    (readResources_hasWidth _).bind fun _ =>
      (readDriver_hasWidth _).bind fun _ => (HasWidth.bytes _).bind_pure
  exact hall.of_eq (Nat.add_assoc _ _ _).symm

theorem readBus_hasWidth : HasWidth busSize readBus := by
  change HasWidth (2 + (2 + (2 + 0))) readBus
  refine word16_hasWidth.bind fun domain => ?_
  refine word16_hasWidth.bind fun number => ?_
  refine .ite (.fail (by simp)) ?_
  refine word16_hasWidth.bind fun root => ?_
  exact .ite (.pure _) (.ite (.pure _) (.fail (by simp)))

end PciInventory.Snapshot
