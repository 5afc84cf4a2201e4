import Mathlib.Algebra.Ring.Nat
import Mathlib.Tactic.SplitIfs
import PciInventory.Capability.Chain

/-!
# The chains that a walk lists

What a chain is does not need a walk: from a start, each offset names the next
one through the register found there.  A walk is fixed by the first index at
which this sequence cannot go on, because the offset has occurred before or
because of what is found at it.  There is exactly one such index, so the
outcomes described here exclude each other, and the walks give the one that
applies.
-/

namespace PciInventory.Capability

/-! ## Sequences of offsets -/

def Repeats (offset : Nat → Nat) (index : Nat) : Prop :=
  ∃ earlier < index, offset earlier = offset index

/-- Each offset before the one at `index` is new and lets the sequence go
on. -/
structure Follows (offset : Nat → Nat) (passes : Nat → Prop)
    (index : Nat) : Prop where
  passes : ∀ k < index, passes (offset k)
  fresh : ∀ k < index, ¬Repeats offset k

section

variable {offset : Nat → Nat} {passes : Nat → Prop} {index other : Nat}

theorem Follows.zero : Follows offset passes 0 :=
  ⟨by simp, by simp⟩

theorem Follows.succ (hfollows : Follows offset passes index)
    (hpasses : passes (offset index)) (hnew : ¬Repeats offset index) :
    Follows offset passes (index + 1) := by
  constructor
  · intro k hk
    rcases Nat.lt_succ_iff_lt_or_eq.mp hk with hlt | rfl
    · exact hfollows.passes k hlt
    · exact hpasses
  · intro k hk
    rcases Nat.lt_succ_iff_lt_or_eq.mp hk with hlt | rfl
    · exact hfollows.fresh k hlt
    · exact hnew

theorem Follows.mono (hfollows : Follows offset passes index)
    (hle : other ≤ index) : Follows offset passes other :=
  ⟨fun k hk => hfollows.passes k (Nat.lt_of_lt_of_le hk hle),
    fun k hk => hfollows.fresh k (Nat.lt_of_lt_of_le hk hle)⟩

theorem Follows.le_of_stop (hfollows : Follows offset passes index)
    (hstop : Repeats offset other ∨ ¬passes (offset other)) :
    index ≤ other := by
  rcases Nat.lt_or_ge other index with hlt | hle
  · rcases hstop with hrepeats | hends
    · exact (hfollows.fresh other hlt hrepeats).elim
    · exact (hends (hfollows.passes other hlt)).elim
  · exact hle

/-- The sequence stops at one index only. -/
theorem Follows.index_eq (hfollows : Follows offset passes index)
    (hstop : Repeats offset index ∨ ¬passes (offset index))
    (hotherFollows : Follows offset passes other)
    (hotherStop : Repeats offset other ∨ ¬passes (offset other)) :
    index = other :=
  Nat.le_antisymm (hfollows.le_of_stop hotherStop)
    (hotherFollows.le_of_stop hstop)

theorem Follows.not_repeats_of_not_passes
    (hfollows : Follows offset passes index)
    (hends : ¬passes (offset index)) : ¬Repeats offset index := by
  rintro ⟨earlier, hearlier, heq⟩
  have hpasses := hfollows.passes earlier hearlier
  rw [heq] at hpasses
  exact hends hpasses

/-- The sequence gives `result` at the index where it stops. -/
def Gives (offset : Nat → Nat) (passes : Nat → Prop)
    (stop : Nat → Except ScanError (List Capability) → Prop)
    (result : Except ScanError (List Capability)) : Prop :=
  ∃ index, Follows offset passes index ∧ stop index result

theorem Gives.result_eq
    {stop : Nat → Except ScanError (List Capability) → Prop}
    {first second : Except ScanError (List Capability)}
    (hstops : ∀ index result, stop index result →
      Repeats offset index ∨ ¬passes (offset index))
    (hunique : ∀ index first second, stop index first →
      stop index second → first = second)
    (hfirst : Gives offset passes stop first)
    (hsecond : Gives offset passes stop second) : first = second := by
  obtain ⟨index, hfollows, hstop⟩ := hfirst
  obtain ⟨other, hotherFollows, hotherStop⟩ := hsecond
  have hindex : index = other :=
    hfollows.index_eq (hstops index first hstop) hotherFollows
      (hstops other second hotherStop)
  subst other
  exact hunique index first second hstop hotherStop

/-- The offsets before `index`, as a list. -/
def OffsetsBefore (offset : Nat → Nat) (index : Nat)
    (seen : List Nat) : Prop :=
  ∀ value, value ∈ seen ↔ ∃ k < index, offset k = value

theorem OffsetsBefore.nil : OffsetsBefore offset 0 [] := by
  intro value
  simp

theorem OffsetsBefore.cons {seen : List Nat}
    (hseen : OffsetsBefore offset index seen) :
    OffsetsBefore offset (index + 1) (offset index :: seen) := by
  intro value
  rw [List.mem_cons, hseen value]
  constructor
  · intro hvalue
    rcases hvalue with rfl | ⟨k, hk, heq⟩
    · exact ⟨index, Nat.lt_succ_self index, rfl⟩
    · exact ⟨k, Nat.lt_succ_of_lt hk, heq⟩
  · intro hvalue
    rcases hvalue with ⟨k, hk, heq⟩
    rcases Nat.lt_succ_iff_lt_or_eq.mp hk with hlt | rfl
    · exact Or.inr ⟨k, hlt, heq⟩
    · exact Or.inl heq.symm

theorem OffsetsBefore.mem_iff {seen : List Nat}
    (hseen : OffsetsBefore offset index seen) :
    offset index ∈ seen ↔ Repeats offset index :=
  hseen (offset index)

/-- What the nodes before `index` list. -/
def listed (offset : Nat → Nat) (node : Nat → Capability)
    (index : Nat) : List Capability :=
  (List.range index).map fun k => node (offset k)

theorem listed_succ (offset : Nat → Nat) (node : Nat → Capability)
    (index : Nat) :
    listed offset node (index + 1) =
      listed offset node index ++ [node (offset index)] := by
  simp [listed, List.range_succ]

end

/-! ## The compatible chain -/

def byteAt (config : ConfigSpace) (position : Nat) : UInt8 :=
  (config.read8? position).getD 0

/-- The offsets of the compatible chain: the pointer at `0x34` first, then the
byte behind each id.  The low two bits of a pointer are reserved. -/
def compatibleOffset (config : ConfigSpace) : Nat → Nat
  | 0 => (byteAt config 0x34 &&& 0xfc).toNat
  | index + 1 =>
      (byteAt config (compatibleOffset config index + 1) &&& 0xfc).toNat

def CompatiblePasses (config : ConfigSpace) (offset : Nat) : Prop :=
  offset ≠ 0 ∧ offset + 1 < config.length

def compatibleNode (config : ConfigSpace) (offset : Nat) : Capability :=
  ⟨.compatible, (byteAt config offset).toUInt16, 0, offset⟩

/-- What the compatible chain gives when it stops at `index`. -/
inductive CompatibleStop (address : Address) (config : ConfigSpace)
    (index : Nat) : Except ScanError (List Capability) → Prop
  | ended (hnew : ¬Repeats (compatibleOffset config) index)
      (hzero : compatibleOffset config index = 0) :
      CompatibleStop address config index
        (.ok (listed (compatibleOffset config) (compatibleNode config)
          index))
  | repeated (hrepeats : Repeats (compatibleOffset config) index) :
      CompatibleStop address config index
        (.error (.capabilityLoop address (compatibleOffset config index)))
  | outside (hnew : ¬Repeats (compatibleOffset config) index)
      (hzero : compatibleOffset config index ≠ 0)
      (hlength : config.length ≤ compatibleOffset config index + 1) :
      CompatibleStop address config index
        (.error (.malformed "capability chain"
          (address.text ++ ": capability at " ++
            Numeral.markedHex 4 (compatibleOffset config index) ++
            " outside config space")))

theorem CompatibleStop.stops {address : Address} {config : ConfigSpace}
    {index : Nat} {result : Except ScanError (List Capability)}
    (hstop : CompatibleStop address config index result) :
    Repeats (compatibleOffset config) index ∨
      ¬CompatiblePasses config (compatibleOffset config index) := by
  cases hstop with
  | ended hnew hzero => exact Or.inr fun hpasses => hpasses.1 hzero
  | repeated hrepeats => exact Or.inl hrepeats
  | outside hnew hzero hlength =>
      exact Or.inr fun hpasses => Nat.not_lt.mpr hlength hpasses.2

theorem CompatibleStop.result_eq {address : Address}
    {config : ConfigSpace} {index : Nat}
    {first second : Except ScanError (List Capability)}
    (hfirst : CompatibleStop address config index first)
    (hsecond : CompatibleStop address config index second) :
    first = second := by
  cases hfirst <;> cases hsecond <;> first | rfl | contradiction

def CompatibleChain (address : Address) (config : ConfigSpace) :
    Except ScanError (List Capability) → Prop :=
  Gives (compatibleOffset config) (CompatiblePasses config)
    (CompatibleStop address config)

theorem CompatibleChain.result_eq {address : Address}
    {config : ConfigSpace}
    {first second : Except ScanError (List Capability)}
    (hfirst : CompatibleChain address config first)
    (hsecond : CompatibleChain address config second) :
    first = second :=
  Gives.result_eq (fun _ _ hstop => hstop.stops)
    (fun _ _ _ hstop hother => hstop.result_eq hother) hfirst hsecond

theorem lt_length_of_read8? {config : ConfigSpace} {position : Nat}
    {byte : UInt8} (hread : config.read8? position = some byte) :
    position < config.length :=
  (List.getElem?_eq_some_iff.mp hread).1

theorem length_le_of_unreadable {config : ConfigSpace} {position : Nat}
    (hunreadable : ∀ id next, config.read8? position = some id →
      config.read8? (position + 1) = some next → False) :
    config.length ≤ position + 1 := by
  rcases Nat.lt_or_ge (position + 1) config.length with hlt | hle
  · have hposition : position < config.length := Nat.lt_of_succ_lt hlt
    exact (hunreadable _ _ (List.getElem?_eq_getElem hposition)
      (List.getElem?_eq_getElem hlt)).elim
  · exact hle

theorem map_listed_cons (offset : Nat → Nat) (node : Nat → Capability)
    (index : Nat) (result : Except ScanError (List Capability)) :
    (result.map fun rest => node (offset index) :: rest).map
        (fun rest => listed offset node index ++ rest) =
      result.map fun rest =>
        listed offset node (index + 1) ++ rest := by
  cases result with
  | error error => rfl
  | ok rest => simp [Except.map, listed_succ]

/-- From any index that the chain gets to, the walk gives the rest of it. -/
theorem compatibleFrom_stop (address : Address) (config : ConfigSpace)
    (seen : List Nat) (offset : UInt8) {index : Nat}
    (hfollows :
      Follows (compatibleOffset config) (CompatiblePasses config) index)
    (hseen : OffsetsBefore (compatibleOffset config) index seen)
    (hoffset : offset.toNat = compatibleOffset config index) :
    CompatibleChain address config
      ((compatibleFrom address config seen offset).map fun rest =>
        listed (compatibleOffset config) (compatibleNode config) index ++
          rest) := by
  induction seen, offset using compatibleFrom.induct config
    generalizing index with
  | case1 seen =>
      have hzero : compatibleOffset config index = 0 := hoffset.symm
      have hnew := hfollows.not_repeats_of_not_passes
        fun hpasses => hpasses.1 hzero
      have hstop : CompatibleStop address config index _ :=
        .ended hnew hzero
      rw [compatibleFrom, if_pos rfl]
      simpa [Except.map] using ⟨index, hfollows, hstop⟩
  | case2 seen offset hzero hrepeated =>
      rw [compatibleFrom, if_neg hzero, dif_pos hrepeated, hoffset]
      rw [hoffset] at hrepeated
      exact ⟨index, hfollows, .repeated (hseen.mem_iff.mp hrepeated)⟩
  | case3 seen offset hzero hnew id next hnext hid ih =>
      have hnode : compatibleNode config (compatibleOffset config index) =
          ⟨.compatible, id.toUInt16, 0, offset.toNat⟩ := by
        rw [← hoffset]
        simp [compatibleNode, byteAt, hid]
      have hsucc : (next &&& 0xfc).toNat =
          compatibleOffset config (index + 1) := by
        rw [compatibleOffset, ← hoffset]
        simp [byteAt, hnext]
      have hpasses :
          CompatiblePasses config (compatibleOffset config index) := by
        rw [← hoffset]
        refine ⟨?_, lt_length_of_read8? hnext⟩
        exact fun heq => hzero (UInt8.toNat_inj.mp heq)
      have hfresh : ¬Repeats (compatibleOffset config) index := by
        rw [← hseen.mem_iff, ← hoffset]
        exact hnew
      have hrest := ih (hfollows.succ hpasses hfresh)
        (hoffset ▸ hseen.cons) hsucc
      rw [← map_listed_cons, hnode] at hrest
      rw [compatibleFrom, if_neg hzero, dif_neg hnew, hid, hnext]
      exact hrest
  | case4 seen offset hzero hnew hunreadable =>
      have hne : compatibleOffset config index ≠ 0 := by
        rw [← hoffset]
        exact fun heq => hzero (UInt8.toNat_inj.mp heq)
      have hfresh : ¬Repeats (compatibleOffset config) index := by
        rw [← hseen.mem_iff, ← hoffset]
        exact hnew
      have hlength := length_le_of_unreadable hunreadable
      rw [compatibleFrom, if_neg hzero, dif_neg hnew]
      split
      next id next hid hnext => exact (hunreadable id next hid hnext).elim
      next =>
        rw [hoffset] at hlength ⊢
        exact ⟨index, hfollows, .outside hfresh hne hlength⟩

theorem capabilityPointer_toNat (config : ConfigSpace) :
    (config.capabilityPointer?.getD 0).toNat = compatibleOffset config 0 := by
  unfold ConfigSpace.capabilityPointer? compatibleOffset byteAt
  cases config.read8? 0x34 with
  | none => rfl
  | some pointer => rfl

theorem compatible_chain (address : Address) (config : ConfigSpace) :
    CompatibleChain address config (compatible address config) := by
  have hchain := compatibleFrom_stop address config [] _ Follows.zero
    OffsetsBefore.nil (capabilityPointer_toNat config)
  unfold compatible
  cases hresult : compatibleFrom address config []
      (config.capabilityPointer?.getD 0) with
  | error error => simpa [hresult, Except.map] using hchain
  | ok found => simpa [hresult, Except.map, listed] using hchain

/-! ## Register fields -/

/-- Masking out a field of `width` bits that begins at bit `shift`. -/
theorem and_fieldMask (number width shift : Nat) :
    number &&& (2 ^ width - 1) * 2 ^ shift =
      number / 2 ^ shift % 2 ^ width * 2 ^ shift := by
  have hpos : 0 < 2 ^ shift := Nat.two_pow_pos shift
  have hupper : (number &&& (2 ^ width - 1) * 2 ^ shift) / 2 ^ shift =
      number / 2 ^ shift % 2 ^ width := by
    rw [Nat.and_div_two_pow, Nat.mul_div_cancel _ hpos,
      Nat.and_two_pow_sub_one_eq_mod]
  have hlower :
      (number &&& (2 ^ width - 1) * 2 ^ shift) % 2 ^ shift = 0 := by
    rw [Nat.and_mod_two_pow, Nat.mul_mod_left, Nat.and_zero]
  rw [← hupper]
  exact (Nat.div_mul_cancel (Nat.dvd_of_mod_eq_zero hlower)).symm

/-- Bit 4 of the status register, if that can be read. -/
def HasListBit (config : ConfigSpace) : Prop :=
  ∃ status, config.status? = some status ∧ status &&& 0x10 ≠ 0

theorem hasCapabilityList_iff {config : ConfigSpace} :
    config.hasCapabilityList = true ↔ HasListBit config := by
  unfold ConfigSpace.hasCapabilityList HasListBit
  cases config.status? with
  | none => simp
  | some status =>
      have hmask := and_fieldMask status.toNat 1 4
      have hbit : status &&& 0x10 ≠ 0 ↔ status.toNat / 16 % 2 = 1 := by
        rw [ne_eq, ← UInt16.toNat_inj]
        simp only [UInt16.toNat_and, UInt16.reduceToNat]
        simp only [Nat.reducePow, Nat.reduceSub, Nat.reduceMul] at hmask
        omega
      simp [hbit]

def headerId (header : UInt32) : UInt32 :=
  header &&& 0xffff

def headerVersion (header : UInt32) : UInt32 :=
  (header >>> 16) &&& 0xf

def headerNext (header : UInt32) : UInt32 :=
  (header >>> 20) &&& 0xffc

theorem headerId_toNat (header : UInt32) :
    (headerId header).toNat = header.toNat % 0x10000 := by
  have hmask := and_fieldMask header.toNat 16 0
  simp only [headerId, UInt32.toNat_and, UInt32.reduceToNat]
  simp only [Nat.reducePow, Nat.reduceSub, Nat.reduceMul] at hmask ⊢
  omega

theorem headerVersion_toNat (header : UInt32) :
    (headerVersion header).toNat = header.toNat / 0x10000 % 16 := by
  have hmask := and_fieldMask (header.toNat / 2 ^ 16) 4 0
  simp only [headerVersion, UInt32.toNat_and, UInt32.toNat_shiftRight,
    UInt32.reduceToNat, Nat.shiftRight_eq_div_pow]
  simp only [Nat.reducePow, Nat.reduceSub, Nat.reduceMul,
    Nat.reduceMod] at hmask ⊢
  omega

theorem headerNext_toNat (header : UInt32) :
    (headerNext header).toNat = header.toNat / 0x400000 * 4 := by
  have hlt : header.toNat < 4294967296 := header.toNat_lt
  have hmask := and_fieldMask (header.toNat / 2 ^ 20) 10 2
  simp only [headerNext, UInt32.toNat_and, UInt32.toNat_shiftRight,
    UInt32.reduceToNat, Nat.shiftRight_eq_div_pow]
  simp only [Nat.reducePow, Nat.reduceSub, Nat.reduceMul,
    Nat.reduceMod] at hmask ⊢
  omega

/-! ## The extended chain -/

/-- The header at an offset, all zero where there is none. -/
def headerAt (config : ConfigSpace) (offset : Nat) : UInt32 :=
  (config.read32? offset).getD 0

def extendedOffset (config : ConfigSpace) : Nat → Nat
  | 0 => 0x100
  | index + 1 =>
      (headerNext (headerAt config (extendedOffset config index))).toNat

/-- A header that ends the chain and is no capability itself. -/
def IsTerminator (header : UInt32) : Prop :=
  headerId header = 0 ∨ header = 0xffffffff

def ExtendedPasses (config : ConfigSpace) (offset : Nat) : Prop :=
  ∃ header, config.read32? offset = some header ∧
    ¬IsTerminator header ∧ 0x100 ≤ headerNext header

def extendedNode (config : ConfigSpace) (offset : Nat) : Capability :=
  { kind := .extended
    id := (headerId (headerAt config offset)).toUInt16
    version := (headerVersion (headerAt config offset)).toNat
    offset := offset }

/-- What the extended chain gives when it stops at `index`. -/
inductive ExtendedStop (address : Address) (config : ConfigSpace)
    (index : Nat) : Except ScanError (List Capability) → Prop
  | terminated (hnew : ¬Repeats (extendedOffset config) index)
      {header : UInt32}
      (hread :
        config.read32? (extendedOffset config index) = some header)
      (hterminator : IsTerminator header) :
      ExtendedStop address config index
        (.ok (listed (extendedOffset config) (extendedNode config) index))
  | last (hnew : ¬Repeats (extendedOffset config) index)
      {header : UInt32}
      (hread :
        config.read32? (extendedOffset config index) = some header)
      (hnode : ¬IsTerminator header) (hnext : headerNext header = 0) :
      ExtendedStop address config index
        (.ok (listed (extendedOffset config) (extendedNode config)
          (index + 1)))
  | repeated (hrepeats : Repeats (extendedOffset config) index) :
      ExtendedStop address config index
        (.error (.capabilityLoop address (extendedOffset config index)))
  | outside (hnew : ¬Repeats (extendedOffset config) index)
      (hread : config.read32? (extendedOffset config index) = none) :
      ExtendedStop address config index
        (.error (.malformed "capability chain"
          (address.text ++ ": extended capability at " ++
            Numeral.markedHex 5 (extendedOffset config index) ++
            " outside config space")))
  | pointsBack (hnew : ¬Repeats (extendedOffset config) index)
      {header : UInt32}
      (hread :
        config.read32? (extendedOffset config index) = some header)
      (hnode : ¬IsTerminator header) (hpos : headerNext header ≠ 0)
      (hback : headerNext header < 0x100) :
      ExtendedStop address config index
        (.error (.malformed "capability chain"
          (address.text ++ ": extended capability at " ++
            Numeral.markedHex 5 (extendedOffset config index) ++
            " points back to " ++
            Numeral.markedHex 4 (headerNext header).toNat)))

theorem ExtendedStop.stops {address : Address} {config : ConfigSpace}
    {index : Nat} {result : Except ScanError (List Capability)}
    (hstop : ExtendedStop address config index result) :
    Repeats (extendedOffset config) index ∨
      ¬ExtendedPasses config (extendedOffset config index) := by
  cases hstop with
  | terminated hnew hread hterminator =>
      right
      rintro ⟨header, hheader, hnode, _⟩
      cases hread.symm.trans hheader
      exact hnode hterminator
  | last hnew hread hnode hnext =>
      right
      rintro ⟨header, hheader, _, hforward⟩
      cases hread.symm.trans hheader
      rw [hnext] at hforward
      contradiction
  | repeated hrepeats => exact Or.inl hrepeats
  | outside hnew hread =>
      right
      rintro ⟨header, hheader, _⟩
      cases hread.symm.trans hheader
  | pointsBack hnew hread hnode hpos hback =>
      right
      rintro ⟨header, hheader, _, hforward⟩
      cases hread.symm.trans hheader
      exact UInt32.not_lt.mpr hforward hback

theorem ExtendedStop.result_eq {address : Address}
    {config : ConfigSpace} {index : Nat}
    {first second : Except ScanError (List Capability)}
    (hfirst : ExtendedStop address config index first)
    (hsecond : ExtendedStop address config index second) :
    first = second := by
  cases hfirst <;> cases hsecond <;> simp_all

def ExtendedChain (address : Address) (config : ConfigSpace) :
    Except ScanError (List Capability) → Prop :=
  Gives (extendedOffset config) (ExtendedPasses config)
    (ExtendedStop address config)

theorem ExtendedChain.result_eq {address : Address}
    {config : ConfigSpace}
    {first second : Except ScanError (List Capability)}
    (hfirst : ExtendedChain address config first)
    (hsecond : ExtendedChain address config second) :
    first = second :=
  Gives.result_eq (fun _ _ hstop => hstop.stops)
    (fun _ _ _ hstop hother => hstop.result_eq hother) hfirst hsecond

theorem extendedNode_eq {config : ConfigSpace} {offset : Nat}
    {header : UInt32} (hread : config.read32? offset = some header) :
    extendedNode config offset =
      ⟨.extended, UInt16.ofNat (header.toNat % 0x10000),
        header.toNat / 0x10000 % 16, offset⟩ := by
  have hid : (headerId header).toUInt16 =
      UInt16.ofNat (header.toNat % 0x10000) := by
    rw [← headerId_toNat]
    rfl
  have hheader : headerAt config offset = header := by
    simp [headerAt, hread]
  rw [extendedNode, hheader, hid, headerVersion_toNat]

theorem isTerminator_iff {header : UInt32} :
    IsTerminator header ↔
      header.toNat % 0x10000 = 0 ∨ header = 0xffffffff := by
  rw [IsTerminator, ← headerId_toNat, ← UInt32.toNat_inj]
  rfl

theorem headerNext_eq_zero_iff {header : UInt32} :
    headerNext header = 0 ↔ header.toNat / 0x400000 * 4 = 0 := by
  rw [← headerNext_toNat, ← UInt32.toNat_inj]
  rfl

theorem headerNext_lt_iff {header : UInt32} :
    headerNext header < 0x100 ↔
      header.toNat / 0x400000 * 4 < extendedBase := by
  rw [← headerNext_toNat, UInt32.lt_iff_toNat_lt]
  rfl

instance (header : UInt32) : Decidable (IsTerminator header) :=
  inferInstanceAs (Decidable (_ ∨ _))

/-- One step of the walk, in terms of the fields of the header found. -/
theorem extendedFrom_of_read {address : Address} {config : ConfigSpace}
    {seen : List Nat} {offset : Nat} {header : UInt32}
    (hnew : offset ∉ seen) (hread : config.read32? offset = some header) :
    extendedFrom address config seen offset =
      if IsTerminator header then .ok []
      else if headerNext header = 0 then .ok [extendedNode config offset]
      else if headerNext header < 0x100 then
        .error (.malformed "capability chain"
          (address.text ++ ": extended capability at " ++
            Numeral.markedHex 5 offset ++ " points back to " ++
            Numeral.markedHex 4 (headerNext header).toNat))
      else
        (extendedFrom address config (offset :: seen)
          (headerNext header).toNat).map fun rest =>
            extendedNode config offset :: rest := by
  rw [extendedFrom, dif_neg hnew]
  split
  next hnone =>
    cases hnone.symm.trans hread
  next found hfound =>
    cases hfound.symm.trans hread
    simp only [isTerminator_iff, headerNext_eq_zero_iff, headerNext_lt_iff,
      headerNext_toNat, extendedNode_eq hread]
    rfl

/-- The walk goes on only to offsets that it has not seen. -/
theorem extendedFrom_induction (config : ConfigSpace)
    {motive : List Nat → Nat → Prop}
    (step : ∀ seen offset,
      (∀ header, offset ∉ seen → config.read32? offset = some header →
        motive (offset :: seen) (headerNext header).toNat) →
      motive seen offset)
    (seen : List Nat) (offset : Nat) : motive seen offset := by
  apply step
  intro header hnew hread
  exact extendedFrom_induction config step (offset :: seen) _
termination_by unseen config.length seen
decreasing_by
  exact unseen_cons_lt (ConfigSpace.lt_length_of_read32? hread) hnew

/-- From any index that the chain gets to, the walk gives the rest of it. -/
theorem extendedFrom_stop (address : Address) (config : ConfigSpace)
    (seen : List Nat) (offset : Nat) {index : Nat}
    (hfollows :
      Follows (extendedOffset config) (ExtendedPasses config) index)
    (hseen : OffsetsBefore (extendedOffset config) index seen)
    (hoffset : offset = extendedOffset config index) :
    ExtendedChain address config
      ((extendedFrom address config seen offset).map fun rest =>
        listed (extendedOffset config) (extendedNode config) index ++
          rest) := by
  induction seen, offset using extendedFrom_induction config
    generalizing index with
  | step seen offset ih =>
      subst offset
      by_cases hold : extendedOffset config index ∈ seen
      · rw [extendedFrom, dif_pos hold]
        exact ⟨index, hfollows, .repeated (hseen.mem_iff.mp hold)⟩
      have hnew : ¬Repeats (extendedOffset config) index := by
        rw [← hseen.mem_iff]
        exact hold
      cases hread : config.read32? (extendedOffset config index) with
      | none =>
          rw [extendedFrom, dif_neg hold]
          split
          next => exact ⟨index, hfollows, .outside hnew hread⟩
          next header hheader => cases hread.symm.trans hheader
      | some header =>
          rw [extendedFrom_of_read hold hread]
          split_ifs with hterminator hzero hback
          · have hstop : ExtendedStop address config index _ :=
              .terminated hnew hread hterminator
            simpa [Except.map] using ⟨index, hfollows, hstop⟩
          · have hstop : ExtendedStop address config index _ :=
              .last hnew hread hterminator hzero
            rw [listed_succ] at hstop
            exact ⟨index, hfollows, hstop⟩
          · exact ⟨index, hfollows,
              .pointsBack hnew hread hterminator hzero hback⟩
          · have hpasses :
                ExtendedPasses config (extendedOffset config index) :=
              ⟨header, hread, hterminator, UInt32.not_lt.mp hback⟩
            have hsucc : (headerNext header).toNat =
                extendedOffset config (index + 1) := by
              rw [extendedOffset, headerAt, hread, Option.getD_some]
            have hrest := ih header hold hread
              (hfollows.succ hpasses hnew) hseen.cons hsucc
            rw [← map_listed_cons] at hrest
            exact hrest

theorem extended_chain (address : Address) (config : ConfigSpace) :
    ExtendedChain address config
      (extendedFrom address config [] extendedBase) := by
  have hchain := extendedFrom_stop address config [] extendedBase
    Follows.zero OffsetsBefore.nil rfl
  cases hresult : extendedFrom address config [] extendedBase with
  | error error => simpa [hresult, Except.map] using hchain
  | ok found => simpa [hresult, Except.map, listed] using hchain

end PciInventory.Capability
