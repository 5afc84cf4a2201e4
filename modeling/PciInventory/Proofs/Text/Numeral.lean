import Mathlib.Data.List.Forall2
import Mathlib.Data.Nat.Digits.Defs
import PciInventory.Text.Numeral

/-!
# What numerals denote

A numeral is an optional plus sign before at least one digit, and it denotes
the number with these digits, the most significant first.  Reading stops early
at a value that is too large, but it accepts exactly the numerals of the values
below its bound, with any number of leading zeros.  The printed hexadecimal
numerals are among them.
-/

namespace PciInventory.Numeral

/-- The character is the digit of this value, in either case. -/
def IsDigit (base : Nat) (c : Char) (value : Nat) : Prop :=
  value < base ∧ value < 16 ∧
    (c = Nat.digitChar value ∨ c = (Nat.digitChar value).toUpper)

instance (base : Nat) (c : Char) (value : Nat) :
    Decidable (IsDigit base c value) :=
  inferInstanceAs (Decidable (_ ∧ _))

/-- The text is a numeral of this value. -/
def Denotes (base : Nat) (text : List Char) (value : Nat) : Prop :=
  ∃ digits values, (text = digits ∨ text = '+' :: digits) ∧ digits ≠ [] ∧
    List.Forall₂ (IsDigit base) digits values ∧
    Nat.ofDigits base values.reverse = value

theorem digit?_eq_some_iff {c : Char} {value : Nat} :
    digit? c = some value ↔
      value < 10 ∧ c.toNat = 48 + value ∨
        10 ≤ value ∧ value < 16 ∧
          (c.toNat = 87 + value ∨ c.toNat = 55 + value) := by
  have hzero : ('0' ≤ c) ↔ 48 ≤ c.toNat := Iff.rfl
  have hnine : (c ≤ '9') ↔ c.toNat ≤ 57 := Iff.rfl
  have hlower : ('a' ≤ c) ↔ 97 ≤ c.toNat := Iff.rfl
  have hlowerEnd : (c ≤ 'f') ↔ c.toNat ≤ 102 := Iff.rfl
  have hupper : ('A' ≤ c) ↔ 65 ≤ c.toNat := Iff.rfl
  have hupperEnd : (c ≤ 'F') ↔ c.toNat ≤ 70 := Iff.rfl
  have hzeroNat : '0'.toNat = 48 := rfl
  have haNat : 'a'.toNat = 97 := rfl
  have hANat : 'A'.toNat = 65 := rfl
  unfold digit?
  simp only [hzero, hnine, hlower, hlowerEnd, hupper, hupperEnd, hzeroNat,
    haNat, hANat]
  split
  next =>
    rw [Option.some.injEq]
    omega
  next =>
    split
    next =>
      rw [Option.some.injEq]
      omega
    next =>
      split
      next =>
        rw [Option.some.injEq]
        omega
      next =>
        simp only [reduceCtorEq, false_iff]
        omega

theorem digit?_digitChar : ∀ value < 16,
    digit? (Nat.digitChar value) = some value ∧
      digit? (Nat.digitChar value).toUpper = some value := by
  decide

/-- The digits in terms of their character codes. -/
theorem digitChar_eq_ofNat : ∀ value < 16,
    (value < 10 → Nat.digitChar value = Char.ofNat (48 + value)) ∧
      (10 ≤ value → Nat.digitChar value = Char.ofNat (87 + value) ∧
        (Nat.digitChar value).toUpper = Char.ofNat (55 + value)) := by
  decide

theorem isDigit_iff {base : Nat} {c : Char} {value : Nat} :
    IsDigit base c value ↔ digit? c = some value ∧ value < base := by
  constructor
  · rintro ⟨hbase, hvalue, rfl | rfl⟩
    · exact ⟨(digit?_digitChar value hvalue).1, hbase⟩
    · exact ⟨(digit?_digitChar value hvalue).2, hbase⟩
  · rintro ⟨hdigit, hbase⟩
    have hcode := digit?_eq_some_iff.mp hdigit
    have hvalue : value < 16 := by omega
    obtain ⟨hdecimal, hletter⟩ := digitChar_eq_ofNat value hvalue
    refine ⟨hbase, hvalue, ?_⟩
    rw [← Char.ofNat_toNat c]
    rcases hcode with ⟨hsmall, hcode⟩ | ⟨hlarge, _, hcode | hcode⟩
    · rw [hcode, hdecimal hsmall]
      exact .inl rfl
    · rw [hcode, (hletter hlarge).1]
      exact .inl rfl
    · rw [hcode, (hletter hlarge).2]
      exact .inr rfl

/-! ## Reading -/

/-- More digits behind a value make it no smaller. -/
theorem le_ofDigits_append {base : Nat} (hbase : 0 < base) (value : Nat)
    (digits : List Nat) :
    value ≤ Nat.ofDigits base (digits ++ [value]) := by
  rw [Nat.ofDigits_append, Nat.ofDigits_singleton]
  have hle : value ≤ base ^ digits.length * value :=
    Nat.le_mul_of_pos_left value (Nat.pow_pos hbase)
  omega

theorem ofDigits_append_pair (base digit value : Nat) (digits : List Nat) :
    Nat.ofDigits base (digits ++ [digit, value]) =
      Nat.ofDigits base (digits ++ [base * value + digit]) := by
  simp only [Nat.ofDigits_append, Nat.ofDigits_cons, Nat.ofDigits_nil]
  simp [Nat.add_comm]

theorem digits?_eq_some_iff {base bound value result : Nat}
    {text : List Char} :
    digits? base bound value text = some result ↔
      ∃ values, List.Forall₂ (IsDigit base) text values ∧
        Nat.ofDigits base (values.reverse ++ [value]) = result ∧
        result < bound := by
  induction text generalizing value with
  | nil =>
      simp only [digits?, List.forall₂_nil_left_iff, exists_eq_left,
        List.reverse_nil, List.nil_append, Nat.ofDigits_singleton]
      split
      next hlt =>
        simp only [Option.some.injEq]
        constructor
        · rintro rfl
          exact ⟨rfl, hlt⟩
        · exact And.left
      next hge =>
        simp only [reduceCtorEq, false_iff]
        rintro ⟨rfl, hlt⟩
        exact hge hlt
  | cons c rest ih =>
      constructor
      · intro hread
        unfold digits? at hread
        split at hread
        next digit hdigit =>
          split at hread
          next hbounds =>
            obtain ⟨values, hvalues, hresult, hlt⟩ := ih.mp hread
            refine ⟨digit :: values,
              .cons (isDigit_iff.mpr ⟨hdigit, hbounds.1⟩) hvalues, ?_, hlt⟩
            rw [← hresult, List.reverse_cons, List.append_assoc,
              List.singleton_append, ofDigits_append_pair]
          next => contradiction
        next => contradiction
      · rintro ⟨_, hvalues, hresult, hlt⟩
        obtain ⟨digit, values, hfirst, hrest, rfl⟩ :=
          List.forall₂_cons_left_iff.mp hvalues
        obtain ⟨hdigit, hsmall⟩ := isDigit_iff.mp hfirst
        rw [List.reverse_cons, List.append_assoc, List.singleton_append,
          ofDigits_append_pair] at hresult
        -- The value read so far is at most the whole, so reading goes on.
        have hbase : 0 < base := Nat.zero_lt_of_lt hsmall
        have hle := le_ofDigits_append hbase (base * value + digit)
          values.reverse
        have hvalue : value ≤ base * value :=
          Nat.le_mul_of_pos_left value hbase
        unfold digits?
        rw [hdigit]
        simp only
        rw [if_pos ⟨hsmall, by omega⟩]
        exact ih.mpr ⟨values, hrest, hresult, hlt⟩

theorem unsigned_eq_self {text : List Char} (htext : '+' ∉ text) :
    unsigned text = text := by
  unfold unsigned
  split
  next rest => exact (htext List.mem_cons_self).elim
  next => rfl

theorem exists_isDigit_of_mem {base : Nat} {digits : List Char}
    {values : List Nat} (hdigits : List.Forall₂ (IsDigit base) digits values)
    {c : Char} (hmem : c ∈ digits) : ∃ value, IsDigit base c value := by
  induction hdigits with
  | nil => contradiction
  | cons hdigit _ ih =>
      rcases List.mem_cons.mp hmem with rfl | hmem
      · exact ⟨_, hdigit⟩
      · exact ih hmem

theorem notMem_of_digit?_eq_none {base : Nat} {digits : List Char}
    {values : List Nat} (hdigits : List.Forall₂ (IsDigit base) digits values)
    {c : Char} (hnone : digit? c = none) : c ∉ digits := by
  intro hmem
  obtain ⟨value, hdigit⟩ := exists_isDigit_of_mem hdigits hmem
  have hsome := (isDigit_iff.mp hdigit).1
  rw [hnone] at hsome
  contradiction

/-- Reading accepts the numerals of the values below the bound. -/
theorem read?_eq_some_iff {base bound value : Nat} {text : List Char} :
    read? base bound text = some value ↔
      Denotes base text value ∧ value < bound := by
  constructor
  · intro hread
    unfold read? at hread
    split at hread
    next => contradiction
    next digits hne =>
      obtain ⟨values, hvalues, hresult, hlt⟩ :=
        digits?_eq_some_iff.mp hread
      rw [Nat.ofDigits_append_zero] at hresult
      have htext : text = unsigned text ∨ text = '+' :: unsigned text := by
        unfold unsigned
        split
        next => exact .inr rfl
        next => exact .inl rfl
      exact ⟨⟨unsigned text, values, htext, hne, hvalues, hresult⟩, hlt⟩
  · rintro ⟨⟨digits, values, htext, hne, hvalues, hresult⟩, hlt⟩
    have hdigits : unsigned text = digits := by
      rcases htext with rfl | rfl
      · exact unsigned_eq_self (notMem_of_digit?_eq_none hvalues (by decide))
      · rfl
    unfold read?
    rw [hdigits]
    split
    next => exact (hne rfl).elim
    next =>
      refine digits?_eq_some_iff.mpr ⟨values, hvalues, ?_, hlt⟩
      rw [Nat.ofDigits_append_zero]
      exact hresult

theorem Denotes.unique {base value other : Nat} {text : List Char}
    (hvalue : Denotes base text value) (hother : Denotes base text other) :
    value = other := by
  have hfirst : read? base (value + other + 1) text = some value :=
    read?_eq_some_iff.mpr ⟨hvalue, by omega⟩
  have hsecond : read? base (value + other + 1) text = some other :=
    read?_eq_some_iff.mpr ⟨hother, by omega⟩
  exact Option.some.inj (hfirst.symm.trans hsecond)

/-! ## Characters -/

/-- A character that is neither the sign nor a digit is in no numeral. -/
theorem Denotes.notMem {base value : Nat} {text : List Char} {c : Char}
    (htext : Denotes base text value) (hsign : c ≠ '+')
    (hnone : digit? c = none) : c ∉ text := by
  obtain ⟨digits, values, htext, _, hvalues, _⟩ := htext
  have hdigits := notMem_of_digit?_eq_none hvalues hnone
  rcases htext with rfl | rfl
  · exact hdigits
  · rw [List.mem_cons, not_or]
    exact ⟨hsign, hdigits⟩

theorem utf8ByteSize_of_forall {text : List Char}
    (hsize : ∀ c ∈ text, c.utf8Size = 1) :
    (String.ofList text).utf8ByteSize = text.length := by
  induction text with
  | nil => rfl
  | cons c rest ih =>
      obtain ⟨hfirst, hrest⟩ := List.forall_mem_cons.mp hsize
      rw [String.ofList_cons, String.utf8ByteSize_append,
        String.utf8ByteSize_singleton, hfirst, ih hrest, List.length_cons,
        Nat.add_comm]

/-- A numeral takes one byte for each character. -/
theorem Denotes.utf8ByteSize_eq {base value : Nat} {text : String}
    (htext : Denotes base text.toList value) :
    text.utf8ByteSize = text.toList.length := by
  rw [← utf8ByteSize_of_forall, String.ofList_toList]
  intro c hmem
  rw [Char.utf8Size_eq_one_iff]
  by_contra hwide
  have hnat : 127 < c.toNat := Nat.lt_of_not_le hwide
  have hnone : digit? c = none := by
    rw [Option.eq_none_iff_forall_ne_some]
    intro digit hdigit
    have hbounds := digit?_eq_some_iff.mp hdigit
    omega
  have hsign : c ≠ '+' := by
    rintro rfl
    exact absurd hnat (by decide)
  exact htext.notMem hsign hnone hmem

/-! ## Printing -/

theorem isDigit_digitChar {value : Nat} (hvalue : value < 16) :
    IsDigit 16 (Nat.digitChar value) value :=
  ⟨hvalue, hvalue, .inl rfl⟩

theorem exists_toDigits (value : Nat) :
    ∃ values, List.Forall₂ (IsDigit 16) (Nat.toDigits 16 value) values ∧
      Nat.ofDigits 16 values.reverse = value := by
  induction value using Nat.strongRecOn with
  | ind value ih =>
      rw [Nat.toDigits_eq_if (by decide)]
      split
      next hlt =>
        exact ⟨[value], .cons (isDigit_digitChar hlt) .nil,
          Nat.ofDigits_singleton⟩
      next hge =>
        obtain ⟨values, hvalues, hvalue⟩ := ih (value / 16) (by omega)
        refine ⟨values ++ [value % 16], ?_, ?_⟩
        · exact List.rel_append hvalues
            (.cons (isDigit_digitChar (Nat.mod_lt _ (by decide))) .nil)
        · rw [List.reverse_append, List.reverse_singleton,
            List.singleton_append, Nat.ofDigits_cons, hvalue]
          exact Nat.mod_add_div value 16

theorem forall₂_leading_zeros {digits : List Char} {values : List Nat}
    (hdigits : List.Forall₂ (IsDigit 16) digits values) (count : Nat) :
    List.Forall₂ (IsDigit 16) (List.replicate count '0' ++ digits)
      (List.replicate count 0 ++ values) := by
  induction count with
  | zero => exact hdigits
  | succ count ih =>
      rw [List.replicate_succ, List.replicate_succ, List.cons_append,
        List.cons_append]
      exact .cons (by decide) ih

theorem denotes_hexDigits (width value : Nat) :
    Denotes 16 (hexDigits width value) value := by
  obtain ⟨values, hvalues, hvalue⟩ := exists_toDigits value
  have hdigits := forall₂_leading_zeros hvalues
    (width - (Nat.toDigits 16 value).length)
  refine ⟨hexDigits width value, _, .inl rfl, ?_, hdigits, ?_⟩
  · simp [hexDigits, List.leftpad]
  · rw [List.reverse_append, List.reverse_replicate,
      Nat.ofDigits_append_replicate_zero]
    exact hvalue

theorem notMem_hex {c : Char} (hsign : c ≠ '+') (hnone : digit? c = none)
    (width value : Nat) : c ∉ (hex width value).toList := by
  rw [hex, String.toList_ofList]
  exact (denotes_hexDigits width value).notMem hsign hnone

theorem length_hexDigits_le_iff {width value : Nat} (hwidth : 0 < width) :
    (hexDigits width value).length ≤ width ↔ value < 16 ^ width := by
  rw [← Nat.length_toDigits_le_iff (by decide) hwidth, hexDigits,
    List.length_leftpad]
  omega

theorem le_length_hexDigits (width value : Nat) :
    width ≤ (hexDigits width value).length := by
  rw [hexDigits, List.length_leftpad]
  omega

end PciInventory.Numeral
