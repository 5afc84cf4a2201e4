/-!
# Sets of code points

A property of characters is an ascending list of closed code point ranges.
Whether a character has it is decided by a search that ends at the first range
beyond the character; since the ranges ascend, it misses none.
-/

namespace PciInventory.CodePoint

/-- Whether the ranges ascend and none begins before `start`. -/
def ascendFrom (start : Nat) : List (Nat × Nat) → Bool
  | [] => true
  | (first, last) :: rest =>
      start ≤ first && first ≤ last && ascendFrom (last + 1) rest

/-- Closed ranges in ascending order, each given by its first and last member. -/
structure Ranges where
  list : List (Nat × Nat)
  ascending : ascendFrom 0 list = true

namespace Ranges

instance : Membership Char Ranges where
  mem ranges c :=
    ∃ range ∈ ranges.list, range.1 ≤ c.toNat ∧ c.toNat ≤ range.2

/-- Whether a range of the list holds the character, for ranges that ascend. -/
def holds : List (Nat × Nat) → Char → Bool
  | [], _ => false
  | (first, last) :: rest, c =>
      first ≤ c.toNat && (c.toNat ≤ last || holds rest c)

theorem le_of_mem_of_ascendFrom {ranges : List (Nat × Nat)} {start : Nat}
    (hascend : ascendFrom start ranges = true)
    {range : Nat × Nat} (hrange : range ∈ ranges) : start ≤ range.1 := by
  induction ranges generalizing start with
  | nil => simp at hrange
  | cons head rest ih =>
    simp only [ascendFrom, Bool.and_eq_true, decide_eq_true_eq] at hascend
    rcases List.mem_cons.mp hrange with rfl | hrest
    · exact hascend.1.1
    · have := ih hascend.2 hrest
      omega

theorem holds_iff {ranges : List (Nat × Nat)} {start : Nat}
    (hascend : ascendFrom start ranges = true) (c : Char) :
    holds ranges c = true ↔
      ∃ range ∈ ranges, range.1 ≤ c.toNat ∧ c.toNat ≤ range.2 := by
  induction ranges generalizing start with
  | nil => simp [holds]
  | cons head rest ih =>
    simp only [ascendFrom, Bool.and_eq_true, decide_eq_true_eq] at hascend
    simp only [holds, Bool.and_eq_true, Bool.or_eq_true, decide_eq_true_eq,
      ih hascend.2, List.mem_cons, exists_eq_or_imp]
    constructor
    · rintro ⟨hfirst, hlast | hrest⟩
      · exact .inl ⟨hfirst, hlast⟩
      · exact .inr hrest
    · rintro (⟨hfirst, hlast⟩ | ⟨range, hrange, hbounds⟩)
      · exact ⟨hfirst, .inl hlast⟩
      · have := le_of_mem_of_ascendFrom hascend.2 hrange
        exact ⟨by omega, .inr ⟨range, hrange, hbounds⟩⟩

instance (c : Char) (ranges : Ranges) : Decidable (c ∈ ranges) :=
  decidable_of_iff (holds ranges.list c = true) (holds_iff ranges.ascending c)

end Ranges

end PciInventory.CodePoint
