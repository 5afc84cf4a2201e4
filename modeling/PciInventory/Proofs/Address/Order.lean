import Mathlib.Algebra.Group.Nat.Defs
import Mathlib.Data.Prod.Lex
import PciInventory.Address.Text
import PciInventory.Proofs.Address.Packing

/-!
# The order of addresses

Addresses are compared by domain, then by bus, device and function.  Their ranks
are in this order, and so are the packed words of addresses in range.  The words
that are read back are those below 2⁴⁸ with clear bits 16 to 31, so packing is an
isomorphism of orders between these words and the addresses in range.
-/

namespace PciInventory.Address

/-- The numbers of an address, the domain first, in dictionary order. -/
def fields (address : Address) : UInt16 ×ₗ UInt8 ×ₗ UInt8 ×ₗ UInt8 :=
  toLex (address.domain,
    toLex (address.bus, toLex (address.device, address.function)))

theorem fields_lt_iff {first second : Address} :
    first.fields < second.fields ↔
      first.domain < second.domain ∨ first.domain = second.domain ∧
        (first.bus < second.bus ∨ first.bus = second.bus ∧
          (first.device < second.device ∨ first.device = second.device ∧
            first.function < second.function)) := by
  simp only [fields, Prod.Lex.toLex_lt_toLex]

theorem rank_lt_iff {first second : Address} :
    first.rank < second.rank ↔ first.fields < second.fields := by
  have hfirstBus : first.bus.toNat < 256 := first.bus.toNat_lt
  have hfirstDevice : first.device.toNat < 256 := first.device.toNat_lt
  have hfirstFunction : first.function.toNat < 256 := first.function.toNat_lt
  have hsecondBus : second.bus.toNat < 256 := second.bus.toNat_lt
  have hsecondDevice : second.device.toNat < 256 := second.device.toNat_lt
  have hsecondFunction : second.function.toNat < 256 :=
    second.function.toNat_lt
  simp only [fields_lt_iff, UInt16.lt_iff_toNat_lt, UInt8.lt_iff_toNat_lt,
    ← UInt16.toNat_inj, ← UInt8.toNat_inj, rank]
  omega

/-- Leaving out the bits that an address in range does not use keeps the
order. -/
theorem pack_lt_iff {first second : Address} (hfirst : first.InRange)
    (hsecond : second.InRange) :
    first.pack < second.pack ↔ first.fields < second.fields := by
  obtain ⟨hfirstDevice, hfirstFunction⟩ := hfirst
  obtain ⟨hsecondDevice, hsecondFunction⟩ := hsecond
  have hfirstBus : first.bus.toNat < 256 := first.bus.toNat_lt
  have hsecondBus : second.bus.toNat < 256 := second.bus.toNat_lt
  rw [← rank_lt_iff, UInt64.lt_iff_toNat_lt, pack_toNat, pack_toNat]
  simp only [key, rank, UInt32.size]
  omega

/-! ## Packed words -/

/-- No bit between two powers of two is set in a number exactly when the rest of
it by the greater one is below the lesser one. -/
theorem mod_two_pow_lt_iff {number low high : Nat} :
    number % 2 ^ high < 2 ^ low ↔
      ∀ bit, low ≤ bit → bit < high → number.testBit bit = false := by
  constructor
  · intro hlt bit hlow hhigh
    have hbit : (number % 2 ^ high).testBit bit = false :=
      Nat.testBit_lt_two_pow
        (Nat.lt_of_lt_of_le hlt (Nat.pow_le_pow_right (by decide) hlow))
    rw [Nat.testBit_mod_two_pow, Bool.and_eq_false_iff] at hbit
    rcases hbit with hbit | hbit
    · exact (of_decide_eq_false hbit hhigh).elim
    · exact hbit
  · intro hclear
    apply Nat.lt_pow_two_of_testBit
    intro bit hlow
    rw [Nat.testBit_mod_two_pow, Bool.and_eq_false_iff]
    by_cases hhigh : bit < high
    · exact .inr (hclear bit hlow hhigh)
    · exact .inl (decide_eq_false hhigh)

theorem exists_unpack?_iff {word : UInt64} :
    (∃ address, unpack? word = some address) ↔
      word.toNat < 2 ^ 48 ∧
        ∀ bit, 16 ≤ bit → bit < 32 → word.toNat.testBit bit = false := by
  rw [← mod_two_pow_lt_iff]
  simp only [unpack?, UInt32.size, UInt16.size]
  split
  next hclear =>
    refine iff_of_true ⟨_, rfl⟩ ?_
    omega
  next hset =>
    refine iff_of_false ?_ ?_
    · rintro ⟨address, hsome⟩
      contradiction
    · omega

theorem ofPacked_eq_ok_iff {word : UInt64} {address : Address} :
    ofPacked word = .ok address ↔ unpack? word = some address := by
  rw [ofPacked]
  cases unpack? word with
  | none => simp
  | some found => simp

/-- Packing and reading back are inverse to each other between the addresses in
range and the words whose unused bits are clear, and both keep the order, which
is the one that lists of addresses are sorted by. -/
theorem packing_orderIso :
    (∀ word, (∃ address, ofPacked word = .ok address) ↔
      word.toNat < 2 ^ 48 ∧
        ∀ bit, 16 ≤ bit → bit < 32 → word.toNat.testBit bit = false) ∧
      (∀ word address, ofPacked word = .ok address →
        address.device.toNat ≤ 31 ∧ address.function.toNat ≤ 7 ∧
          address.pack = word) ∧
      (∀ address, address.InRange → ofPacked address.pack = .ok address) ∧
      (∀ first second : Address, first.InRange → second.InRange →
        (first.fields < second.fields ↔ first.pack < second.pack)) ∧
      ∀ first second : Address,
        first.fields < second.fields ↔ first.rank < second.rank := by
  simp only [ofPacked_eq_ok_iff]
  refine ⟨fun word => exists_unpack?_iff, ?_, ?_, ?_,
    fun first second => rank_lt_iff.symm⟩
  · intro word address hunpack
    obtain ⟨⟨hdevice, hfunction⟩, hword⟩ := unpack?_eq_some_iff.mp hunpack
    exact ⟨hdevice, hfunction, hword.symm⟩
  · intro address hrange
    exact unpack?_eq_some_iff.mpr ⟨hrange, rfl⟩
  · intro first second hfirst hsecond
    exact (pack_lt_iff hfirst hsecond).symm

/-- The last function of the last bus of a domain, and the first function behind
it. -/
theorem packing_orderIso_domainEnd :
    let last : Address := ⟨0, 0xff, 0x1f, 7⟩
    let next : Address := ⟨1, 0, 0, 0⟩
    ofPacked 0xffff = .ok last ∧ ofPacked 0x100000000 = .ok next ∧
      last.fields < next.fields ∧
      ¬∃ address, ofPacked 0x10000 = .ok address := by
  intro last next
  obtain ⟨haccepted, _, hinverse, horder, _⟩ := packing_orderIso
  have hlast : last.InRange := by decide
  have hnext : next.InRange := by decide
  have hlastWord : last.pack = 0xffff := by decide
  have hnextWord : next.pack = 0x100000000 := by decide
  refine ⟨?_, ?_, ?_, ?_⟩
  · rw [← hlastWord]
    exact hinverse last hlast
  · rw [← hnextWord]
    exact hinverse next hnext
  · exact (horder last next hlast hnext).mpr (by decide)
  · rw [haccepted]
    rintro ⟨_, hclear⟩
    have hbit := hclear 16 (by decide) (by decide)
    revert hbit
    decide

end PciInventory.Address
