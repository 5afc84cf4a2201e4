import PciInventory.Address

/-!
# Packed addresses

An in-range address and its packed word determine each other: the word is read
back only if the bits that belong to no field are clear, and then every bit of
it is a bit of the address.  An address out of range packs like the address
with its device and function numbers cut to five and three bits.
-/

namespace PciInventory.Address

/-- The address with the higher bits of its device and function numbers
dropped. -/
def masked (address : Address) : Address :=
  { address with
    device := address.device % 32
    function := address.function % 8 }

theorem masked_inRange (address : Address) : address.masked.InRange := by
  constructor
  · simp only [masked, UInt8.toNat_mod, UInt8.reduceToNat]
    omega
  · simp only [masked, UInt8.toNat_mod, UInt8.reduceToNat]
    omega

theorem masked_eq_self_iff (address : Address) :
    address.masked = address ↔ address.InRange := by
  constructor
  · intro hmasked
    rw [← hmasked]
    exact address.masked_inRange
  · intro hparts
    rcases hparts with ⟨hdevice, hfunction⟩
    have hdeviceMod : address.device % 32 = address.device := by
      apply UInt8.toNat_inj.mp
      simp only [UInt8.toNat_mod, UInt8.reduceToNat]
      omega
    have hfunctionMod : address.function % 8 = address.function := by
      apply UInt8.toNat_inj.mp
      simp only [UInt8.toNat_mod, UInt8.reduceToNat]
      omega
    simp only [masked, hdeviceMod, hfunctionMod]

theorem pack_masked (address : Address) :
    address.masked.pack = address.pack := by
  simp [pack, key, masked]

theorem key_lt (address : Address) : address.key < UInt16.size := by
  have hbus : address.bus.toNat < 256 := address.bus.toNat_lt
  simp only [key, UInt16.size]
  omega

theorem pack_toNat (address : Address) :
    address.pack.toNat =
      address.domain.toNat * UInt32.size + address.key := by
  have hdomain : address.domain.toNat < 65536 := address.domain.toNat_lt
  have hkey : address.key < 65536 := address.key_lt
  simp only [pack, UInt64.toNat_ofNat', UInt32.size]
  omega

theorem unpack?_pack (address : Address) :
    unpack? address.pack = some address.masked := by
  have hdomain : address.domain.toNat < 65536 := address.domain.toNat_lt
  have hbus : address.bus.toNat < 256 := address.bus.toNat_lt
  have hkey : address.key < 65536 := address.key_lt
  have hupper : address.pack.toNat / 4294967296 = address.domain.toNat := by
    rw [pack_toNat, UInt32.size]
    omega
  have hlower : address.pack.toNat % 4294967296 = address.key := by
    rw [pack_toNat, UInt32.size]
    omega
  simp only [unpack?, UInt32.size, UInt16.size, hupper, hlower, hdomain, hkey,
    and_self, if_true, masked, Option.some.injEq, Address.mk.injEq]
  refine ⟨?_, ?_, ?_, ?_⟩
  · exact UInt16.ofNat_toNat
  · apply UInt8.toNat_inj.mp
    simp only [UInt8.toNat_ofNat', key]
    omega
  · apply UInt8.toNat_inj.mp
    simp only [UInt8.toNat_ofNat', UInt8.toNat_mod, UInt8.reduceToNat, key]
    omega
  · apply UInt8.toNat_inj.mp
    simp only [UInt8.toNat_ofNat', UInt8.toNat_mod, UInt8.reduceToNat, key]
    omega

theorem pack_of_unpack? {word : UInt64} {address : Address}
    (hunpack : unpack? word = some address) : address.pack = word := by
  unfold unpack? at hunpack
  simp only [UInt32.size, UInt16.size] at hunpack
  split at hunpack
  next hclear =>
    obtain ⟨hdomain, hkey⟩ := hclear
    simp only [Option.some.injEq] at hunpack
    subst address
    apply UInt64.toNat_inj.mp
    simp only [pack_toNat, UInt32.size, key, UInt16.toNat_ofNat',
      UInt8.toNat_ofNat']
    omega
  next => contradiction

/-- Reading a word back is exact on the addresses in range. -/
theorem unpack?_eq_some_iff {word : UInt64} {address : Address} :
    unpack? word = some address ↔
      address.InRange ∧ word = address.pack := by
  constructor
  · intro hunpack
    have hpack : address.pack = word := pack_of_unpack? hunpack
    have hmasked : address.masked = address := by
      rw [← hpack, unpack?_pack] at hunpack
      exact Option.some.inj hunpack
    exact ⟨address.masked_eq_self_iff.mp hmasked, hpack.symm⟩
  · intro hparts
    rcases hparts with ⟨hrange, rfl⟩
    rw [unpack?_pack, address.masked_eq_self_iff.mpr hrange]

end PciInventory.Address
