import PciInventory.Text.Numeral

/-!
# Buses and device addresses

A PCI function is named by its domain, bus, device and function number, a bus
by its domain and number.  Both are ordered field by field, which is the order
of every listing; `rank` is that order as a number.  A device number has five
bits and a function number three, so an in-range address also packs into one
word, and the packed words sort like the addresses.
-/

namespace PciInventory

/-- A bus number within its domain. -/
structure BusId where
  domain : UInt16
  number : UInt8
deriving DecidableEq, Inhabited

/-- The place of one PCI function. -/
structure Address where
  domain : UInt16
  bus : UInt8
  device : UInt8
  function : UInt8
deriving DecidableEq, Inhabited

namespace BusId

def rank (id : BusId) : Nat :=
  id.domain.toNat * 256 + id.number.toNat

/-- The written form `DDDD:BB`. -/
def text (id : BusId) : String :=
  Numeral.hex 4 id.domain.toNat ++ ":" ++ Numeral.hex 2 id.number.toNat

end BusId

namespace Address

def rank (address : Address) : Nat :=
  ((address.domain.toNat * 256 + address.bus.toNat) * 256 +
    address.device.toNat) * 256 + address.function.toNat

def busId (address : Address) : BusId :=
  ⟨address.domain, address.bus⟩

def sort (addresses : List Address) : List Address :=
  addresses.mergeSort fun first second => first.rank ≤ second.rank

/-- Device and function numbers fit their five and three bits. -/
def InRange (address : Address) : Prop :=
  address.device.toNat ≤ 31 ∧ address.function.toNat ≤ 7

instance (address : Address) : Decidable address.InRange :=
  inferInstanceAs (Decidable (_ ∧ _))

/-- The written form `DDDD:BB:DD.F`. -/
def text (address : Address) : String :=
  address.busId.text ++ ":" ++ Numeral.hex 2 address.device.toNat ++ "." ++
    Numeral.hex 1 address.function.toNat

/-- Function in bits 0 to 2, device in bits 3 to 7 and bus in bits 8 to 15;
higher bits of the device and function numbers are dropped. -/
def key (address : Address) : Nat :=
  address.bus.toNat * 256 + address.device.toNat % 32 * 8 +
    address.function.toNat % 8

/-- The domain in the upper half of the word and the key in the lower one. -/
def pack (address : Address) : UInt64 :=
  UInt64.ofNat (address.domain.toNat * UInt32.size + address.key)

/-- The address with the given packed word.  Bits 16 to 31 and 48 to 63 belong
to no field and have to be clear. -/
def unpack? (word : UInt64) : Option Address :=
  let domain := word.toNat / UInt32.size
  let key := word.toNat % UInt32.size
  if domain < UInt16.size ∧ key < UInt16.size then
    some {
      domain := UInt16.ofNat domain
      bus := UInt8.ofNat (key / 256)
      device := UInt8.ofNat (key / 8 % 32)
      function := UInt8.ofNat (key % 8) }
  else
    none

end Address

end PciInventory
