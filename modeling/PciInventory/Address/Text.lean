import PciInventory.ScanError

/-!
# Reading bus identifiers and addresses

A bus identifier is `DDDD:BB` and an address `DDDD:BB:DD.F`, all digits
hexadecimal: one to four digits of domain, two of bus and device, one of
function.  A plus sign may stand in place of a field's first digit.
-/

namespace PciInventory

/-- The parts before and after the first `separator`. -/
def splitFirst? (separator : Char) :
    List Char → Option (List Char × List Char)
  | [] => none
  | c :: rest =>
      if c = separator then some ([], rest)
      else (splitFirst? separator rest).map fun (before, after) =>
        (c :: before, after)

/-- The parts before and after the last `separator`. -/
def splitLast? (separator : Char) (text : List Char) :
    Option (List Char × List Char) :=
  (splitFirst? separator text.reverse).map fun (after, before) =>
    (before.reverse, after.reverse)

namespace BusId

def parse? (text : List Char) : Option BusId := do
  let (domain, number) ← splitFirst? ':' text
  guard (1 ≤ domain.length ∧ domain.length ≤ 4 ∧ number.length = 2)
  let domain ← Numeral.read? 16 UInt16.size domain
  let number ← Numeral.read? 16 UInt8.size number
  return ⟨UInt16.ofNat domain, UInt8.ofNat number⟩

def ofText (text : String) : Except ScanError BusId :=
  match parse? text.toList with
  | some id => .ok id
  | none => .error (.malformed "bus identifier" text)

end BusId

namespace Address

def parse? (text : List Char) : Option Address := do
  let (bus, slot) ← splitLast? ':' text
  let bus ← BusId.parse? bus
  let (device, function) ← splitFirst? '.' slot
  guard (device.length = 2 ∧ function.length = 1)
  let device ← Numeral.read? 16 32 device
  let function ← Numeral.read? 16 8 function
  return ⟨bus.domain, bus.number, UInt8.ofNat device, UInt8.ofNat function⟩

def ofText (text : String) : Except ScanError Address :=
  match parse? text.toList with
  | some address => .ok address
  | none => .error (.malformed "device address" text)

def ofPacked (word : UInt64) : Except ScanError Address :=
  match unpack? word with
  | some address => .ok address
  | none =>
      .error (.malformed "device address" (Numeral.markedHex 0 word.toNat))

end Address

end PciInventory
