/-!
# Numerals in text

Printing writes lower-case digits, padded with zeros on request.  Reading is
the usual reading of an unsigned number in some base up to sixteen: an optional
plus sign, then at least one digit of either case, and a value below a given
bound.
-/

namespace PciInventory.Numeral

/-- The digits of `value` in hexadecimal, padded with zeros to at least `width`
of them. -/
def hexDigits (width value : Nat) : List Char :=
  List.leftpad width '0' (Nat.toDigits 16 value)

def hex (width value : Nat) : String :=
  String.ofList (hexDigits width value)

/-- Hexadecimal with the `0x` mark; `width` counts the mark as well. -/
def markedHex (width value : Nat) : String :=
  "0x" ++ hex (width - 2) value

def decimal (value : Nat) : String :=
  String.ofList (Nat.toDigits 10 value)

def digit? (c : Char) : Option Nat :=
  if '0' ≤ c ∧ c ≤ '9' then some (c.toNat - '0'.toNat)
  else if 'a' ≤ c ∧ c ≤ 'f' then some (c.toNat - 'a'.toNat + 10)
  else if 'A' ≤ c ∧ c ≤ 'F' then some (c.toNat - 'A'.toNat + 10)
  else none

/-- A run of digits read on from the value `value`, which more digits can only
make larger: the reading ends as soon as the value reaches `bound`. -/
def digits? (base bound : Nat) : (value : Nat) → List Char → Option Nat
  | value, [] => if value < bound then some value else none
  | value, c :: rest =>
      match digit? c with
      | some d =>
          if d < base ∧ value < bound then
            digits? base bound (base * value + d) rest
          else none
      | none => none

def unsigned : List Char → List Char
  | '+' :: rest => rest
  | text => text

def read? (base bound : Nat) (text : List Char) : Option Nat :=
  match unsigned text with
  | [] => none
  | digits => digits? base bound 0 digits

end PciInventory.Numeral
