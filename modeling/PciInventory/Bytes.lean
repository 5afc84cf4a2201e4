/-!
# Byte strings and little-endian numbers

Registers, snapshot records and file contents are all plain byte strings, kept
here as lists so that every reader is a recursion on what is left.  A number of
width `w` is written least significant byte first; reading back `w` written
bytes gives the number modulo the capacity of `w` bytes.
-/

namespace PciInventory

/-- The content of a file, of a register block or of a path. -/
abbrev Bytes := List UInt8

namespace Bytes

def ofText (text : String) : Bytes :=
  text.toByteArray.data.toList

/-- The `width` little-endian bytes of `value`; higher bits are dropped. -/
def littleEndian : (width value : Nat) → Bytes
  | 0, _ => []
  | width + 1, value => UInt8.ofNat value :: littleEndian width (value / 256)

/-- The number of values that `width` bytes can hold. -/
def capacity : (width : Nat) → Nat
  | 0 => 1
  | width + 1 => 256 * capacity width

def toNumber : Bytes → Nat
  | [] => 0
  | byte :: rest => byte.toNat + 256 * toNumber rest

@[simp] theorem littleEndian_zero (value : Nat) :
    littleEndian 0 value = [] := rfl

@[simp] theorem littleEndian_succ (width value : Nat) :
    littleEndian (width + 1) value =
      UInt8.ofNat value :: littleEndian width (value / 256) := rfl

@[simp] theorem capacity_zero : capacity 0 = 1 := rfl

@[simp] theorem capacity_succ (width : Nat) :
    capacity (width + 1) = 256 * capacity width := rfl

theorem capacity_pos (width : Nat) : 0 < capacity width := by
  induction width with
  | zero => decide
  | succ width ih => simp [ih]

@[simp] theorem toNumber_nil : toNumber [] = 0 := rfl

@[simp] theorem toNumber_cons (byte : UInt8) (rest : Bytes) :
    toNumber (byte :: rest) = byte.toNat + 256 * toNumber rest := rfl

@[simp] theorem littleEndian_length (width value : Nat) :
    (littleEndian width value).length = width := by
  induction width generalizing value with
  | zero => rfl
  | succ width ih => simp [ih]

theorem toNumber_lt (bytes : Bytes) :
    toNumber bytes < capacity bytes.length := by
  induction bytes with
  | nil => simp
  | cons byte rest ih =>
      have hbyte : byte.toNat < 256 := byte.toNat_lt
      simp only [toNumber_cons, List.length_cons, capacity_succ]
      omega

theorem toNumber_littleEndian (width value : Nat) :
    toNumber (littleEndian width value) = value % capacity width := by
  induction width generalizing value with
  | zero => simp [Nat.mod_one]
  | succ width ih =>
      have hbyte : (UInt8.ofNat value).toNat = value % 256 := by simp
      rw [littleEndian_succ, toNumber_cons, ih, hbyte, capacity_succ,
        Nat.mod_mul]

theorem littleEndian_toNumber (bytes : Bytes) :
    littleEndian bytes.length (toNumber bytes) = bytes := by
  induction bytes with
  | nil => rfl
  | cons byte rest ih =>
      have hbyte : byte.toNat < 256 := byte.toNat_lt
      have hdiv : (byte.toNat + 256 * toNumber rest) / 256 =
          toNumber rest := by omega
      simp only [List.length_cons, littleEndian_succ, toNumber_cons, hdiv, ih]
      congr 1
      apply UInt8.toNat_inj.mp
      simp only [UInt8.toNat_ofNat']
      omega

theorem exists_ne_zero_of_toNumber_ne_zero {bytes : Bytes}
    (hnumber : toNumber bytes ≠ 0) : ∃ byte ∈ bytes, byte ≠ 0 := by
  induction bytes with
  | nil => exact (hnumber rfl).elim
  | cons byte rest ih =>
      by_cases hbyte : byte = 0
      · have hrest : toNumber rest ≠ 0 := by
          intro hzero
          exact hnumber (by rw [toNumber_cons, hbyte, hzero]; rfl)
        obtain ⟨other, hmem, hother⟩ := ih hrest
        exact ⟨other, List.mem_cons_of_mem byte hmem, hother⟩
      · exact ⟨byte, List.mem_cons_self, hbyte⟩

/-- The bytes at `offset .. offset + width`, when all of them exist. -/
def slice? (bytes : Bytes) (offset width : Nat) : Option Bytes :=
  let field := (bytes.drop offset).take width
  if field.length = width then some field else none

def number? (bytes : Bytes) (offset width : Nat) : Option Nat :=
  (bytes.slice? offset width).map toNumber

/-- `bytes` with `piece` written over the positions from `offset` on.  Writing
past the end first pads with zeros up to `offset`; writing nothing changes
nothing. -/
def overwrite (bytes : Bytes) (offset : Nat) (piece : Bytes) : Bytes :=
  if piece.isEmpty then
    bytes
  else
    bytes.take offset ++ List.replicate (offset - bytes.length) 0 ++ piece ++
      bytes.drop (offset + piece.length)

/-- Whether `first` comes before or equals `second` in byte-wise dictionary
order. -/
def precedesOrEq : (first second : Bytes) → Bool
  | [], _ => true
  | _ :: _, [] => false
  | a :: first, b :: second =>
      a < b || (a == b && precedesOrEq first second)

end Bytes

end PciInventory
