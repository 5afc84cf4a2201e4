import PciInventory.Bytes
import PciInventory.Text.Numeral

/-!
# Configuration space

The register file of one PCI function, 256 bytes for a conventional device and
4096 for a PCI Express one.  A captured buffer may have any length, so every
register read is optional.  Registers of more than one byte are little-endian.
-/

namespace PciInventory

/-- The two header layouts: an endpoint (type 0) and a bridge (type 1). -/
inductive DeviceKind where
  | endpoint
  | bridge
deriving DecidableEq

namespace DeviceKind

def ofLayout? (layout : UInt8) : Option DeviceKind :=
  if layout = 0 then some .endpoint
  else if layout = 1 then some .bridge
  else none

def barCount : DeviceKind → Nat
  | .endpoint => 6
  | .bridge => 2

end DeviceKind

/-- The ids a board maker gives, next to those of the chip's maker. -/
structure SubsystemIds where
  vendor : UInt16
  device : UInt16
deriving DecidableEq

structure ConfigSpace where
  bytes : Bytes
deriving DecidableEq

namespace ConfigSpace

def conventionalSize : Nat := 256
def extendedSize : Nat := 4096

/-- Length of the header that all layouts share. -/
def headerSize : Nat := 0x40

def length (config : ConfigSpace) : Nat :=
  config.bytes.length

/-- Whether the buffer reaches beyond the conventional space. -/
def isExtended (config : ConfigSpace) : Bool :=
  conventionalSize < config.length

def read8? (config : ConfigSpace) (offset : Nat) : Option UInt8 :=
  config.bytes[offset]?

def read16? (config : ConfigSpace) (offset : Nat) : Option UInt16 :=
  (config.bytes.number? offset 2).map UInt16.ofNat

def read32? (config : ConfigSpace) (offset : Nat) : Option UInt32 :=
  (config.bytes.number? offset 4).map UInt32.ofNat

/-- A register that can be read begins inside the buffer. -/
theorem lt_length_of_read32? {config : ConfigSpace} {offset : Nat}
    {value : UInt32} (h : config.read32? offset = some value) :
    offset < config.length := by
  simp only [read32?, Bytes.number?, Bytes.slice?, Option.map_eq_some_iff] at h
  obtain ⟨_, ⟨_, hslice, _⟩, _⟩ := h
  split at hslice
  · rename_i hlength
    simp only [List.length_take, List.length_drop] at hlength
    simp only [length]
    omega
  · simp at hslice

def vendorId? (config : ConfigSpace) : Option UInt16 :=
  config.read16? 0x00

def deviceId? (config : ConfigSpace) : Option UInt16 :=
  config.read16? 0x02

def command? (config : ConfigSpace) : Option UInt16 :=
  config.read16? 0x04

def status? (config : ConfigSpace) : Option UInt16 :=
  config.read16? 0x06

/-- Bit 4 of the status register. -/
def hasCapabilityList (config : ConfigSpace) : Bool :=
  match config.status? with
  | some status => status.toNat / 16 % 2 = 1
  | none => false

def revision? (config : ConfigSpace) : Option UInt8 :=
  config.read8? 0x08

/-- Base class, subclass and programming interface in one number, the base
class highest. -/
def classCode? (config : ConfigSpace) : Option Nat := do
  let interface ← config.read8? 0x09
  let subclass ← config.read8? 0x0a
  let base ← config.read8? 0x0b
  return base.toNat * 0x10000 + subclass.toNat * 0x100 + interface.toNat

/-- The header type without its multi-function bit. -/
def headerLayout? (config : ConfigSpace) : Option UInt8 :=
  (config.read8? 0x0e).map (· &&& 0x7f)

def isMultiFunction (config : ConfigSpace) : Bool :=
  match config.read8? 0x0e with
  | some header => header &&& 0x80 ≠ 0
  | none => false

/-- Where the capability chain starts; the two low bits are reserved. -/
def capabilityPointer? (config : ConfigSpace) : Option UInt8 :=
  (config.read8? 0x34).map (· &&& 0xfc)

def subsystemIds? (config : ConfigSpace) : Option SubsystemIds := do
  let vendor ← config.read16? 0x2c
  let device ← config.read16? 0x2e
  return ⟨vendor, device⟩

def interruptLine? (config : ConfigSpace) : Option UInt8 :=
  config.read8? 0x3c

def interruptPin? (config : ConfigSpace) : Option UInt8 :=
  config.read8? 0x3d

/-- The bus a bridge stands on. -/
def primaryBus? (config : ConfigSpace) : Option UInt8 :=
  config.read8? 0x18

/-- The bus right behind a bridge. -/
def secondaryBus? (config : ConfigSpace) : Option UInt8 :=
  config.read8? 0x19

/-- The highest bus number behind a bridge. -/
def subordinateBus? (config : ConfigSpace) : Option UInt8 :=
  config.read8? 0x1a

def optionalText (value : Option UInt16) : String :=
  match value with
  | some value => "Some(" ++ Numeral.decimal value.toNat ++ ")"
  | none => "None"

/-- A short description for diagnostics: the size and the two main ids. -/
def summary (config : ConfigSpace) : String :=
  "ConfigSpace \x7b len: " ++ Numeral.decimal config.length ++
    ", vendor_id: " ++ optionalText config.vendorId? ++
    ", device_id: " ++ optionalText config.deviceId? ++ " \x7d"

end ConfigSpace

end PciInventory
