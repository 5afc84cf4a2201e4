import PciInventory.ConfigSpace
import PciInventory.ScanError

/-!
# The snapshot format

A snapshot is a header, one record for each device and one for each bus, packed
without padding, all numbers little-endian:

* header: magic, creation time (8 bytes), file size (8), device count (4), bus
  count (4);
* device: packed address (8), config size flag (1), resource count (1), NUMA
  node (2), IOMMU group (2), driver length (1), final-device flag (1), then the
  resources (24 each), the driver name with a zero byte at its end, and the
  configuration space;
* bus: domain (2), bus number (2), root flag (2).

Each record type has its encoding, and a reader that takes it off the front of
a byte string.
-/

namespace PciInventory.Snapshot

/-- The first bytes of every snapshot, `xeicp`. -/
def magic : Bytes :=
  [0x78, 0x65, 0x69, 0x63, 0x70]

def headerSize : Nat := 29
def staticSize : Nat := 16
def resourceSize : Nat := 24
def busSize : Nat := 6

/-- Stands for an unknown NUMA node or IOMMU group. -/
def noValue : UInt16 := 0xffff

/-- The longest driver name whose length with its zero byte fits one byte. -/
def maxDriverLength : Nat := 254

/-- A reader takes a value off the front of a byte string or fails. -/
abbrev Reader (α : Type) := StateT Bytes (Except SnapshotError) α

namespace Reader

def fail {α : Type} (error : SnapshotError) : Reader α :=
  fun _ => .error error

def bytes (width : Nat) : Reader Bytes := fun input =>
  let field := input.take width
  if field.length = width then .ok (field, input.drop width)
  else .error (.io .endOfData)

def number (width : Nat) : Reader Nat := do
  return (← bytes width).toNumber

def word8 : Reader UInt8 := do
  return UInt8.ofNat (← number 1)

def word16 : Reader UInt16 := do
  return UInt16.ofNat (← number 2)

def word32 : Reader UInt32 := do
  return UInt32.ofNat (← number 4)

def word64 : Reader UInt64 := do
  return UInt64.ofNat (← number 8)

/-- A byte that is zero or one. -/
def flag (reason : String) : Reader Bool := do
  let byte ← word8
  if byte = 0 then return false
  else if byte = 1 then return true
  else fail (.corrupt reason)

/-- A text of `length` bytes with a zero byte at its end and none before. -/
def terminated (length : Nat) : Reader String := do
  let field ← bytes length
  if field.getLast? ≠ some 0 then
    fail (.corrupt "string is not NUL-terminated")
  else if field.dropLast.contains 0 then
    fail (.corrupt "string has an embedded NUL")
  else
    match Utf8.decode? field.dropLast with
    | some text => return text
    | none => fail (.utf8 (Utf8.fault field.dropLast))

end Reader

/-- One byte for a truth value. -/
def flagByte (value : Bool) : UInt8 :=
  if value then 1 else 0

structure Header where
  /-- Seconds since the start of 1970. -/
  created : UInt64
  /-- The size of the whole snapshot, this header included. -/
  fileSize : UInt64
  deviceCount : UInt32
  busCount : UInt32
deriving DecidableEq

namespace Header

def encode (header : Header) : Bytes :=
  magic ++
    Bytes.littleEndian 8 header.created.toNat ++
    Bytes.littleEndian 8 header.fileSize.toNat ++
    Bytes.littleEndian 4 header.deviceCount.toNat ++
    Bytes.littleEndian 4 header.busCount.toNat

/-- The magic is checked before anything else is read. -/
def read : Reader Header := do
  let mark ← Reader.bytes magic.length
  if mark ≠ magic then
    Reader.fail .invalidMagic
  else
    let created ← Reader.word64
    let fileSize ← Reader.word64
    let deviceCount ← Reader.word32
    let busCount ← Reader.word32
    return ⟨created, fileSize, deviceCount, busCount⟩

end Header

/-- The part of a device record that has a fixed size. -/
structure StaticBlock where
  address : UInt64
  isExtended : Bool
  resourceCount : UInt8
  numaNode : UInt16
  iommuGroup : UInt16
  /-- With the zero byte at the end; zero if there is no driver. -/
  driverLength : UInt8
  isFinal : Bool
deriving DecidableEq

namespace StaticBlock

def encode (block : StaticBlock) : Bytes :=
  Bytes.littleEndian 8 block.address.toNat ++
    [flagByte block.isExtended, block.resourceCount] ++
    Bytes.littleEndian 2 block.numaNode.toNat ++
    Bytes.littleEndian 2 block.iommuGroup.toNat ++
    [block.driverLength, flagByte block.isFinal]

def read : Reader StaticBlock := do
  let address ← Reader.word64
  let isExtended ← Reader.flag "invalid config size flag"
  let resourceCount ← Reader.word8
  let numaNode ← Reader.word16
  let iommuGroup ← Reader.word16
  let driverLength ← Reader.word8
  let isFinal ← Reader.flag "invalid final-device flag"
  return ⟨address, isExtended, resourceCount, numaNode, iommuGroup,
    driverLength, isFinal⟩

def configLength (block : StaticBlock) : Nat :=
  if block.isExtended then ConfigSpace.extendedSize
  else ConfigSpace.conventionalSize

/-- The size of what follows the block in its record. -/
def dynamicLength (block : StaticBlock) : Nat :=
  block.resourceCount.toNat * resourceSize + block.driverLength.toNat +
    block.configLength

end StaticBlock

/-- A buffer of fixed size, zero where nothing is written, after `content` is
written to its front. -/
def intoBuffer (capacity : Nat) (content : Bytes) :
    Except SnapshotError Bytes :=
  if content.length ≤ capacity then
    .ok (content ++ List.replicate (capacity - content.length) 0)
  else
    .error (.io .bufferFull)

end PciInventory.Snapshot
