import PciInventory.Record
import PciInventory.Snapshot.Format

/-!
# Reading a snapshot

A snapshot is accepted as a whole or not at all.  The header has to agree with
the size of the data, and a running budget keeps every device record inside the
device table before its variable part is read.
-/

namespace PciInventory

structure Snapshot where
  created : UInt64
  devices : List DeviceRecord
  buses : List BusRecord
deriving DecidableEq

namespace Snapshot

def knownWord (value : UInt16) : Option UInt16 :=
  if value = noValue then none else some value

def readResource : Reader Resource := do
  let start ← Reader.word64
  let finish ← Reader.word64
  let flags ← Reader.word64
  return ⟨start, finish, flags⟩

def readResources : (count : Nat) → Reader (List Resource)
  | 0 => return []
  | count + 1 => do
      let resource ← readResource
      let rest ← readResources count
      return resource :: rest

def readDriver (length : UInt8) : Reader (Option String) :=
  if length = 0 then return none
  else do
    let driver ← Reader.terminated length.toNat
    return some driver

/-- What follows the static block of a record. -/
def readDynamic (block : StaticBlock) (address : Address) :
    Reader DeviceRecord := do
  let resources ← readResources block.resourceCount.toNat
  let driver ← readDriver block.driverLength
  let config ← Reader.bytes block.configLength
  return {
    address
    config
    resources
    driver
    numaNode := knownWord block.numaNode
    iommuGroup := knownWord block.iommuGroup }

/-- One device record out of a device table with `budget` bytes left, and what
is left of it then. -/
def readRecord (isLast : Bool) (budget : Nat) :
    Reader (DeviceRecord × Nat) := do
  let block ← StaticBlock.read
  let length := staticSize + block.dynamicLength
  if budget < length then
    Reader.fail (.corrupt "device record overruns the device table")
  else if block.isFinal ≠ isLast then
    Reader.fail (.corrupt "final-device flag out of place")
  else
    match Address.unpack? block.address with
    | none => Reader.fail (.corrupt "invalid device address")
    | some address =>
        let record ← readDynamic block address
        return (record, budget - length)

def readRecords : (count budget : Nat) → Reader (List DeviceRecord)
  | 0, _ => return []
  | count + 1, budget => do
      let (record, budget) ← readRecord (count = 0) budget
      let rest ← readRecords count budget
      return record :: rest

def readBus : Reader BusRecord := do
  let domain ← Reader.word16
  let number ← Reader.word16
  if 255 < number then
    Reader.fail (.corrupt "bus number out of range")
  else
    let root ← Reader.word16
    if root = 0 then return ⟨⟨domain, number.toUInt8⟩, false⟩
    else if root = 1 then return ⟨⟨domain, number.toUInt8⟩, true⟩
    else Reader.fail (.corrupt "invalid root-bus flag")

def readBuses : (count : Nat) → Reader (List BusRecord)
  | 0 => return []
  | count + 1 => do
      let bus ← readBus
      let rest ← readBuses count
      return bus :: rest

/-- The reader of a snapshot that takes up all of `actual` bytes. -/
def reader (actual : Nat) : Reader Snapshot := do
  let header ← Header.read
  let deviceCount := header.deviceCount.toNat
  let busCount := header.busCount.toNat
  let body := actual - headerSize
  if header.fileSize.toNat ≠ actual then
    Reader.fail (.sizeMismatch header.fileSize.toNat actual)
  else if deviceCount = 0 then
    Reader.fail (.emptyTable "device")
  else if busCount = 0 then
    Reader.fail (.emptyTable "bus")
  else if body < deviceCount * staticSize + busCount * busSize then
    Reader.fail (.corrupt "record counts exceed file size")
  else
    let devices ← readRecords deviceCount (body - busCount * busSize)
    let buses ← readBuses busCount
    let rest ← get
    if rest.isEmpty then return ⟨header.created, devices, buses⟩
    else Reader.fail (.corrupt "trailing bytes after bus table")

/-- The snapshot that starts at `position` and goes on to the end. -/
def decodeAt (content : Bytes) (position : Nat) :
    Except SnapshotError Snapshot :=
  let input := content.drop position
  ((reader input.length).run input).map fun result => result.1

def decode (content : Bytes) : Except SnapshotError Snapshot :=
  decodeAt content 0

end Snapshot

end PciInventory
