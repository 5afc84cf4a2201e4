import PciInventory.Record
import PciInventory.Snapshot.Format

/-!
# Writing a snapshot

The records are written first, behind the place of the header, and the header
last, once the size is known; a snapshot cut short therefore has no valid
header.  Writing is described by the writes it performs in order, so that what
an interrupted or failed write leaves behind is known as well.
-/

namespace PciInventory.Snapshot

/-- Bytes written at an offset from the start of the snapshot. -/
structure Write where
  offset : Nat
  content : Bytes
deriving DecidableEq

def optionalWord (value : Option UInt16) : UInt16 :=
  value.getD noValue

/-- The length of a driver name with its zero byte.  A name is refused if it is
too long or has a zero byte inside. -/
def driverFieldLength : Option String → Except SnapshotError UInt8
  | none => .ok 0
  | some driver =>
      let name := Bytes.ofText driver
      if maxDriverLength < name.length then
        .error (.tooLarge "driver name")
      else if name.contains 0 then
        .error (.corrupt "driver name has an embedded NUL")
      else
        .ok (UInt8.ofNat (name.length + 1))

namespace StaticBlock

/-- The block of a record that fits the format.  The configuration space is
checked first, then the resources, then the driver. -/
def ofRecord (record : DeviceRecord) (isFinal : Bool) :
    Except SnapshotError StaticBlock :=
  if record.config.length ≠ ConfigSpace.conventionalSize ∧
      record.config.length ≠ ConfigSpace.extendedSize then
    .error (.corrupt "config space is neither 256 nor 4096 bytes")
  else if 255 < record.resources.length then
    .error (.tooLarge "resource list")
  else
    (driverFieldLength record.driver).map fun driverLength =>
      { address := record.address.pack
        isExtended := record.config.length = ConfigSpace.extendedSize
        resourceCount := UInt8.ofNat record.resources.length
        numaNode := optionalWord record.numaNode
        iommuGroup := optionalWord record.iommuGroup
        driverLength
        isFinal }

end StaticBlock

def encodeResource (resource : Resource) : Bytes :=
  Bytes.littleEndian 8 resource.start.toNat ++
    Bytes.littleEndian 8 resource.finish.toNat ++
    Bytes.littleEndian 8 resource.flags.toNat

def encodeDriver : Option String → Bytes
  | none => []
  | some driver => Bytes.ofText driver ++ [0]

def encodeRecord (record : DeviceRecord) (isFinal : Bool) :
    Except SnapshotError Bytes :=
  (StaticBlock.ofRecord record isFinal).map fun block =>
    block.encode ++ record.resources.flatMap encodeResource ++
      encodeDriver record.driver ++ record.config

/-- The records up to the first that does not fit the format, and why it does
not.  The final flag marks the last record. -/
def encodeRecords : List DeviceRecord → Bytes × Option SnapshotError
  | [] => ([], none)
  | record :: rest =>
      match encodeRecord record rest.isEmpty with
      | .ok content =>
          let others := encodeRecords rest
          (content ++ others.1, others.2)
      | .error error => ([], some error)

def encodeBus (bus : BusRecord) : Bytes :=
  Bytes.littleEndian 2 bus.id.domain.toNat ++
    Bytes.littleEndian 2 bus.id.number.toNat ++
    Bytes.littleEndian 2 (flagByte bus.isRoot).toNat

/-- The writes made for a snapshot, and its size or the reason why it is left
unfinished. -/
def writes (devices : List DeviceRecord) (buses : List BusRecord)
    (created : UInt64) : List Write × Except SnapshotError Nat :=
  if devices.isEmpty then
    ([], .error (.emptyTable "device"))
  else if buses.isEmpty then
    ([], .error (.emptyTable "bus"))
  else if UInt32.size ≤ devices.length then
    ([], .error (.tooLarge "device table"))
  else if UInt32.size ≤ buses.length then
    ([], .error (.tooLarge "bus table"))
  else
    let records := encodeRecords devices
    match records.2 with
    | some error => ([⟨headerSize, records.1⟩], .error error)
    | none =>
        let body := records.1 ++ buses.flatMap encodeBus
        let size := headerSize + body.length
        let header : Header :=
          { created
            fileSize := UInt64.ofNat size
            deviceCount := UInt32.ofNat devices.length
            busCount := UInt32.ofNat buses.length }
        ([⟨headerSize, body⟩, ⟨0, header.encode⟩], .ok size)

/-- A growing buffer after writes relative to the position `start`. -/
def perform (start : Nat) (buffer : Bytes) (writes : List Write) : Bytes :=
  writes.foldl
    (fun buffer write => buffer.overwrite (start + write.offset) write.content)
    buffer

/-- Writes a snapshot into a growing buffer.  Returns the buffer, also after a
failure, and the size of the snapshot. -/
def writeAt (buffer : Bytes) (start : Nat) (devices : List DeviceRecord)
    (buses : List BusRecord) (created : UInt64) :
    Bytes × Except SnapshotError Nat :=
  let made := writes devices buses created
  (perform start buffer made.1, made.2)

/-- A snapshot as the content of a file of its own. -/
def encode (devices : List DeviceRecord) (buses : List BusRecord)
    (created : UInt64) : Except SnapshotError Bytes :=
  let written := writeAt [] 0 devices buses created
  written.2.map fun _ => written.1

end PciInventory.Snapshot
