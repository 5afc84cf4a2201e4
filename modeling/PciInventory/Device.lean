import PciInventory.Capability.Chain
import PciInventory.Names.Resolver
import PciInventory.Record

/-!
# Devices

A device is a record that could be interpreted: its header layout is known and
its capability chains end.  It keeps the record unchanged; everything else it
shows is a function of the record, apart from the names, which also depend on
the name database.
-/

namespace PciInventory

/-- The names found for a device; those not found are empty. -/
structure DeviceNames where
  vendor : String
  device : String
  classNames : Names.ClassNames
  subsystem : String
  subsystemVendor : String
deriving DecidableEq

structure Device where
  record : DeviceRecord
  kind : DeviceKind
  capabilities : List Capability
  names : DeviceNames
deriving DecidableEq

/-- A bridge keeps its subsystem ids in a capability of its own. -/
def bridgeSubsystemIds? (config : ConfigSpace)
    (capabilities : List Capability) : Option SubsystemIds := do
  let capability ← capabilities.find? fun capability =>
    capability.kind = .compatible &&
      capability.id = Capability.subsystemVendorId
  let vendor ← config.read16? (capability.offset + 4)
  let device ← config.read16? (capability.offset + 6)
  return ⟨vendor, device⟩

def subsystemIdsOf? (config : ConfigSpace) (kind : DeviceKind)
    (capabilities : List Capability) : Option SubsystemIds :=
  match kind with
  | .endpoint => config.subsystemIds?
  | .bridge => bridgeSubsystemIds? config capabilities

namespace DeviceNames

/-- Vendor and device first, then the class, then the subsystem and its
vendor. -/
def resolve (config : ConfigSpace) (subsystem : Option SubsystemIds)
    (resolver : Names.Resolver) : DeviceNames × Names.Resolver :=
  let vendorId := config.vendorId?.getD 0xffff
  let deviceId := config.deviceId?.getD 0xffff
  let (vendor, resolver) := resolver.vendorName vendorId
  let (device, resolver) := resolver.deviceName vendorId deviceId
  let (classNames, resolver) :=
    match config.classCode? with
    | some code => resolver.classNames code
    | none => (Names.ClassNames.unknown, resolver)
  match subsystem with
  | some ids =>
      let name :=
        resolver.subsystemName vendorId deviceId ids.vendor ids.device
      let (maker, resolver) := resolver.vendorName ids.vendor
      (⟨vendor, device, classNames, name, maker⟩, resolver)
  | none => (⟨vendor, device, classNames, "", ""⟩, resolver)

end DeviceNames

namespace Device

/-- The header layout and the capabilities of a record.  The record is refused
if its configuration space is too short, its layout unknown or its capability
chain broken, in this order. -/
def interpret (record : DeviceRecord) :
    Except ScanError (DeviceKind × List Capability) :=
  let config : ConfigSpace := ⟨record.config⟩
  if config.length < ConfigSpace.headerSize then
    .error (.malformed "config space"
      s!"{record.address.text}: {config.length} bytes is shorter than the standard header")
  else
    let layout := config.headerLayout?.getD 0
    match DeviceKind.ofLayout? layout with
    | none =>
        .error (.malformed "config space"
          (record.address.text ++ ": unsupported header type " ++
            Numeral.markedHex 4 layout.toNat))
    | some kind =>
        (Capability.all record.address config).map fun capabilities =>
          (kind, capabilities)

/-- The device of a record.  A refused record leaves the resolver alone. -/
def build (record : DeviceRecord) (resolver : Names.Resolver) :
    Except ScanError (Device × Names.Resolver) :=
  (interpret record).map fun (kind, capabilities) =>
    let config : ConfigSpace := ⟨record.config⟩
    let subsystem := subsystemIdsOf? config kind capabilities
    let (names, resolver) := DeviceNames.resolve config subsystem resolver
    (⟨record, kind, capabilities, names⟩, resolver)

def address (device : Device) : Address :=
  device.record.address

def config (device : Device) : ConfigSpace :=
  ⟨device.record.config⟩

def vendorId (device : Device) : UInt16 :=
  device.config.vendorId?.getD 0xffff

def deviceId (device : Device) : UInt16 :=
  device.config.deviceId?.getD 0xffff

def classCode (device : Device) : Nat :=
  device.config.classCode?.getD 0

def subsystemIds? (device : Device) : Option SubsystemIds :=
  subsystemIdsOf? device.config device.kind device.capabilities

def bars (device : Device) : List BarSlot :=
  Resource.bars device.record.resources device.kind

def expansionRom? (device : Device) : Option Region :=
  Resource.expansionRom? device.record.resources device.kind

def windows (device : Device) : List Region :=
  Resource.windows device.record.resources device.kind

def findCapability? (device : Device) (kind : CapabilityKind) (id : UInt16) :
    Option Capability :=
  device.capabilities.find? fun capability =>
    capability.kind = kind && capability.id = id

/-- The bus right behind a bridge; an endpoint has none. -/
def secondaryBus? (device : Device) : Option UInt8 :=
  match device.kind with
  | .endpoint => none
  | .bridge => device.config.secondaryBus?

end Device

end PciInventory
