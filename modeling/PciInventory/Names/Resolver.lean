import PciInventory.Names.Search

/-!
# Looking up names

A resolver remembers what earlier searches found, misses included: vendors,
the devices looked up under each vendor, and where the classes begin.  A device
is searched only under a vendor that has been looked up before, a subsystem
only under such a device; otherwise their names are empty.
-/

namespace PciInventory.Names

/-- A vendor that was found, with the devices looked up under it. -/
structure KnownVendor where
  entry : VendorEntry
  devices : List (UInt16 × Option DeviceEntry)

structure Resolver where
  database : Bytes
  vendors : List (UInt16 × Option KnownVendor)
  /-- `none` until the classes are first asked for. -/
  classBlock : Option (Option Nat)

namespace Resolver

def ofDatabase (database : Bytes) : Resolver :=
  ⟨database, [], none⟩

/-- The resolver without a database, to which every name is unknown. -/
def empty : Resolver :=
  ofDatabase []

def isEmpty (resolver : Resolver) : Bool :=
  resolver.database.isEmpty

def knownVendor? (resolver : Resolver) (vendor : UInt16) :
    Option KnownVendor :=
  (resolver.vendors.lookup vendor).join

/-- The device, if earlier lookups have found its vendor and then it. -/
def knownDevice? (resolver : Resolver) (vendor device : UInt16) :
    Option DeviceEntry :=
  match resolver.knownVendor? vendor with
  | some known => (known.devices.lookup device).join
  | none => none

def nameOfVendor : Option KnownVendor → String
  | some known => known.entry.name
  | none => ""

def nameOfDevice : Option DeviceEntry → String
  | some entry => entry.name
  | none => ""

def vendorName (resolver : Resolver) (vendor : UInt16) : String × Resolver :=
  match resolver.vendors.lookup vendor with
  | some found => (nameOfVendor found, resolver)
  | none =>
      let found := (findVendor resolver.database vendor).map fun entry =>
        ({ entry, devices := [] } : KnownVendor)
      (nameOfVendor found,
        { resolver with vendors := (vendor, found) :: resolver.vendors })

def deviceName (resolver : Resolver) (vendor device : UInt16) :
    String × Resolver :=
  match resolver.knownVendor? vendor with
  | none => ("", resolver)
  | some known =>
      match known.devices.lookup device with
      | some found => (nameOfDevice found, resolver)
      | none =>
          let found :=
            findDevice resolver.database known.entry.devicesAt device
          let known :=
            { known with devices := (device, found) :: known.devices }
          (nameOfDevice found,
            { resolver with
              vendors := (vendor, some known) :: resolver.vendors })

def subsystemName (resolver : Resolver)
    (vendor device subsystemVendor subsystemDevice : UInt16) : String :=
  match resolver.knownDevice? vendor device with
  | some entry =>
      findSubsystem resolver.database entry.subsystemsAt subsystemVendor
        subsystemDevice
  | none => ""

/-- The names for a class code, whose three bytes are the base class, the
subclass and the programming interface. -/
def classNames (resolver : Resolver) (code : Nat) :
    ClassNames × Resolver :=
  let block :=
    match resolver.classBlock with
    | some block => block
    | none => classBlock? resolver.database
  let names :=
    match block with
    | some position =>
        findClass resolver.database position (UInt8.ofNat (code / 0x10000))
          (UInt8.ofNat (code / 0x100)) (UInt8.ofNat code)
    | none => ClassNames.unknown
  (names, { resolver with classBlock := some block })

end Resolver

end PciInventory.Names
