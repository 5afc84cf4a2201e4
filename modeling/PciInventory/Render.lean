import PciInventory.Topology.Walk

/-!
# Listings and trees

A device is shown as a block of lines: one line that names it and, in a verbose
view, one line behind a tab for each detail.  A listing is the blocks of all
devices in address order.  A tree is the visited buses in the order of the walk,
each a header line followed by the blocks of its devices, and at the end the
devices whose bus was not reported.
-/

namespace PciInventory

structure View where
  /-- Ids in place of names. -/
  numeric : Bool
  /-- Detail lines below each device. -/
  verbose : Bool
deriving DecidableEq

namespace Render

def text (lines : List String) : String :=
  String.join (lines.map fun line => line ++ "\n")

/-- A name, or else what it would name and its id. -/
def nameOrId (name what : String) (id : UInt16) : String :=
  if name.isEmpty then what ++ " " ++ Numeral.hex 4 id.toNat else name

/-- Units of sizes, the largest first. -/
def units : List (Nat × String) :=
  [(0x10000000000, "T"), (0x40000000, "G"), (0x100000, "M"), (0x400, "K")]

/-- A size in the largest unit that divides it. -/
def size (length : Nat) : String :=
  match units.find? fun unit => unit.1 ≤ length && length % unit.1 = 0 with
  | some (unit, mark) => Numeral.decimal (length / unit) ++ mark
  | none => Numeral.decimal length

def sizeNote (region : Region) : String :=
  "[size=" ++ size region.length.toNat ++ "]"

def className (device : Device) : String :=
  let names := device.names.classNames
  if !names.sub.isEmpty then names.sub
  else if !names.base.isEmpty then names.base
  else "Class " ++ Numeral.hex 4 (device.classCode / 256)

/-- What a device is, by ids or by names. -/
def identity (device : Device) (view : View) : String :=
  if view.numeric then
    Numeral.hex 4 (device.classCode / 256) ++ ": " ++
      Numeral.hex 4 device.vendorId.toNat ++ ":" ++
      Numeral.hex 4 device.deviceId.toNat
  else
    className device ++ ": " ++
      nameOrId device.names.vendor "Vendor" device.vendorId ++ " " ++
      nameOrId device.names.device "Device" device.deviceId

def revisionNote (device : Device) : String :=
  match device.config.revision? with
  | some revision =>
      if revision = 0 then ""
      else " (rev " ++ Numeral.hex 2 revision.toNat ++ ")"
  | none => ""

def deviceLine (device : Device) (view : View) : String :=
  device.address.text ++ " " ++ identity device view ++ revisionNote device

def subsystemDetails (device : Device) (view : View) : List String :=
  match device.subsystemIds? with
  | none => []
  | some ids =>
      let vendorName := device.names.subsystemVendor
      let deviceName := device.names.subsystem
      if view.numeric || vendorName.isEmpty && deviceName.isEmpty then
        ["Subsystem: " ++ Numeral.hex 4 ids.vendor.toNat ++ ":" ++
          Numeral.hex 4 ids.device.toNat]
      else
        ["Subsystem: " ++ nameOrId vendorName "Vendor" ids.vendor ++ " " ++
          nameOrId deviceName "Device" ids.device]

def busDetails (device : Device) : List String :=
  match device.kind, device.config.primaryBus?, device.config.secondaryBus?,
      device.config.subordinateBus? with
  | .bridge, some primary, some secondary, some subordinate =>
      ["Bus: primary=" ++ Numeral.hex 2 primary.toNat ++
        ", secondary=" ++ Numeral.hex 2 secondary.toNat ++
        ", subordinate=" ++ Numeral.hex 2 subordinate.toNat]
  | _, _, _, _ => []

def pinName? (pin : UInt8) : Option String :=
  if pin = 1 then some "A"
  else if pin = 2 then some "B"
  else if pin = 3 then some "C"
  else if pin = 4 then some "D"
  else none

def interruptDetails (device : Device) : List String :=
  match device.config.interruptPin?.bind pinName? with
  | some pin =>
      let line := device.config.interruptLine?.getD 0
      ["Interrupt: pin " ++ pin ++ " routed to IRQ " ++
        Numeral.decimal line.toNat]
  | none => []

def numberDetails (label : String) (number : Option UInt16) : List String :=
  match number with
  | some number => [label ++ ": " ++ Numeral.decimal number.toNat]
  | none => []

def regionText (region : Region) : String :=
  match region.kind with
  | .io =>
      "I/O ports at " ++ Numeral.hex 1 region.address.toNat ++ " " ++
        sizeNote region
  | _ =>
      "Memory at " ++ Numeral.hex 1 region.address.toNat ++ " (" ++
        (if region.is64Bit then "64-bit" else "32-bit") ++ ", " ++
        (if region.prefetchable then "prefetchable" else "non-prefetchable") ++
        ") " ++ sizeNote region

def barDetails (slot : BarSlot) : List String :=
  if slot.isUpperHalf || slot.region.isEmpty then []
  else
    ["Region " ++ Numeral.decimal slot.index ++ ": " ++ regionText slot.region]

def romDetails (device : Device) : List String :=
  match device.expansionRom? with
  | some rom =>
      ["Expansion ROM at " ++ Numeral.hex 8 rom.address.toNat ++ " " ++
        sizeNote rom]
  | none => []

def windowLabel (window : Region) : String :=
  match window.kind, window.prefetchable with
  | .io, _ => "I/O"
  | _, true => "Prefetchable memory"
  | _, false => "Memory"

/-- The last address of a region, at most the last address there is. -/
def lastAddress (region : Region) : Nat :=
  min (region.address.toNat + (region.length.toNat - 1)) (UInt64.size - 1)

def windowDetails (window : Region) : String :=
  windowLabel window ++ " behind bridge: " ++
    Numeral.hex 8 window.address.toNat ++ "-" ++
    Numeral.hex 8 (lastAddress window) ++ " " ++ sizeNote window

def capabilityDetails (capability : Capability) : String :=
  let place :=
    match capability.kind with
    | .compatible => Numeral.hex 2 capability.offset
    | .extended =>
        Numeral.hex 3 capability.offset ++ " v" ++
          Numeral.decimal capability.version
  "Capabilities: [" ++ place ++ "] " ++ capability.name?.getD "Unknown"

def driverDetails (device : Device) : List String :=
  match device.record.driver with
  | some driver => ["Kernel driver in use: " ++ driver]
  | none => []

def details (device : Device) (view : View) : List String :=
  subsystemDetails device view ++
    busDetails device ++
    interruptDetails device ++
    numberDetails "NUMA node" device.record.numaNode ++
    numberDetails "IOMMU group" device.record.iommuGroup ++
    device.bars.flatMap barDetails ++
    romDetails device ++
    device.windows.map windowDetails ++
    device.capabilities.map capabilityDetails ++
    driverDetails device

/-- The lines of a device, each behind `indent`. -/
def block (indent : String) (view : View) (device : Device) : List String :=
  (indent ++ deviceLine device view) ::
    if view.verbose then
      (details device view).map fun detail => indent ++ "\t" ++ detail
    else
      []

def listing (topology : Topology) (view : View) : List String :=
  topology.devices.flatMap (block "" view)

def indentation (depth : Nat) : String :=
  String.join (List.replicate depth "  ")

def busLine (visit : Visit) (bus : Bus) : String :=
  let origin :=
    match visit.bridge with
    | some bridge => " behind " ++ bridge.text
    | none => if bus.isRoot then " root" else ""
  indentation visit.depth ++ "[" ++ bus.id.text ++ "]" ++ origin

/-- A visited bus: its header line and the blocks of its devices. -/
def busLines (topology : Topology) (view : View) (visit : Visit) :
    List String :=
  match topology.bus? visit.bus with
  | some bus =>
      busLine visit bus ::
        (topology.devicesOn bus).flatMap
          (block (indentation visit.depth ++ "  ") view)
  | none => []

def listedPositions (topology : Topology) (visits : List Visit) : List Nat :=
  visits.flatMap fun visit =>
    match topology.bus? visit.bus with
    | some bus => bus.members
    | none => []

def unlisted (topology : Topology) (visits : List Visit) : List Device :=
  let listed := listedPositions topology visits
  (topology.devices.zipIdx.filter fun entry => !listed.contains entry.2).map
    fun entry => entry.1

def unlistedLines (view : View) : List Device → List String
  | [] => []
  | devices => "[unlisted buses]" :: devices.flatMap (block "  " view)

def tree (topology : Topology) (view : View) : List String :=
  let visits := topology.visits
  visits.flatMap (busLines topology view) ++
    unlistedLines view (unlisted topology visits)

/-- The text of a topology as a tree or as a listing, and the warnings given on
the way. -/
def shown (topology : Topology) (view : View) (asTree : Bool) :
    String × List Warning :=
  if asTree then (text (tree topology view), topology.walkWarnings)
  else (text (listing topology view), [])

end Render

end PciInventory
