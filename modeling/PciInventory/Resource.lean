import PciInventory.ConfigSpace

/-!
# Resources and base address registers

A device reports its resources as ranges with flags, one per slot.  The slots
of the base address registers come first, the expansion ROM of an endpoint is
slot 6 and the three forwarding windows of a bridge are slots 13 to 15.  A
64-bit memory register takes two slots, and the second of them, which is empty,
is marked as the upper half of the first.
-/

namespace PciInventory

/-- One reported range, its end included. -/
structure Resource where
  start : UInt64
  finish : UInt64
  flags : UInt64
deriving DecidableEq

inductive RegionKind where
  | memory
  | io
  | empty
deriving DecidableEq

structure Region where
  kind : RegionKind
  address : UInt64
  length : UInt64
  is64Bit : Bool
  prefetchable : Bool
deriving DecidableEq

namespace Region

def empty : Region :=
  ⟨.empty, 0, 0, false, false⟩

def isEmpty (region : Region) : Bool :=
  region.kind = .empty

/-- The first address behind the region, at most the last address there is. -/
def endExclusive (region : Region) : UInt64 :=
  UInt64.ofNat
    (min (region.address.toNat + region.length.toNat) (UInt64.size - 1))

end Region

namespace Resource

/-- Whether the flag bit of value `bit`, a power of two, is set. -/
def hasFlag (resource : Resource) (bit : Nat) : Bool :=
  resource.flags.toNat / bit % 2 = 1

def isIo (resource : Resource) : Bool :=
  resource.hasFlag 0x100

def isMemory (resource : Resource) : Bool :=
  resource.hasFlag 0x200

def isPrefetchable (resource : Resource) : Bool :=
  resource.hasFlag 0x2000

def is64Bit (resource : Resource) : Bool :=
  resource.hasFlag 0x100000

/-- The size of the range: none for an inverted or an all-zero one, and at most
the greatest word. -/
def length (resource : Resource) : UInt64 :=
  if resource.start = 0 ∧ resource.finish = 0 then
    0
  else if resource.finish < resource.start then
    0
  else
    UInt64.ofNat
      (min (resource.finish.toNat - resource.start.toNat + 1)
        (UInt64.size - 1))

/-- I/O wins over memory when both flags are set; without any flag the range
has no length either. -/
def classify (resource : Resource) : Region :=
  if resource.flags = 0 then
    { Region.empty with address := resource.start }
  else
    let kind : RegionKind :=
      if resource.isIo then .io
      else if resource.isMemory then .memory
      else .empty
    { kind
      address := resource.start
      length := resource.length
      is64Bit := kind = .memory && resource.is64Bit
      prefetchable := kind = .memory && resource.isPrefetchable }

def expansionRomSlot : Nat := 6
def firstWindowSlot : Nat := 13
def windowCount : Nat := 3

end Resource

structure BarSlot where
  index : Nat
  region : Region
  /-- The slot whose upper address half this one is. -/
  upperHalfOf : Option Nat
deriving DecidableEq

namespace BarSlot

def isUpperHalf (slot : BarSlot) : Bool :=
  slot.upperHalfOf.isSome

/-- Whether the next slot, if it is empty, is the upper half of this one. -/
def takesNext (slot : BarSlot) : Bool :=
  slot.region.kind = .memory && slot.region.is64Bit && !slot.isUpperHalf

/-- The slots of `regions`, numbered from `index` on, behind the slot
`previous`. -/
def pairFrom (previous : Option BarSlot) (index : Nat) :
    List Region → List BarSlot
  | [] => []
  | region :: rest =>
      let half :=
        match previous with
        | some lower =>
            if region.isEmpty && lower.takesNext then some lower.index
            else none
        | none => none
      let slot : BarSlot := ⟨index, region, half⟩
      slot :: pairFrom (some slot) (index + 1) rest

@[simp] theorem pairFrom_nil (previous : Option BarSlot) (index : Nat) :
    pairFrom previous index [] = [] := rfl

end BarSlot

namespace Resource

def regionAt (resources : List Resource) (slot : Nat) : Region :=
  match resources[slot]? with
  | some resource => resource.classify
  | none => .empty

def bars (resources : List Resource) (kind : DeviceKind) : List BarSlot :=
  BarSlot.pairFrom none 0
    ((List.range kind.barCount).map (regionAt resources))

def expansionRom? (resources : List Resource) (kind : DeviceKind) :
    Option Region :=
  match kind with
  | .endpoint =>
      let rom := regionAt resources expansionRomSlot
      if rom.isEmpty then none else some rom
  | .bridge => none

def windows (resources : List Resource) (kind : DeviceKind) : List Region :=
  match kind with
  | .endpoint => []
  | .bridge =>
      (((resources.drop firstWindowSlot).take windowCount).map classify).filter
        fun window => !window.isEmpty

end Resource

end PciInventory
