import PciInventory.Names.Line

/-!
# Searches in a name database

The database lists vendors at the left margin, their devices behind one tab and
the subsystems of a device behind two.  The device classes follow, from the
last line that starts with `C 00` on, with subclasses and programming
interfaces nested in the same way.  Each search looks for one id in the block
of lines that belongs to the entry above it; it never reads the rest.
-/

namespace PciInventory.Names

/-- A vendor's name and the position of its first device line. -/
structure VendorEntry where
  name : String
  devicesAt : Nat
deriving DecidableEq

/-- A device's name and the position of its first subsystem line. -/
structure DeviceEntry where
  name : String
  subsystemsAt : Nat
deriving DecidableEq

/-- The three names of a class code.  What is unknown is empty. -/
structure ClassNames where
  base : String
  sub : String
  interface : String
deriving DecidableEq

namespace ClassNames

def unknown : ClassNames :=
  ⟨"", "", ""⟩

end ClassNames

def findVendor (database : Bytes) (vendor : UInt16) : Option VendorEntry :=
  let lead := idBytes 4 vendor.toNat
  ((Line.behind database 0).find? (Line.hasId lead)).map fun line =>
    ⟨line.nameAfter lead, line.next⟩

/-- Lines that do not end the block of a vendor. -/
def inVendorBlock (line : Line) : Bool :=
  match line.text with
  | [] => true
  | byte :: _ => byte = tab || byte = hash

def findDevice (database : Bytes) (devicesAt : Nat) (device : UInt16) :
    Option DeviceEntry :=
  let lead := tab :: idBytes 4 device.toNat
  let block := (Line.behind database devicesAt).takeWhile inVendorBlock
  (block.find? (Line.hasId lead)).map fun line =>
    ⟨line.nameAfter lead, line.next⟩

/-- The name of the subsystem with these two ids, empty if there is none. -/
def findSubsystem (database : Bytes) (subsystemsAt : Nat)
    (vendor device : UInt16) : String :=
  let lead :=
    tab :: tab ::
      (idBytes 4 vendor.toNat ++ space :: idBytes 4 device.toNat)
  let block :=
    (Line.behind database subsystemsAt).takeWhile (Line.startsWith [tab, tab])
  match block.find? (Line.startsWith lead) with
  | some line => line.nameAfter lead
  | none => ""

def classMark : Bytes :=
  Bytes.ofText "C "

def classBlockMark : Bytes :=
  Bytes.ofText "C 00"

def classBlock? (database : Bytes) : Option Nat :=
  let marked :=
    (Line.behind database 0).filter (Line.startsWith classBlockMark)
  marked.getLast?.map Line.start

/-- The start of the first of `lines` with the property, or else `limit`. -/
def blockEnd (lines : List Line) (isNext : Line → Bool) (limit : Nat) : Nat :=
  match lines.find? isNext with
  | some line => line.start
  | none => limit

def isSubclassLevel (line : Line) : Bool :=
  line.startsWith [tab] && !line.startsWith [tab, tab]

def findInterface (database : Bytes) (position limit : Nat)
    (interface : UInt8) : String :=
  let lead := tab :: tab :: idBytes 2 interface.toNat
  match (Line.between database position limit).find? (Line.hasId lead) with
  | some line => line.nameAfter lead
  | none => ""

/-- The names of a subclass and its interface in the block of their class. -/
def findSubclass (database : Bytes) (position limit : Nat)
    (sub interface : UInt8) : String × String :=
  let lead := tab :: idBytes 2 sub.toNat
  match (Line.between database position limit).find? (Line.hasId lead) with
  | some line =>
      let stop :=
        blockEnd (Line.between database line.next limit) isSubclassLevel limit
      (line.nameAfter lead, findInterface database line.next stop interface)
  | none => ("", "")

/-- The names for a class code in the classes from position `block` on. -/
def findClass (database : Bytes) (block : Nat)
    (base sub interface : UInt8) : ClassNames :=
  let lead := classMark ++ idBytes 2 base.toNat
  match (Line.behind database block).find? (Line.hasId lead) with
  | some line =>
      let stop :=
        blockEnd (Line.behind database line.next) (Line.startsWith classMark)
          database.length
      let nested := findSubclass database line.next stop sub interface
      ⟨line.nameAfter lead, nested.1, nested.2⟩
  | none => ClassNames.unknown

end PciInventory.Names
