import Mathlib.Data.List.Nodup
import PciInventory.Names.Query

/-!
# The catalogue and its file

A catalogue lists vendors with their devices and the subsystems of these, and
classes with their subclasses and the programming interfaces of these.  In the
file each entry has a line of its own, indented by its depth and followed by
the lines of what is listed under it.  Comments stand between the lines, except
that the subsystems of a device follow it without a break.
-/

namespace PciInventory.Names

/-- A name as the file can hold it: text on one line, with no blank in front
and no ASCII whitespace behind. -/
structure EntryName where
  text : String
  nonempty : text ≠ "" := by decide
  oneLine : newline ∉ Bytes.ofText text := by decide
  startsVisibly :
    ∀ blank ∈ [space, tab], (Bytes.ofText text).head? ≠ some blank := by
      decide +kernel
  endsVisibly :
    ∀ blank ∈ [space, tab, newline, 0x0c, carriageReturn],
      (Bytes.ofText text).getLast? ≠ some blank := by
        decide +kernel

structure Item (Id Below : Type) where
  id : Id
  name : EntryName
  below : Below

structure Listing (Id Below : Type) where
  items : List (Item Id Below)
  distinct : (items.map Item.id).Nodup := by decide

abbrev Subsystems := Listing (UInt16 × UInt16) Unit
abbrev Devices := Listing UInt16 Subsystems
abbrev Vendors := Listing UInt16 Devices

abbrev Interfaces := Listing UInt8 Unit
abbrev Subclasses := Listing UInt8 Interfaces
abbrev Classes := Listing UInt8 Subclasses

/-- If there are classes at all, class 0 comes first. -/
structure Catalogue where
  vendors : Vendors
  classes : Classes
  zeroFirst : ∀ item ∈ classes.items.head?, item.id = 0

/-! ## Reading a catalogue -/

variable {Id Below : Type}

def Listing.item? [DecidableEq Id] (listing : Listing Id Below) (id : Id) :
    Option (Item Id Below) :=
  listing.items.find? fun item => item.id = id

/-- Ids are distinct, so an id gives every item that has it. -/
theorem Listing.item?_eq_some_iff [DecidableEq Id]
    {listing : Listing Id Below} {id : Id} {item : Item Id Below} :
    listing.item? id = some item ↔ item ∈ listing.items ∧ item.id = id := by
  constructor
  · intro hfound
    have hid := List.find?_some hfound
    exact ⟨List.mem_of_find?_eq_some hfound, of_decide_eq_true hid⟩
  · intro ⟨hmem, hid⟩
    cases hfound : listing.item? id with
    | none =>
        have hnone := List.find?_eq_none.mp hfound item hmem
        exact (hnone (decide_eq_true hid)).elim
    | some other =>
        have hother := List.mem_of_find?_eq_some hfound
        have hotherId := List.find?_some hfound
        have hsame : other.id = item.id :=
          (of_decide_eq_true hotherId).trans hid.symm
        rw [List.inj_on_of_nodup_map listing.distinct hother hmem hsame]

/-- The name of what was looked up, empty if there is no such thing. -/
def nameOf (item? : Option (Item Id Below)) : String :=
  (item?.map fun item => item.name.text).getD ""

namespace Catalogue

def device? (catalogue : Catalogue) (vendor device : UInt16) :
    Option (Item UInt16 Subsystems) :=
  (catalogue.vendors.item? vendor).bind fun item =>
    item.below.item? device

def subsystem? (catalogue : Catalogue) (vendor device : UInt16)
    (ids : UInt16 × UInt16) : Option (Item (UInt16 × UInt16) Unit) :=
  (catalogue.device? vendor device).bind fun item => item.below.item? ids

def subclass? (catalogue : Catalogue) (base sub : UInt8) :
    Option (Item UInt8 Interfaces) :=
  (catalogue.classes.item? base).bind fun item => item.below.item? sub

def interface? (catalogue : Catalogue) (base sub interface : UInt8) :
    Option (Item UInt8 Unit) :=
  (catalogue.subclass? base sub).bind fun item =>
    item.below.item? interface

def classNames (catalogue : Catalogue) (base sub interface : UInt8) :
    ClassNames :=
  ⟨nameOf (catalogue.classes.item? base),
    nameOf (catalogue.subclass? base sub),
    nameOf (catalogue.interface? base sub interface)⟩

/-- What the catalogue itself says to a query.  The bytes of a class code are
the base class, the subclass and the programming interface. -/
def answer (catalogue : Catalogue) : Query → Answer
  | .vendor vendor => .name (nameOf (catalogue.vendors.item? vendor))
  | .device vendor device => .name (nameOf (catalogue.device? vendor device))
  | .subsystem vendor device subsystemVendor subsystemDevice =>
      .name (nameOf (catalogue.subsystem? vendor device
        (subsystemVendor, subsystemDevice)))
  | .deviceClass code =>
      .classNames (catalogue.classNames (UInt8.ofNat (code / 0x10000))
        (UInt8.ofNat (code / 0x100)) (UInt8.ofNat code))

end Catalogue

/-! ## The lines of an entry -/

inductive Key where
  | vendor (id : UInt16)
  | device (id : UInt16)
  | subsystem (ids : UInt16 × UInt16)
  | deviceClass (id : UInt8)
  | subclass (id : UInt8)
  | interface (id : UInt8)
deriving DecidableEq

structure Entry where
  key : Key
  name : EntryName

/-- A lower-case hexadecimal digit. -/
def digitByte (digit : Nat) : UInt8 :=
  if digit < 10 then UInt8.ofNat (0x30 + digit)
  else UInt8.ofNat (0x61 + (digit - 10))

/-- The last `width` digits of `value`, zeros included. -/
def fixedDigits : (width value : Nat) → Bytes
  | 0, _ => []
  | width + 1, value =>
      fixedDigits width (value / 16) ++ [digitByte (value % 16)]

namespace Key

/-- What stands before the id. -/
def mark : Key → Bytes
  | vendor _ => []
  | device _ => [tab]
  | subsystem _ => [tab, tab]
  | deviceClass _ => Bytes.ofText "C "
  | subclass _ => [tab]
  | interface _ => [tab, tab]

def number : Key → Bytes
  | vendor id => fixedDigits 4 id.toNat
  | device id => fixedDigits 4 id.toNat
  | subsystem ids =>
      fixedDigits 4 ids.1.toNat ++ space :: fixedDigits 4 ids.2.toNat
  | deviceClass id => fixedDigits 2 id.toNat
  | subclass id => fixedDigits 2 id.toNat
  | interface id => fixedDigits 2 id.toNat

def lead (key : Key) : Bytes :=
  key.mark ++ key.number

end Key

def Entry.text (entry : Entry) : Bytes :=
  entry.key.lead ++ space :: space :: Bytes.ofText entry.name.text

def Item.entries (key : Id → Key) (nested : Below → List Entry)
    (item : Item Id Below) : List Entry :=
  ⟨key item.id, item.name⟩ :: nested item.below

def Listing.entries (key : Id → Key) (nested : Below → List Entry)
    (listing : Listing Id Below) : List Entry :=
  listing.items.flatMap (Item.entries key nested)

def Subsystems.entries : Subsystems → List Entry :=
  Listing.entries Key.subsystem fun _ => []

def Devices.entries : Devices → List Entry :=
  Listing.entries Key.device Subsystems.entries

def Vendors.entries : Vendors → List Entry :=
  Listing.entries Key.vendor Devices.entries

def Interfaces.entries : Interfaces → List Entry :=
  Listing.entries Key.interface fun _ => []

def Subclasses.entries : Subclasses → List Entry :=
  Listing.entries Key.subclass Interfaces.entries

def Classes.entries : Classes → List Entry :=
  Listing.entries Key.deviceClass Subclasses.entries

def Catalogue.entries (catalogue : Catalogue) : List Entry :=
  Vendors.entries catalogue.vendors ++ Classes.entries catalogue.classes

/-! ## The file -/

inductive FileLine where
  | entry (entry : Entry)
  | comment (rest : Bytes) (oneLine : newline ∉ rest)

namespace FileLine

def text : FileLine → Bytes
  | entry listed => listed.text
  | comment rest _ => hash :: rest

def listed? : FileLine → Option Entry
  | entry listed => some listed
  | comment _ _ => none

end FileLine

def fileText (lines : List FileLine) : Bytes :=
  lines.flatMap fun line => line.text ++ [newline]

/-- No comment comes between a device and the last of its subsystems: the
entry after a comment is never a subsystem. -/
def Uninterrupted (lines : List FileLine) : Prop :=
  ∀ before rest oneLine after,
    lines = before ++ .comment rest oneLine :: after →
      ∀ entry ∈ (after.filterMap FileLine.listed?).head?,
        ∀ ids, entry.key ≠ .subsystem ids

theorem uninterrupted_nil : Uninterrupted [] := by
  intro before rest oneLine after hsplit
  simp at hsplit

@[simp] theorem uninterrupted_entry_cons {entry : Entry}
    {lines : List FileLine} :
    Uninterrupted (.entry entry :: lines) ↔ Uninterrupted lines := by
  constructor
  · intro hlines before rest oneLine after hsplit
    exact hlines (.entry entry :: before) rest oneLine after
      (by rw [hsplit, List.cons_append])
  · intro hlines before rest oneLine after hsplit
    cases before with
    | nil => simp at hsplit
    | cons line before =>
        exact hlines before rest oneLine after (List.cons.inj hsplit).2

@[simp] theorem uninterrupted_comment_cons {rest : Bytes}
    {oneLine : newline ∉ rest} {lines : List FileLine} :
    Uninterrupted (.comment rest oneLine :: lines) ↔
      (∀ entry ∈ (lines.filterMap FileLine.listed?).head?,
        ∀ ids, entry.key ≠ .subsystem ids) ∧ Uninterrupted lines := by
  constructor
  · intro hlines
    refine ⟨hlines [] rest oneLine lines rfl, ?_⟩
    intro before more moreOneLine after hsplit
    exact hlines (.comment rest oneLine :: before) more moreOneLine after
      (by rw [hsplit, List.cons_append])
  · intro ⟨hnext, hlines⟩ before more moreOneLine after hsplit
    cases before with
    | nil =>
        obtain ⟨-, rfl⟩ := List.cons.inj hsplit
        exact hnext
    | cons line before =>
        exact hlines before more moreOneLine after (List.cons.inj hsplit).2

/-- These are the lines of a file for the catalogue, with some comments. -/
structure Catalogue.Printed (catalogue : Catalogue)
    (lines : List FileLine) : Prop where
  entries : lines.filterMap FileLine.listed? = catalogue.entries
  uninterrupted : Uninterrupted lines

end PciInventory.Names
