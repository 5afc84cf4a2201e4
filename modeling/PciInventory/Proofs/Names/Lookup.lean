import PciInventory.Proofs.Names.Answers
import PciInventory.Proofs.Names.Entries
import PciInventory.Proofs.Names.Ranges

/-!
# Lookups in a printed catalogue

Each search starts where the search above it left off, and its range holds the
entries of one listing.  It finds the line of the item with the id, and the
range behind that line holds the listing below it, so that the searches follow
the catalogue down level by level.  Together they give what the catalogue
says.
-/

namespace PciInventory.Names

section Listing

variable {Id Below : Type} [DecidableEq Id] {key : Id → Key}
  {nested : Below → List Entry} {listing : Listing Id Below} {id : Id}
  {database : Bytes} {position limit : Nat} {others : List Entry}

/-- A search among the items of a listing.  Where it succeeds, the range behind
the line goes on with what is below the item. -/
theorem find?_item (hkeys : Separates key nested) {test : Line → Bool}
    (htest : Selects test fun entry => entry.key = key id)
    (hholds :
      Holds database position limit (listing.entries key nested ++ others))
    (hothers : ∀ entry ∈ others, entry.key ≠ key id) :
    (listing.item? id = none ∧
        (Line.between database position limit).find? test = none) ∨
      ∃ item line after, listing.item? id = some item ∧
        (Line.between database position limit).find? test = some line ∧
        line.nameAfter (key id).lead = item.name.text ∧
        Holds database line.next limit
          (nested item.below ++ (after ++ others)) ∧
        ∀ entry ∈ after.head?, ∃ other, entry.key = key other := by
  cases hitem : listing.item? id with
  | none =>
      have hnone := key_ne_of_item?_eq_none hkeys hitem
      refine Or.inl ⟨rfl, hholds.find?_eq_none htest fun entry hentry => ?_⟩
      rcases List.mem_append.mp hentry with hown | hother
      · exact hnone entry hown
      · exact hothers entry hother
  | some item =>
      obtain ⟨before, after, hentries, hbefore, hhead⟩ :=
        exists_entries_eq hkeys hitem
      rw [hentries, List.append_assoc, List.cons_append,
        List.append_assoc] at hholds
      obtain ⟨line, hfound, htext, -, hnext⟩ :=
        hholds.find?_eq_some htest hbefore rfl
      have hname := Entry.nameAfter_lead htext
      exact Or.inr ⟨item, line, after, rfl, hfound, hname, hnext, hhead⟩

end Listing

/-! ## Vendors, devices and subsystems -/

variable {database : Bytes} {position limit : Nat}

theorem findVendor_cases {catalogue : Catalogue}
    (hholds : Holds database 0 database.length catalogue.entries)
    (id : UInt16) :
    (catalogue.vendors.item? id = none ∧ findVendor database id = none) ∨
      ∃ item next more, catalogue.vendors.item? id = some item ∧
        findVendor database id = some ⟨item.name.text, next⟩ ∧
        Holds database next database.length
          (Devices.entries item.below ++ more) ∧
        ∀ entry ∈ more.head?, ¬[tab] <+: entry.key.mark := by
  have hclasses : ∀ entry ∈ catalogue.classes.entries,
      entry.key ≠ .vendor id := by
    intro entry hentry
    rcases Classes.key_of_mem hentry with
      ⟨other, hkey⟩ | ⟨other, hkey⟩ | ⟨other, hkey⟩ <;> simp [hkey]
  rw [findVendor, vendor_lead]
  rcases find?_item Vendors.separates (selects_hasId (by simp)) hholds
      hclasses with
    ⟨hitem, hnone⟩ | ⟨item, line, after, hitem, hfound, hname, hnext, hhead⟩
  · rw [Line.behind, hnone]
    exact Or.inl ⟨hitem, rfl⟩
  · rw [Line.behind, hfound]
    refine Or.inr ⟨item, line.next, _, hitem, ?_, hnext, ?_⟩
    · rw [Option.map_some, hname]
    · apply forall_mem_head?_append
      · intro entry hentry
        obtain ⟨other, hkey⟩ := hhead entry hentry
        rw [hkey]
        simp [Key.mark]
      · intro entry hentry
        obtain ⟨other, hkey⟩ := exists_key_eq_of_mem_head? hentry
        rw [hkey, Key.mark, class_mark]
        decide

theorem findDevice_cases {devices : Devices} {more : List Entry}
    (hholds : Holds database position database.length
      (devices.entries ++ more))
    (hmore : ∀ entry ∈ more.head?, ¬[tab] <+: entry.key.mark)
    (id : UInt16) :
    (devices.item? id = none ∧ findDevice database position id = none) ∨
      ∃ item next after, devices.item? id = some item ∧
        findDevice database position id = some ⟨item.name.text, next⟩ ∧
        Holds database next database.length
          (Subsystems.entries item.below ++ after) ∧
        ∀ entry ∈ after.head?, ¬[tab, tab] <+: entry.key.mark := by
  have hindented : ∀ entry ∈ devices.entries, [tab] <+: entry.key.mark := by
    intro entry hentry
    rcases Devices.key_of_mem hentry with ⟨other, hkey⟩ | ⟨ids, hkey⟩ <;>
      simp [hkey, Key.mark]
  have htest : Selects (Line.hasId (Key.device id).lead)
      fun entry => entry.key = .device id := selects_hasId (by simp)
  rw [findDevice, device_lead]
  cases hitem : devices.item? id with
  | none =>
      have hblock := hholds.find?_takeWhile_eq_none htest
        (key_ne_of_item?_eq_none Devices.separates hitem)
        selects_vendorBlockEnd
        (fun entry hentry => not_not_intro (hindented entry hentry)) hmore
      refine Or.inl ⟨rfl, ?_⟩
      rw [Line.behind, hblock]
      rfl
  | some item =>
      obtain ⟨before, after, hentries, hbefore, hhead⟩ :=
        exists_entries_eq Devices.separates hitem
      have hcut : devices.entries = before ++
          ⟨.device id, item.name⟩ ::
            (Subsystems.entries item.below ++ after) := hentries
      have hstay : ∀ entry ∈ before, ¬¬[tab] <+: entry.key.mark := by
        intro entry hentry
        have hmem : entry ∈ devices.entries := by
          rw [hcut]
          exact List.mem_append_left _ hentry
        exact not_not_intro (hindented entry hmem)
      rw [hcut, List.append_assoc, List.cons_append,
        List.append_assoc] at hholds
      obtain ⟨line, hfound, htext, hnext⟩ :=
        hholds.find?_takeWhile_eq_some htest hbefore rfl
          selects_vendorBlockEnd hstay (not_not_intro List.prefix_rfl)
      refine Or.inr ⟨item, line.next, after ++ more, rfl, ?_, hnext, ?_⟩
      · rw [Line.behind, hfound, Option.map_some,
          ← Entry.nameAfter_lead htext]
      · apply forall_mem_head?_append
        · intro entry hentry
          obtain ⟨other, hkey⟩ := hhead entry hentry
          rw [hkey]
          simp [Key.mark]
        · intro entry hentry htabs
          exact hmore entry hentry
            ((List.prefix_append [tab] [tab]).trans htabs)

/-- A search below which nothing is nested gives the name alone. -/
theorem name_of_find? {Id : Type} [DecidableEq Id] {key : Id → Key}
    {listing : Listing Id Unit} {id : Id} {test : Line → Bool}
    (hkeys : Separates key fun _ : Unit => [])
    (htest : Selects test fun entry => entry.key = key id)
    (hholds : Holds database position limit
      (listing.entries key fun _ => [])) :
    (match (Line.between database position limit).find? test with
      | some line => line.nameAfter (key id).lead
      | none => "") = nameOf (listing.item? id) := by
  rw [← List.append_nil (listing.entries key fun _ => [])] at hholds
  rcases find?_item hkeys htest hholds (by simp) with
    ⟨hitem, hnone⟩ | ⟨item, line, after, hitem, hfound, hname, -⟩
  · rw [hitem, hnone]
    rfl
  · rw [hitem, hfound]
    exact hname

theorem findSubsystem_eq {subsystems : Subsystems} {after : List Entry}
    (hholds : Holds database position database.length
      (subsystems.entries ++ after))
    (hafter : ∀ entry ∈ after.head?, ¬[tab, tab] <+: entry.key.mark)
    (vendor device : UInt16) :
    findSubsystem database position vendor device =
      nameOf (subsystems.item? (vendor, device)) := by
  obtain ⟨stop, hblock, hown⟩ := hholds.subsystemBlock
    (fun entry hentry => Subsystems.key_of_mem hentry) hafter
  rw [findSubsystem, subsystem_lead (vendor, device), Line.behind, hblock]
  exact name_of_find? Subsystems.separates (selects_subsystem _) hown

/-! ## Classes -/

theorem findInterface_eq {interfaces : Interfaces}
    (hholds : Holds database position limit interfaces.entries)
    (id : UInt8) :
    findInterface database position limit id =
      nameOf (interfaces.item? id) := by
  rw [findInterface, interface_lead]
  exact name_of_find? Interfaces.separates (selects_hasId (by simp)) hholds

theorem findSubclass_eq {subclasses : Subclasses}
    (hholds : Holds database position limit subclasses.entries)
    (sub interface : UInt8) :
    findSubclass database position limit sub interface =
      (nameOf (subclasses.item? sub),
        nameOf ((subclasses.item? sub).bind fun item =>
          item.below.item? interface)) := by
  rw [← List.append_nil subclasses.entries] at hholds
  rw [findSubclass, subclass_lead]
  rcases find?_item Subclasses.separates (selects_hasId (by simp)) hholds
      (by simp) with
    ⟨hitem, hnone⟩ | ⟨item, line, after, hitem, hfound, hname, hnext, hhead⟩
  · rw [hitem, hnone]
    rfl
  · have hblock := hnext.blockEnd selects_subclassLevel
      (fun entry hentry hlevel => by
        obtain ⟨other, hkey⟩ := Interfaces.key_of_mem hentry
        simp [hkey, Key.mark] at hlevel)
      (fun entry hentry => by
        rw [List.append_nil] at hentry
        obtain ⟨other, hkey⟩ := hhead entry hentry
        rw [hkey]
        rfl)
    rw [hitem, hfound]
    exact Prod.ext hname (findInterface_eq hblock interface)

theorem findClass_eq {catalogue : Catalogue}
    (hholds : Holds database position database.length
      catalogue.classes.entries) (base sub interface : UInt8) :
    findClass database position base sub interface =
      catalogue.classNames base sub interface := by
  rw [← List.append_nil catalogue.classes.entries] at hholds
  rw [findClass, class_lead, Catalogue.classNames, Catalogue.interface?,
    Catalogue.subclass?, Line.behind]
  rcases find?_item Classes.separates (selects_hasId (by simp)) hholds
      (by simp) with
    ⟨hitem, hnone⟩ | ⟨item, line, after, hitem, hfound, hname, hnext, hhead⟩
  · rw [hitem, hnone]
    rfl
  · have hblock := hnext.blockEnd selects_classMark
      (fun entry hentry hmark => by
        obtain ⟨id, hclass⟩ := hmark
        rcases Subclasses.key_of_mem hentry with
          ⟨other, hkey⟩ | ⟨other, hkey⟩ <;> simp [hkey] at hclass)
      (fun entry hentry => by
        rw [List.append_nil] at hentry
        exact hhead entry hentry)
    have hnested := findSubclass_eq hblock sub interface
    rw [hitem, hfound]
    simp only [Line.behind, hname, hnested]
    rfl

theorem classBlock?_cases {catalogue : Catalogue}
    (hholds : Holds database 0 database.length catalogue.entries) :
    (catalogue.classes.items = [] ∧ classBlock? database = none) ∨
      ∃ block, classBlock? database = some block ∧
        Holds database block database.length catalogue.classes.entries := by
  have hvendors : ∀ entry ∈ catalogue.vendors.entries,
      entry.key ≠ .deviceClass 0 := by
    intro entry hentry
    rcases Vendors.key_of_mem hentry with
      ⟨other, hkey⟩ | ⟨other, hkey⟩ | ⟨ids, hkey⟩ <;> simp [hkey]
  cases hitems : catalogue.classes.items with
  | nil =>
      have hclasses : catalogue.classes.entries = [] := by
        rw [Classes.entries, Listing.entries, hitems, List.flatMap_nil]
      rw [Catalogue.entries, hclasses, List.append_nil] at hholds
      refine Or.inl ⟨rfl, ?_⟩
      rw [classBlock?, Line.behind,
        hholds.filter_eq_nil selects_classBlockMark hvendors]
      rfl
  | cons first rest =>
      have hid : first.id = 0 := catalogue.zeroFirst first (by rw [hitems]; rfl)
      obtain ⟨after, hentries, hafter⟩ :=
        entries_eq_cons Classes.separates hitems
      have hcut : catalogue.classes.entries =
          ⟨.deviceClass 0, first.name⟩ :: after := by
        rw [Classes.entries, hentries, hid]
      rw [hid] at hafter
      rw [Catalogue.entries, hcut] at hholds
      obtain ⟨line, hfiltered, hblock⟩ :=
        hholds.filter_eq_singleton selects_classBlockMark hvendors rfl hafter
      refine Or.inr ⟨line.start, ?_, by rwa [hcut]⟩
      rw [classBlock?, Line.behind, hfiltered]
      rfl

/-! ## Queries -/

theorem Catalogue.Printed.holds {catalogue : Catalogue}
    {lines : List FileLine} (hprinted : catalogue.Printed lines) :
    Holds (fileText lines) 0 (fileText lines).length catalogue.entries :=
  ⟨lines, by rw [List.take_length, List.drop_zero], hprinted.entries,
    hprinted.uninterrupted⟩

theorem deviceFound?_cases {catalogue : Catalogue}
    (hholds : Holds database 0 database.length catalogue.entries)
    (vendor device : UInt16) :
    (catalogue.device? vendor device = none ∧
        deviceFound? database vendor device = none) ∨
      ∃ item next after, catalogue.device? vendor device = some item ∧
        deviceFound? database vendor device =
          some ⟨item.name.text, next⟩ ∧
        Holds database next database.length
          (Subsystems.entries item.below ++ after) ∧
        ∀ entry ∈ after.head?, ¬[tab, tab] <+: entry.key.mark := by
  rw [deviceFound?, Catalogue.device?]
  rcases findVendor_cases hholds vendor with
    ⟨hitem, hnone⟩ | ⟨item, next, more, hitem, hfound, hdevices, hmore⟩
  · rw [hitem, hnone]
    exact Or.inl ⟨rfl, rfl⟩
  · rw [hitem, hfound]
    exact findDevice_cases hdevices hmore device

/-- Without any memory, the searches find what the catalogue says. -/
theorem searched_eq_answer {catalogue : Catalogue} {lines : List FileLine}
    (hprinted : catalogue.Printed lines) (query : Query) :
    searched (fileText lines) query = catalogue.answer query := by
  have hholds := hprinted.holds
  cases query with
  | vendor vendor =>
      rw [searched, Catalogue.answer]
      rcases findVendor_cases hholds vendor with
        ⟨hitem, hnone⟩ | ⟨item, next, more, hitem, hfound, -⟩
      · rw [hitem, hnone]
        rfl
      · rw [hitem, hfound]
        rfl
  | device vendor device =>
      rw [searched, Catalogue.answer]
      rcases deviceFound?_cases hholds vendor device with
        ⟨hitem, hnone⟩ | ⟨item, next, after, hitem, hfound, -⟩
      · rw [hitem, hnone]
        rfl
      · rw [hitem, hfound]
        rfl
  | subsystem vendor device subsystemVendor subsystemDevice =>
      rw [searched, Catalogue.answer, Catalogue.subsystem?]
      rcases deviceFound?_cases hholds vendor device with
        ⟨hitem, hnone⟩ | ⟨item, next, after, hitem, hfound, hrange, hhead⟩
      · rw [hitem, hnone]
        rfl
      · have hname := findSubsystem_eq hrange hhead subsystemVendor
          subsystemDevice
        rw [hitem, hfound]
        exact congrArg Answer.name hname
  | deviceClass code =>
      rw [searched, Catalogue.answer]
      rcases classBlock?_cases hholds with
        ⟨hitems, hnone⟩ | ⟨block, hfound, hclasses⟩
      · rw [hnone, Catalogue.classNames, Catalogue.interface?,
          Catalogue.subclass?, Listing.item?, hitems]
        rfl
      · rw [hfound]
        exact congrArg Answer.classNames (findClass_eq hclasses _ _ _)

/-- A resolver on the file of a catalogue gives the names of the catalogue, and
an empty name wherever it has none, for a device after its vendor was asked for
and for a subsystem after its device. -/
theorem answer_eq_catalogue_answer {catalogue : Catalogue}
    {lines : List FileLine} (hprinted : catalogue.Printed lines)
    {earlier : List Query} {query : Query}
    (hasked : query.prerequisites.Sublist earlier) (later : List Query) :
    ((Resolver.ofDatabase (fileText lines)).askAll
        (earlier ++ query :: later)).1[earlier.length]? =
      some (catalogue.answer query) := by
  rw [getElem?_askAll, if_pos hasked, searched_eq_answer hprinted]

def makerName : EntryName where
  text := "Intel Corporation"

def chipName : EntryName where
  text := "440FX - 82441FX PMC [Natoma]"

def boardName : EntryName where
  text := "QEMU Virtual Machine"

def className : EntryName where
  text := "Display controller"

/-- A board of one chip, and two classes without subclasses. -/
def boardCatalogue : Catalogue where
  vendors.items := [⟨0x8086, makerName, { items := [⟨0x1237, chipName,
    { items := [⟨(0x1af4, 0x1100), boardName, ()⟩] }⟩] }⟩]
  classes.items := [⟨0x00, { text := "Unclassified" }, { items := [] }⟩,
    ⟨0x03, className, { items := [] }⟩]
  zeroFirst := by decide

def commentedLines : List FileLine :=
  [.comment (Bytes.ofText " List of PCI IDs") (by decide),
    .entry ⟨.vendor 0x8086, makerName⟩,
    .comment [] (by decide),
    .entry ⟨.device 0x1237, chipName⟩,
    .entry ⟨.subsystem (0x1af4, 0x1100), boardName⟩,
    .comment (Bytes.ofText "C 00  of no class") (by decide),
    .entry ⟨.deviceClass 0x00, { text := "Unclassified" }⟩,
    .entry ⟨.deviceClass 0x03, className⟩]

theorem answer_eq_catalogue_answer_commentedLines :
    fileText commentedLines = Bytes.ofText
        ("# List of PCI IDs\n8086  Intel Corporation\n#\n" ++
          "\t1237  440FX - 82441FX PMC [Natoma]\n" ++
          "\t\t1af4 1100  QEMU Virtual Machine\n" ++
          "#C 00  of no class\n" ++
          "C 00  Unclassified\nC 03  Display controller\n") ∧
      boardCatalogue.Printed commentedLines ∧
      (Query.subsystem 0x8086 0x1237 0x1af4 0x1100).prerequisites.Sublist
        [.vendor 0x8086, .device 0x8086 0x1237] ∧
      ((Resolver.ofDatabase (fileText commentedLines)).askAll
        [.vendor 0x8086, .device 0x8086 0x1237,
          .subsystem 0x8086 0x1237 0x1af4 0x1100]).1[2]? =
        some (Answer.name "QEMU Virtual Machine") := by
  have hprinted : boardCatalogue.Printed commentedLines := by
    refine ⟨rfl, ?_⟩
    simp [commentedLines, uninterrupted_nil, FileLine.listed?]
  have hasked :
      (Query.subsystem 0x8086 0x1237 0x1af4 0x1100).prerequisites.Sublist
        [.vendor 0x8086, .device 0x8086 0x1237] := List.Sublist.refl _
  have hname : boardCatalogue.answer
      (.subsystem 0x8086 0x1237 0x1af4 0x1100) =
        .name "QEMU Virtual Machine" := by
    rfl
  have hanswer := answer_eq_catalogue_answer hprinted hasked []
  rw [hname] at hanswer
  exact ⟨by decide +kernel, hprinted, hasked, hanswer⟩

end PciInventory.Names
