import PciInventory.Proofs.Names.Leads
import PciInventory.Proofs.Names.Lines
import PciInventory.Proofs.Names.Memory

/-!
# Blocks of lines

A search reads a list of lines from the top.  It ends at the first line that
opens the entry it is for, or gives up at a line that ends the block, and what
it hands on are the lines below.  Positions are only a way to name these lines,
so every lookup is a chain of such searches in the list of all lines.
-/

namespace PciInventory.Names

namespace Key

/-- Whether the line is the one of an entry with this key.  Of all ids only
those of a subsystem are not read to their end. -/
def opens (key : Key) : Line → Bool :=
  match key with
  | subsystem _ => Line.startsWith key.lead
  | _ => Line.hasId key.lead

/-- Whether the line may come before the line of the entry. -/
def passes : Key → Line → Bool
  | vendor _ => fun _ => true
  | device _ => inVendorBlock
  | subsystem _ => Line.startsWith [tab, tab]
  | deviceClass _ => fun _ => true
  | subclass _ => fun line => !line.startsWith classMark
  | interface _ => fun line =>
      !isSubclassLevel line && !line.startsWith classMark

/-- The line of the entry and the lines below it. -/
def seek (key : Key) : List Line → Option (Line × List Line)
  | [] => none
  | line :: below =>
      if key.opens line then some (line, below)
      else if key.passes line then key.seek below
      else none

theorem seek_eq_some_iff {key : Key} {lines below : List Line}
    {line : Line} :
    key.seek lines = some (line, below) ↔
      ∃ before, lines = before ++ line :: below ∧ key.opens line = true ∧
        ∀ other ∈ before, key.passes other = true ∧
          key.opens other = false := by
  induction lines with
  | nil => simp [seek]
  | cons first lines ih =>
      rw [seek]
      constructor
      · intro hfound
        split at hfound
        next hopens =>
          simp only [Option.some.injEq, Prod.mk.injEq] at hfound
          obtain ⟨rfl, rfl⟩ := hfound
          exact ⟨[], rfl, hopens, by simp⟩
        next hcloses =>
          rw [Bool.not_eq_true] at hcloses
          split at hfound
          next hpasses =>
            obtain ⟨before, rfl, hopens, hbefore⟩ := ih.mp hfound
            exact ⟨first :: before, rfl, hopens,
              List.forall_mem_cons.mpr ⟨⟨hpasses, hcloses⟩, hbefore⟩⟩
          next => contradiction
      · intro ⟨before, hlines, hopens, hbefore⟩
        cases before with
        | nil =>
            obtain ⟨rfl, rfl⟩ := List.cons.inj hlines
            rw [if_pos hopens]
        | cons other before =>
            obtain ⟨rfl, rfl⟩ := List.cons.inj hlines
            obtain ⟨hother, hrest⟩ := List.forall_mem_cons.mp hbefore
            rw [if_neg (by simp [hother.2]), if_pos hother.1]
            exact ih.mpr ⟨before, rfl, hopens, hrest⟩

theorem lead_prefix_of_opens {key : Key} {line : Line}
    (hopens : key.opens line = true) : key.lead <+: line.text := by
  cases key with
  | subsystem ids => exact Line.startsWith_iff.mp hopens
  | _ =>
      obtain ⟨rest, htext, -⟩ := Line.hasId_iff.mp hopens
      rw [htext]
      exact List.prefix_append _ _

theorem passes_of_opens {key : Key} {line : Line}
    (hopens : key.opens line = true) : key.passes line = true := by
  have hmark : key.mark <+: line.text :=
    (List.prefix_append _ _).trans (lead_prefix_of_opens hopens)
  obtain ⟨rest, htext⟩ := hmark
  cases key <;>
    simp [passes, inVendorBlock, isSubclassLevel, Line.startsWith,
      ← htext, mark, class_mark, classMark, tab, List.isPrefixOf]

/-- A search that first cuts off what does not pass finds the same line. -/
theorem find?_takeWhile_passes (key : Key) (lines : List Line) :
    (lines.takeWhile key.passes).find? key.opens =
      (key.seek lines).map Prod.fst := by
  induction lines with
  | nil => rfl
  | cons line lines ih =>
      rw [seek]
      by_cases hopens : key.opens line = true
      · rw [if_pos hopens,
          List.takeWhile_cons_of_pos (passes_of_opens hopens),
          List.find?_cons_of_pos hopens]
        rfl
      · rw [if_neg hopens]
        by_cases hpasses : key.passes line = true
        · rw [if_pos hpasses, List.takeWhile_cons_of_pos hpasses,
            List.find?_cons_of_neg hopens, ih]
        · rw [if_neg hpasses, List.takeWhile_cons_of_neg hpasses]
          rfl

theorem find?_opens (key : Key) (hpasses : ∀ line, key.passes line = true)
    (lines : List Line) :
    lines.find? key.opens = (key.seek lines).map Prod.fst := by
  rw [← find?_takeWhile_passes,
    List.takeWhile_eq_self_iff.mpr fun line _ => hpasses line]

theorem takeWhile_of_seek {key : Key} {lines below : List Line}
    {line : Line} (hfound : key.seek lines = some (line, below)) :
    ∃ before, lines.takeWhile key.passes =
      before ++ line :: below.takeWhile key.passes := by
  obtain ⟨before, rfl, hopens, hbefore⟩ := seek_eq_some_iff.mp hfound
  refine ⟨before, ?_⟩
  rw [List.takeWhile_append_of_pos fun other hother =>
      (hbefore other hother).1,
    List.takeWhile_cons_of_pos (passes_of_opens hopens)]

theorem behind_of_seek {database : Bytes} {position : Nat} {key : Key}
    {below : List Line} {line : Line}
    (hfound : key.seek (Line.behind database position) =
      some (line, below)) :
    Line.behind database line.next = below := by
  obtain ⟨before, hlines, -⟩ := seek_eq_some_iff.mp hfound
  exact (between_cut hlines).2.2

end Key

/-! ## Chains of searches -/

/-- The lines below the entry that the keys lead to, the last of them being the
outermost. -/
def nestedLines (lines : List Line) : List Key → Option (List Line)
  | [] => some lines
  | key :: outer =>
      (nestedLines lines outer).bind fun nested =>
        (key.seek nested).map Prod.snd

/-- The line of the entry below the entries of `outer`, and the lines below
it. -/
def entryAt (lines : List Line) (key : Key) (outer : List Key) :
    Option (Line × List Line) :=
  (nestedLines lines outer).bind key.seek

/-- The name on the line of the entry, empty if there is no such line. -/
def nameAt (lines : List Line) (key : Key) (outer : List Key) : String :=
  ((entryAt lines key outer).map fun found =>
    found.1.nameAfter key.lead).getD ""

theorem nestedLines_cons (lines : List Line) (key : Key)
    (outer : List Key) :
    nestedLines lines (key :: outer) =
      (entryAt lines key outer).map Prod.snd := by
  rw [nestedLines, entryAt]
  cases nestedLines lines outer <;> rfl

theorem nameAt_cons (lines : List Line) (key above : Key)
    (outer : List Key) :
    nameAt lines key (above :: outer) =
      ((entryAt lines above outer).map fun found =>
        nameAt found.2 key []).getD "" := by
  rw [nameAt, entryAt, nestedLines_cons]
  cases entryAt lines above outer <;> rfl

theorem entryAt_nil (key : Key) (outer : List Key) :
    entryAt [] key outer = none := by
  induction outer generalizing key with
  | nil => rfl
  | cons above outer ih =>
      rw [entryAt, nestedLines_cons, ih]
      rfl

theorem nameAt_nil (key : Key) (outer : List Key) :
    nameAt [] key outer = "" := by
  rw [nameAt, entryAt_nil]
  rfl

theorem nestedLines_concat (lines : List Line) (outer : List Key)
    (above : Key) :
    nestedLines lines (outer ++ [above]) =
      (above.seek lines).bind fun found => nestedLines found.2 outer := by
  induction outer with
  | nil =>
      rw [List.nil_append, nestedLines, nestedLines, Option.bind_some]
      cases above.seek lines <;> rfl
  | cons key outer ih =>
      rw [List.cons_append, nestedLines, ih, Option.bind_assoc]
      rfl

theorem nameAt_concat_of_none {lines : List Line} {above : Key}
    (hnone : above.seek lines = none) (key : Key) (outer : List Key) :
    nameAt lines key (outer ++ [above]) = "" := by
  rw [nameAt, entryAt, nestedLines_concat, hnone]
  rfl

theorem nameAt_concat_of_some {lines below : List Line} {above : Key}
    {line : Line} (hfound : above.seek lines = some (line, below))
    (key : Key) (outer : List Key) :
    nameAt lines key (outer ++ [above]) = nameAt below key outer := by
  rw [nameAt, entryAt, nestedLines_concat, hfound]
  rfl

theorem nameAt_of_some {lines below : List Line} {key : Key} {line : Line}
    (hfound : key.seek lines = some (line, below)) :
    nameAt lines key [] = line.nameAfter key.lead := by
  change ((key.seek lines).map _).getD _ = _
  rw [hfound]
  rfl

theorem nameAt_of_none {lines : List Line} {key : Key}
    (hnone : key.seek lines = none) : nameAt lines key [] = "" := by
  change ((key.seek lines).map _).getD _ = _
  rw [hnone]
  rfl

/-- The list from its last element with the property on. -/
def fromLast {α : Type} (p : α → Bool) : List α → List α
  | [] => []
  | first :: rest =>
      match fromLast p rest with
      | [] => if p first then first :: rest else []
      | found => found

/-- The lines from the start of the classes on. -/
def classLines (lines : List Line) : List Line :=
  fromLast (Line.startsWith classBlockMark) lines

namespace Query

/-- A class code names a class, a subclass of it and an interface of that. -/
def classKey (code : Nat) : Key :=
  .deviceClass (UInt8.ofNat (code / 0x10000))

def subclassKey (code : Nat) : Key :=
  .subclass (UInt8.ofNat (code / 0x100))

def interfaceKey (code : Nat) : Key :=
  .interface (UInt8.ofNat code)

end Query

/-- What chains of searches in these lines find for a query. -/
def answerIn (lines : List Line) : Query → Answer
  | .vendor vendor => .name (nameAt lines (.vendor vendor) [])
  | .device vendor device =>
      .name (nameAt lines (.device device) [.vendor vendor])
  | .subsystem vendor device subsystemVendor subsystemDevice =>
      .name (nameAt lines (.subsystem (subsystemVendor, subsystemDevice))
        [.device device, .vendor vendor])
  | .deviceClass code =>
      let base := Query.classKey code
      let sub := Query.subclassKey code
      .classNames
        ⟨nameAt (classLines lines) base [],
          nameAt (classLines lines) sub [base],
          nameAt (classLines lines) (Query.interfaceKey code) [sub, base]⟩

/-! ## Positions -/

section Searches

variable {database : Bytes} {position limit : Nat}

theorem exists_behind_of_nestedLines {outer : List Key}
    {nested : List Line}
    (hnested : nestedLines (Line.behind database position) outer =
      some nested) :
    ∃ next, Line.behind database next = nested := by
  induction outer generalizing nested with
  | nil => exact ⟨position, Option.some.inj hnested⟩
  | cons key outer ih =>
      obtain ⟨above, habove, hfound⟩ := Option.bind_eq_some_iff.mp hnested
      obtain ⟨⟨line, below⟩, hseek, rfl⟩ := Option.map_eq_some_iff.mp hfound
      obtain ⟨next, rfl⟩ := ih habove
      exact ⟨line.next, Key.behind_of_seek hseek⟩

theorem behind_of_entryAt {key : Key} {outer : List Key} {line : Line}
    {below : List Line}
    (hfound : entryAt (Line.behind database position) key outer =
      some (line, below)) :
    Line.behind database line.next = below := by
  obtain ⟨nested, hnested, hseek⟩ := Option.bind_eq_some_iff.mp hfound
  obtain ⟨next, rfl⟩ := exists_behind_of_nestedLines hnested
  exact Key.behind_of_seek hseek

theorem findVendor_eq_seek (database : Bytes) (vendor : UInt16) :
    findVendor database vendor =
      ((Key.vendor vendor).seek (Line.behind database 0)).map fun found =>
        ⟨found.1.nameAfter (Key.vendor vendor).lead, found.1.next⟩ := by
  have hfind := (Key.vendor vendor).find?_opens (fun _ => rfl)
    (Line.behind database 0)
  rw [findVendor, vendor_lead]
  change ((Line.behind database 0).find? (Key.vendor vendor).opens).map _ = _
  rw [hfind, Option.map_map]
  rfl

theorem findDevice_eq_seek (database : Bytes) (position : Nat)
    (device : UInt16) :
    findDevice database position device =
      ((Key.device device).seek (Line.behind database position)).map
        fun found =>
          ⟨found.1.nameAfter (Key.device device).lead, found.1.next⟩ := by
  have hfind := (Key.device device).find?_takeWhile_passes
    (Line.behind database position)
  rw [findDevice, device_lead]
  change (((Line.behind database position).takeWhile
    (Key.device device).passes).find? (Key.device device).opens).map _ = _
  rw [hfind, Option.map_map]
  rfl

/-- The name that a search in the lines of a block gives. -/
theorem name_of_find?_takeWhile (key : Key) (lines : List Line) :
    (match (lines.takeWhile key.passes).find? key.opens with
      | some line => line.nameAfter key.lead
      | none => "") = nameAt lines key [] := by
  rw [key.find?_takeWhile_passes]
  change _ = ((key.seek lines).map _).getD _
  cases key.seek lines <;> rfl

theorem findSubsystem_eq_nameAt (database : Bytes) (position : Nat)
    (vendor device : UInt16) :
    findSubsystem database position vendor device =
      nameAt (Line.behind database position) (.subsystem (vendor, device))
        [] := by
  rw [findSubsystem, subsystem_lead (vendor, device)]
  exact name_of_find?_takeWhile (.subsystem (vendor, device)) _

theorem deviceFound?_eq_entryAt (database : Bytes)
    (vendor device : UInt16) :
    deviceFound? database vendor device =
      (entryAt (Line.behind database 0) (.device device)
        [.vendor vendor]).map fun found =>
          ⟨found.1.nameAfter (Key.device device).lead, found.1.next⟩ := by
  rw [deviceFound?, findVendor_eq_seek, entryAt, nestedLines_cons]
  change _ = (((((Key.vendor vendor).seek _).map _).bind _).map _)
  cases hfound : (Key.vendor vendor).seek (Line.behind database 0) with
  | none => rfl
  | some found =>
      have hbelow := Key.behind_of_seek hfound
      rw [Option.map_some, Option.bind_some, Option.map_some,
        Option.bind_some, findDevice_eq_seek, hbelow]

end Searches

/-! ## Classes -/

section Classes

variable {database : Bytes} {position limit : Nat} {lines : List Line}

theorem findInterface_eq_nameAt {interface : UInt8}
    (hrange : Line.between database position limit =
      lines.takeWhile (Key.interface interface).passes) :
    findInterface database position limit interface =
      nameAt lines (.interface interface) [] := by
  rw [findInterface, interface_lead, hrange]
  exact name_of_find?_takeWhile (.interface interface) lines

/-- The block of a subclass lies within that of its class. -/
theorem takeWhile_interface_passes (sub interface : UInt8) :
    (lines.takeWhile (Key.subclass sub).passes).takeWhile
        (fun line => !isSubclassLevel line) =
      lines.takeWhile (Key.interface interface).passes := by
  rw [List.takeWhile_takeWhile]
  congr 1
  funext line
  simp [Key.passes]

theorem findSubclass_eq_nameAt {sub : UInt8}
    (hrange : Line.between database position limit =
      lines.takeWhile (Key.subclass sub).passes) (interface : UInt8) :
    findSubclass database position limit sub interface =
      (nameAt lines (.subclass sub) [],
        nameAt lines (.interface interface) [.subclass sub]) := by
  have hfind : (Line.between database position limit).find?
      (Line.hasId (Key.subclass sub).lead) =
        ((Key.subclass sub).seek lines).map Prod.fst := by
    rw [hrange]
    exact Key.find?_takeWhile_passes (.subclass sub) lines
  rw [findSubclass, subclass_lead, hfind]
  cases hfound : (Key.subclass sub).seek lines with
  | none =>
      have hinterface : nameAt lines (.interface interface)
          [.subclass sub] = "" := nameAt_concat_of_none hfound _ []
      rw [nameAt_of_none hfound, hinterface]
      rfl
  | some found =>
      obtain ⟨line, below⟩ := found
      obtain ⟨before, hlines⟩ := Key.takeWhile_of_seek hfound
      have hbelow := (between_cut (hrange.trans hlines)).2.2
      have hblock : Line.between database line.next
          (blockEnd (Line.between database line.next limit)
            isSubclassLevel limit) =
          below.takeWhile (Key.interface interface).passes := by
        rw [between_blockEnd, hbelow,
          takeWhile_interface_passes sub interface]
      have hinterface : nameAt lines (.interface interface)
          [.subclass sub] = nameAt below (.interface interface) [] :=
        nameAt_concat_of_some hfound _ []
      rw [nameAt_of_some hfound, hinterface,
        ← findInterface_eq_nameAt hblock]
      rfl

theorem findClass_eq_nameAt (database : Bytes) (block : Nat)
    (base sub interface : UInt8) :
    findClass database block base sub interface =
      ⟨nameAt (Line.behind database block) (.deviceClass base) [],
        nameAt (Line.behind database block) (.subclass sub)
          [.deviceClass base],
        nameAt (Line.behind database block) (.interface interface)
          [.subclass sub, .deviceClass base]⟩ := by
  have hfind : (Line.behind database block).find?
      (Line.hasId (Key.deviceClass base).lead) = _ :=
    (Key.deviceClass base).find?_opens (fun _ => rfl) _
  rw [findClass, class_lead, hfind]
  cases hfound :
      (Key.deviceClass base).seek (Line.behind database block) with
  | none =>
      have hsub : nameAt (Line.behind database block) (.subclass sub)
          [.deviceClass base] = "" := nameAt_concat_of_none hfound _ []
      have hinterface : nameAt (Line.behind database block)
          (.interface interface) [.subclass sub, .deviceClass base] = "" :=
        nameAt_concat_of_none hfound _ [.subclass sub]
      rw [nameAt_of_none hfound, hsub, hinterface]
      rfl
  | some found =>
      obtain ⟨line, below⟩ := found
      have hbelow := Key.behind_of_seek hfound
      have hblock : Line.between database line.next
          (blockEnd (Line.behind database line.next)
            (Line.startsWith classMark) database.length) =
          below.takeWhile (Key.subclass sub).passes := by
        rw [Line.behind, between_blockEnd, ← Line.behind, hbelow]
        rfl
      have hsub : nameAt (Line.behind database block) (.subclass sub)
          [.deviceClass base] = nameAt below (.subclass sub) [] :=
        nameAt_concat_of_some hfound _ []
      have hinterface : nameAt (Line.behind database block)
          (.interface interface) [.subclass sub, .deviceClass base] =
            nameAt below (.interface interface) [.subclass sub] :=
        nameAt_concat_of_some hfound _ [.subclass sub]
      have hnested := findSubclass_eq_nameAt hblock interface
      rw [nameAt_of_some hfound, hsub, hinterface]
      simp only [Option.map_some, hnested]

end Classes

/-! ## The start of the classes -/

theorem fromLast_suffix {α : Type} (p : α → Bool) (elements : List α) :
    fromLast p elements <:+ elements := by
  induction elements with
  | nil => exact List.suffix_rfl
  | cons first rest ih =>
      rw [fromLast]
      split
      next =>
        split
        · exact List.suffix_rfl
        · exact List.nil_suffix
      next => exact ih.trans (List.suffix_cons first rest)

theorem getLast?_filter {α : Type} (p : α → Bool) (elements : List α) :
    (elements.filter p).getLast? = (fromLast p elements).head? := by
  induction elements with
  | nil => rfl
  | cons first rest ih =>
      rw [fromLast, List.filter_cons]
      cases hrest : fromLast p rest with
      | nil =>
          rw [hrest, List.head?_nil, List.getLast?_eq_none_iff] at ih
          rw [ih]
          split <;> rfl
      | cons line lines =>
          rw [hrest] at ih
          split
          · rw [List.getLast?_cons, ih]
            rfl
          · exact ih

theorem classBlock?_eq (database : Bytes) :
    classBlock? database =
      (classLines (Line.behind database 0)).head?.map Line.start := by
  rw [classBlock?, classLines, ← getLast?_filter]

/-- The lines from the start of the classes on are those of the range that
starts there. -/
theorem behind_classBlock {database : Bytes} {block : Nat}
    (hblock : classBlock? database = some block) :
    Line.behind database block = classLines (Line.behind database 0) := by
  rw [classBlock?_eq] at hblock
  obtain ⟨line, hhead, rfl⟩ := Option.map_eq_some_iff.mp hblock
  obtain ⟨before, hlines⟩ := fromLast_suffix
    (Line.startsWith classBlockMark) (Line.behind database 0)
  obtain ⟨after, hclasses⟩ := List.head?_eq_some_iff.mp hhead
  rw [classLines] at hclasses ⊢
  rw [hclasses] at hlines ⊢
  exact (between_cut hlines.symm).2.1

/-! ## Queries -/

/-- Without any memory, the searches find what chains of searches in the list
of all lines do. -/
theorem searched_eq_answerIn (database : Bytes) (query : Query) :
    searched database query = answerIn (Line.behind database 0) query := by
  cases query with
  | vendor vendor =>
      rw [searched, findVendor_eq_seek, Option.map_map]
      rfl
  | device vendor device =>
      rw [searched, deviceFound?_eq_entryAt, Option.map_map]
      rfl
  | subsystem vendor device subsystemVendor subsystemDevice =>
      rw [searched, deviceFound?_eq_entryAt, Option.map_map, answerIn,
        nameAt_cons]
      cases hfound : entryAt (Line.behind database 0) (.device device)
          [.vendor vendor] with
      | none => rfl
      | some found =>
          have hname := findSubsystem_eq_nameAt database found.1.next
            subsystemVendor subsystemDevice
          rw [behind_of_entryAt hfound] at hname
          exact congrArg Answer.name hname
  | deviceClass code =>
      rw [searched]
      cases hblock : classBlock? database with
      | none =>
          have hclasses : classLines (Line.behind database 0) = [] := by
            rw [classBlock?_eq, Option.map_eq_none_iff] at hblock
            exact List.head?_eq_none_iff.mp hblock
          rw [answerIn, hclasses, nameAt_nil, nameAt_nil, nameAt_nil]
          rfl
      | some block =>
          rw [answerIn, ← behind_classBlock hblock]
          exact congrArg Answer.classNames (findClass_eq_nameAt _ _ _ _ _)

end PciInventory.Names
