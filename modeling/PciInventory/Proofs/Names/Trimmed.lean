import PciInventory.Proofs.Device.Modelling
import PciInventory.Proofs.Names.Origin

/-!
# Names within a line

A name is cut out of one line of the file, without the blanks around it.  So no
name reaches over the end of a line, whatever the bytes of the file are and
whatever was asked for before, and none begins or ends with a blank.  The same
goes for the names of a device.
-/

namespace PciInventory

theorem Bytes.ofText_eq_flatMap (text : String) :
    Bytes.ofText text = text.toList.flatMap String.utf8EncodeChar := by
  have hencoded : text.toByteArray = text.toList.utf8Encode := by
    rw [← String.toByteArray_ofList, String.ofList_toList]
  rw [Bytes.ofText, hencoded, List.utf8Encode]
  simp

namespace Names

/-! ## Names and their characters -/

/-- The name has no line break, and no blank at either end. -/
structure OneLine (name : String) : Prop where
  unbroken : '\n' ∉ name.toList
  startsVisibly : ∀ c ∈ name.toList.head?, c ∉ [' ', '\t']
  endsVisibly : ∀ c ∈ name.toList.getLast?,
    c ∉ [' ', '\t', '\n', '\x0c', '\r']

theorem OneLine.empty : OneLine "" := by
  constructor <;> simp

/-- The characters that are cut off around a name have one byte each. -/
theorem utf8EncodeChar_blank : ∀ c ∈ [' ', '\t', '\n', '\x0c', '\r'],
    String.utf8EncodeChar c = [c.toUInt8] := by
  apply List.map_inj_left.mp
  decide +kernel

theorem oneLine_of_trimsTo {rest : Bytes} {name : String}
    (htrims : TrimsTo rest name) (hrest : newline ∉ rest) :
    OneLine name := by
  obtain ⟨front, back, hparts, -, -⟩ := htrims.parts
  have hencoded := Bytes.ofText_eq_flatMap name
  refine ⟨?_, ?_, ?_⟩
  · intro hbreak
    have hbyte : newline ∈ Bytes.ofText name := by
      rw [hencoded, List.mem_flatMap]
      exact ⟨'\n', hbreak, by decide +kernel⟩
    apply hrest
    rw [hparts]
    simp [hbyte]
  · intro c hhead hblank
    obtain ⟨tail, hname⟩ := List.head?_eq_some_iff.mp hhead
    have hbyte : c.toUInt8 ∈ (Bytes.ofText name).head? := by
      have hone := utf8EncodeChar_blank c (List.mem_append_left _ hblank)
      rw [hencoded, hname, List.flatMap_cons, hone]
      rfl
    have hcut : [' ', '\t'].map Char.toUInt8 = [space, tab] := by decide
    exact htrims.startsVisibly _ hbyte (hcut ▸ List.mem_map_of_mem hblank)
  · intro c hlast hblank
    obtain ⟨init, hname⟩ := List.getLast?_eq_some_iff.mp hlast
    have hbyte : c.toUInt8 ∈ (Bytes.ofText name).getLast? := by
      rw [hencoded, hname, List.flatMap_append, List.flatMap_singleton,
        utf8EncodeChar_blank c hblank, List.getLast?_concat]
      rfl
    have hcut : [' ', '\t', '\n', '\x0c', '\r'].map Char.toUInt8 =
        [space, tab, newline, 0x0c, carriageReturn] := by decide
    exact htrims.endsVisibly _ hbyte (hcut ▸ List.mem_map_of_mem hblank)

/-! ## Names and the lines they stand on -/

theorem newline_notMem_textLines {database line : Bytes}
    (hline : line ∈ textLines database) : newline ∉ line := by
  induction database using line_induction with
  | empty => contradiction
  | unfinished text hne htext =>
      rw [textLines_unfinished htext hne, List.mem_singleton] at hline
      exact hline ▸ htext
  | line text rest htext ih =>
      rw [textLines_line htext, List.mem_cons] at hline
      rcases hline with rfl | hrest
      · exact htext
      · exact ih hrest

variable {lines : List Bytes} {key : Key} {outer : List Key}

/-- However deep an entry is, its line and those below it are lines of the
file. -/
theorem subset_of_locates {line : Bytes} {below : List Bytes}
    (hlocates : Locates lines key outer line below) :
    line :: below ⊆ lines := by
  induction outer generalizing key line below with
  | nil =>
      obtain ⟨before, hfirst⟩ := hlocates
      rw [hfirst.split]
      exact List.subset_append_right before (line :: below)
  | cons above outer ih =>
      obtain ⟨top, nested, habove, before, hfirst⟩ := hlocates
      have hnested : nested ⊆ lines :=
        List.Subset.trans (List.subset_cons_self top nested) (ih habove)
      rw [hfirst.split] at hnested
      exact List.Subset.trans
        (List.subset_append_right before (line :: below)) hnested

theorem oneLine_of_shows {shown : String}
    (hlines : ∀ line ∈ lines, newline ∉ line)
    (hshows : Shows lines key outer shown) : OneLine shown := by
  by_cases hempty : shown = ""
  · exact hempty ▸ OneLine.empty
  · obtain ⟨rest, below, hlocates, htrims⟩ := (hshows shown hempty).mp rfl
    have hline := hlines _ (subset_of_locates hlocates List.mem_cons_self)
    exact oneLine_of_trimsTo htrims
      fun hnewline => hline (List.mem_append_right key.lead hnewline)

/-! ## Answers -/

/-- The names that an answer gives. -/
def Answer.texts : Answer → List String
  | .name text => [text]
  | .classNames names => [names.base, names.sub, names.interface]

theorem oneLine_of_answersFrom (hlines : ∀ line ∈ lines, newline ∉ line)
    {query : Query} {answer : Answer}
    (hanswers : AnswersFrom lines query answer) :
    ∀ name ∈ answer.texts, OneLine name := by
  have hclasses : ∀ line ∈ classTexts lines, newline ∉ line :=
    fun line hline => hlines line ((fromLast_suffix _ lines).subset hline)
  cases answer with
  | name shown =>
      have hshown : OneLine shown := by
        cases query with
        | deviceClass code => exact hanswers.elim
        | _ => exact oneLine_of_shows hlines hanswers
      simpa [Answer.texts] using hshown
  | classNames names =>
      cases query with
      | deviceClass code =>
          obtain ⟨hbase, hsub, hinterface⟩ := hanswers
          simpa [Answer.texts] using
            ⟨oneLine_of_shows hclasses hbase, oneLine_of_shows hclasses hsub,
              oneLine_of_shows hclasses hinterface⟩
      | _ => exact hanswers.elim

theorem oneLine_searched (database : Bytes) (query : Query) :
    ∀ name ∈ (searched database query).texts, OneLine name :=
  oneLine_of_answersFrom (fun _ hline => newline_notMem_textLines hline)
    (answersFrom_searched database query)

theorem Remembers.oneLine_answer {database : Bytes} {earlier : List Query}
    {resolver : Resolver} (hmemory : Remembers database earlier resolver)
    (query : Query) :
    ∀ name ∈ (resolver.ask query).1.texts, OneLine name := by
  rw [hmemory.answer]
  split
  · exact oneLine_searched database query
  · intro name hname
    rw [List.mem_singleton.mp hname]
    exact OneLine.empty

/-- Whatever was asked for before, all answers keep to a line. -/
theorem Resolver.IsOver.oneLine_askAll {database : Bytes}
    {resolver : Resolver} (hover : resolver.IsOver database)
    (queries : List Query) :
    ∀ answer ∈ (resolver.askAll queries).1, ∀ name ∈ answer.texts,
      OneLine name := by
  obtain ⟨earlier, hmemory⟩ := hover
  induction queries generalizing resolver earlier with
  | nil => simp
  | cons query rest ih =>
      rw [Resolver.askAll_cons]
      exact List.forall_mem_cons.mpr ⟨hmemory.oneLine_answer query,
        ih (earlier ++ [query]) (hmemory.ask query)⟩

end Names

/-! ## Devices -/

namespace DeviceNames

/-- The names found for a device, and the empty ones. -/
def texts (names : DeviceNames) : List String :=
  [names.vendor, names.device, names.classNames.base, names.classNames.sub,
    names.classNames.interface, names.subsystem, names.subsystemVendor]

structure OneLine (names : DeviceNames) : Prop where
  vendor : Names.OneLine names.vendor
  device : Names.OneLine names.device
  base : Names.OneLine names.classNames.base
  sub : Names.OneLine names.classNames.sub
  interface : Names.OneLine names.classNames.interface
  subsystem : Names.OneLine names.subsystem
  subsystemVendor : Names.OneLine names.subsystemVendor

theorem oneLine_of_texts {names : DeviceNames}
    (hnames : ∀ name ∈ names.texts, Names.OneLine name) : names.OneLine := by
  constructor <;> exact hnames _ (by simp [texts])

/-- A name of a device is one of the answers to the lookups for it, or it was
not looked up. -/
theorem mem_texts_resolve {config : ConfigSpace}
    {subsystem : Option SubsystemIds} {resolver : Names.Resolver}
    {name : String}
    (hname : name ∈ (resolve config subsystem resolver).1.texts) :
    name = "" ∨
      ∃ answer ∈ (resolver.askAll (queries config subsystem)).1,
        name ∈ answer.texts := by
  revert hname
  unfold queries resolve texts
  cases config.classCode? <;> cases subsystem <;>
    simp [Names.Resolver.ask, Names.Answer.texts,
      Names.ClassNames.unknown] <;>
    tauto

end DeviceNames

theorem Device.ModelledOver.oneLine_names {database : Bytes}
    {device : Device} (hmodelled : device.ModelledOver database) :
    device.names.OneLine := by
  have hover := Names.Resolver.IsOver.ofDatabase database
  apply DeviceNames.oneLine_of_texts
  intro name hname
  rw [hmodelled.names_eq] at hname
  rcases DeviceNames.mem_texts_resolve hname with
    rfl | ⟨answer, hasked, hmem⟩
  · exact Names.OneLine.empty
  · exact hover.oneLine_askAll _ answer hasked name hmem

end PciInventory
