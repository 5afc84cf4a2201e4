import Mathlib
import PciInventory.LiveSource
import PciInventory.Proofs.Text.Blank
import PciInventory.Proofs.Text.Numeral

/-!
# Resource files

A resource file is read if and only if each of its lines is blank or has three
fields that denote words.  The resources are then those of the lines that are
not blank, in their order, however they are spelled and whatever ends the lines.
Otherwise the first line that is neither blank nor a resource is the error, and
nothing of the file is used.
-/

namespace PciInventory.LiveSource

open Blank (AllBlank HasFields HasLines)

/-- A hexadecimal numeral, with or without a mark before it. -/
def IsWord (field : List Char) (value : UInt64) : Prop :=
  ∃ digits, (field = digits ∨ field = '0' :: 'x' :: digits ∨
      field = '0' :: 'X' :: digits) ∧
    Numeral.Denotes 16 digits value.toNat

/-- The line has three fields, which denote the words of the resource. -/
def IsRow (line : List Char) (resource : Resource) : Prop :=
  ∃ start finish flags, HasFields line [start, finish, flags] ∧
    IsWord start resource.start ∧ IsWord finish resource.finish ∧
    IsWord flags resource.flags

/-! ## Fields and lines -/

theorem map_ofNat_read?_eq_some_iff {digits : List Char} {value : UInt64} :
    (Numeral.read? 16 UInt64.size digits).map UInt64.ofNat = some value ↔
      Numeral.Denotes 16 digits value.toNat := by
  rw [Option.map_eq_some_iff]
  constructor
  · rintro ⟨number, hread, rfl⟩
    obtain ⟨hdenotes, hlt⟩ := Numeral.read?_eq_some_iff.mp hread
    rwa [UInt64.toNat_ofNat_of_lt' hlt]
  · intro hdenotes
    exact ⟨value.toNat,
      Numeral.read?_eq_some_iff.mpr ⟨hdenotes, value.toNat_lt⟩, by simp⟩

/-- No numeral begins with a mark, so at most one reading of a field is left. -/
theorem parseField?_eq_some_iff {field : List Char} {value : UInt64} :
    parseField? field = some value ↔ IsWord field value := by
  unfold parseField?
  simp only [map_ofNat_read?_eq_some_iff]
  constructor
  · intro hdenotes
    split at hdenotes
    next digits => exact ⟨digits, .inr (.inl rfl), hdenotes⟩
    next digits => exact ⟨digits, .inr (.inr rfl), hdenotes⟩
    next => exact ⟨field, .inl rfl, hdenotes⟩
  · rintro ⟨digits, rfl | rfl | rfl, hdenotes⟩
    · split
      next rest =>
        exact (hdenotes.notMem (c := 'x') (by decide) (by decide)
          (by simp)).elim
      next rest =>
        exact (hdenotes.notMem (c := 'X') (by decide) (by decide)
          (by simp)).elim
      next => exact hdenotes
    · exact hdenotes
    · exact hdenotes

theorem parseResource?_eq_some_iff {line : List Char} {resource : Resource} :
    parseResource? line = some resource ↔ IsRow line resource := by
  unfold parseResource? IsRow
  simp only [← Blank.fields_eq_iff, ← parseField?_eq_some_iff]
  constructor
  · intro hparse
    split at hparse
    next start finish flags hfields =>
      simp only [Option.bind_eq_bind, Option.bind_eq_some_iff,
        Option.pure_def, Option.some.injEq] at hparse
      obtain ⟨startWord, hstart, finishWord, hfinish, flagsWord, hflags,
        rfl⟩ := hparse
      exact ⟨start, finish, flags, hfields, hstart, hfinish, hflags⟩
    next => contradiction
  · rintro ⟨start, finish, flags, hfields, hstart, hfinish, hflags⟩
    rw [hfields]
    simp only [hstart, hfinish, hflags]
    rfl

theorem parseResource?_eq_none_iff {line : List Char} :
    parseResource? line = none ↔ ¬∃ resource, IsRow line resource := by
  simp only [← parseResource?_eq_some_iff, not_exists]
  exact Option.eq_none_iff_forall_ne_some

/-! ## Files -/

/-- A line that reading passes over or takes a resource from. -/
def IsAccepted (line : List Char) : Prop :=
  ¬AllBlank line → ∃ resource, IsRow line resource

section

variable {path : Bytes} {line : List Char} {rest : List (List Char)}

theorem parseResources_cons_blank (hblank : AllBlank line) :
    parseResources path (line :: rest) = parseResources path rest := by
  rw [parseResources, if_pos (Blank.isEmpty_trim_iff.mpr hblank)]

theorem parseResources_cons_row {resource : Resource}
    (hblank : ¬AllBlank line) (hrow : IsRow line resource) :
    parseResources path (line :: rest) =
      (parseResources path rest).map fun others => resource :: others := by
  rw [parseResources, if_neg (mt Blank.isEmpty_trim_iff.mp hblank),
    parseResource?_eq_some_iff.mpr hrow]

theorem parseResources_cons_refused (hline : ¬IsAccepted line) :
    parseResources path (line :: rest) =
      .error (.malformed "resource line"
        (Utf8.display path ++ ": " ++ Quoted.text line)) := by
  obtain ⟨hblank, hrow⟩ := Classical.not_imp.mp hline
  rw [parseResources, if_neg (mt Blank.isEmpty_trim_iff.mp hblank),
    parseResource?_eq_none_iff.mpr hrow]

end

/-- What the lines that are not blank hold, when each holds a resource. -/
def AreRows (lines : List (List Char)) (resources : List Resource) : Prop :=
  List.Forall₂ IsRow (lines.filter fun line => ¬AllBlank line) resources

theorem parseResources_of_areRows {path : Bytes}
    {lines : List (List Char)} {resources : List Resource}
    (hrows : AreRows lines resources) :
    parseResources path lines = .ok resources := by
  unfold AreRows at hrows
  induction lines generalizing resources with
  | nil =>
      cases hrows
      rfl
  | cons line rest ih =>
      by_cases hblank : AllBlank line
      · rw [parseResources_cons_blank hblank]
        rw [List.filter_cons_of_neg (by simpa using hblank)] at hrows
        exact ih hrows
      · rw [List.filter_cons_of_pos (by simpa using hblank)] at hrows
        obtain ⟨resource, others, hrow, hothers, rfl⟩ :=
          List.forall₂_cons_left_iff.mp hrows
        rw [parseResources_cons_row hblank hrow, ih hothers]
        rfl

theorem exists_areRows {lines : List (List Char)}
    (haccepted : ∀ line ∈ lines, IsAccepted line) :
    ∃ resources, AreRows lines resources := by
  unfold AreRows
  induction lines with
  | nil => exact ⟨[], .nil⟩
  | cons line rest ih =>
      obtain ⟨hline, hrest⟩ := List.forall_mem_cons.mp haccepted
      obtain ⟨others, hothers⟩ := ih hrest
      by_cases hblank : AllBlank line
      · rw [List.filter_cons_of_neg (by simpa using hblank)]
        exact ⟨others, hothers⟩
      · rw [List.filter_cons_of_pos (by simpa using hblank)]
        obtain ⟨resource, hrow⟩ := hline hblank
        exact ⟨resource :: others, .cons hrow hothers⟩

/-- The first line of a file that cannot be accepted. -/
def FirstRefused (lines : List (List Char)) (line : List Char) : Prop :=
  ∃ before after, lines = before ++ line :: after ∧
    (∀ other ∈ before, IsAccepted other) ∧ ¬IsAccepted line

theorem exists_firstRefused {lines : List (List Char)}
    (hrefused : ¬∀ line ∈ lines, IsAccepted line) :
    ∃ line, FirstRefused lines line := by
  induction lines with
  | nil => exact (hrefused (by simp)).elim
  | cons line rest ih =>
      by_cases hline : IsAccepted line
      · have hrest : ¬∀ other ∈ rest, IsAccepted other := fun hall =>
          hrefused (List.forall_mem_cons.mpr ⟨hline, hall⟩)
        obtain ⟨bad, before, after, rfl, hbefore, hbad⟩ := ih hrest
        exact ⟨bad, line :: before, after, rfl,
          List.forall_mem_cons.mpr ⟨hline, hbefore⟩, hbad⟩
      · exact ⟨line, [], rest, rfl, by simp, hline⟩

theorem parseResources_of_firstRefused {path : Bytes}
    {lines : List (List Char)} {line : List Char}
    (hfirst : FirstRefused lines line) :
    parseResources path lines =
      .error (.malformed "resource line"
        (Utf8.display path ++ ": " ++ Quoted.text line)) := by
  obtain ⟨before, after, rfl, hbefore, hline⟩ := hfirst
  induction before with
  | nil => exact parseResources_cons_refused hline
  | cons first before ih =>
      obtain ⟨hfirst, hbefore⟩ := List.forall_mem_cons.mp hbefore
      rw [List.cons_append]
      by_cases hblank : AllBlank first
      · rw [parseResources_cons_blank hblank]
        exact ih hbefore
      · obtain ⟨resource, hrow⟩ := hfirst hblank
        rw [parseResources_cons_row hblank hrow, ih hbefore]
        rfl

theorem areRows_or_firstRefused (lines : List (List Char)) :
    (∃ resources, AreRows lines resources) ∨
      ∃ line, FirstRefused lines line := by
  by_cases haccepted : ∀ line ∈ lines, IsAccepted line
  · exact .inl (exists_areRows haccepted)
  · exact .inr (exists_firstRefused haccepted)

theorem parseResources_eq_ok_iff {path : Bytes} {lines : List (List Char)}
    {resources : List Resource} :
    parseResources path lines = .ok resources ↔ AreRows lines resources := by
  refine ⟨fun hparse => ?_, parseResources_of_areRows⟩
  rcases areRows_or_firstRefused lines with ⟨rows, hrows⟩ | ⟨line, hfirst⟩
  · rw [parseResources_of_areRows hrows, Except.ok.injEq] at hparse
    rwa [← hparse]
  · rw [parseResources_of_firstRefused hfirst] at hparse
    contradiction

theorem parseResources_eq_error_iff {path : Bytes}
    {lines : List (List Char)} {error : ScanError} :
    parseResources path lines = .error error ↔
      ∃ line, FirstRefused lines line ∧
        error = .malformed "resource line"
          (Utf8.display path ++ ": " ++ Quoted.text line) := by
  constructor
  · intro hparse
    rcases areRows_or_firstRefused lines with ⟨rows, hrows⟩ | ⟨line, hfirst⟩
    · rw [parseResources_of_areRows hrows] at hparse
      contradiction
    · rw [parseResources_of_firstRefused hfirst, Except.error.injEq] at hparse
      exact ⟨line, hfirst, hparse.symm⟩
  · rintro ⟨line, hfirst, rfl⟩
    exact parseResources_of_firstRefused hfirst

theorem exists_parseResources_iff {path : Bytes} {lines : List (List Char)} :
    (∃ resources, parseResources path lines = .ok resources) ↔
      ∀ line ∈ lines, IsAccepted line := by
  constructor
  · rintro ⟨resources, hparse⟩
    by_contra hrefused
    obtain ⟨line, hfirst⟩ := exists_firstRefused hrefused
    rw [parseResources_of_firstRefused hfirst] at hparse
    contradiction
  · intro haccepted
    obtain ⟨resources, hrows⟩ := exists_areRows haccepted
    exact ⟨resources, parseResources_of_areRows hrows⟩

/-- A resource file is read if and only if each line is blank or holds three
words.  Then the resources are those of the lines that are not blank, in their
order; otherwise the error names the first line that is refused. -/
theorem readResources_iff_rows {tree : FileTree} {path : Bytes}
    {text : String} (htext : tree.readText path = .ok text) :
    (∃ lines, HasLines text.toList lines) ∧
    ∀ lines, HasLines text.toList lines →
      ((∃ resources, readResources tree path = .ok resources) ↔
        ∀ line ∈ lines, ¬AllBlank line → ∃ resource, IsRow line resource) ∧
      (∀ resources, readResources tree path = .ok resources ↔
        AreRows lines resources) ∧
      ∀ error, readResources tree path = .error error ↔
        ∃ line, FirstRefused lines line ∧
          error = .malformed "resource line"
            (Utf8.display path ++ ": " ++ Quoted.text line) := by
  refine ⟨⟨_, Blank.lines_eq_iff.mp rfl⟩, fun lines hlines => ?_⟩
  have hread : readResources tree path = parseResources path lines := by
    rw [readResources, htext, ← Blank.lines_eq_iff.mpr hlines]
  rw [hread]
  exact ⟨exists_parseResources_iff, fun _ => parseResources_eq_ok_iff,
    fun _ => parseResources_eq_error_iff⟩

/-- A file spelled in several ways and one whose second line has a number of
seventeen digits. -/
def spelledTree : FileTree :=
  ⟨[([Bytes.ofText "rows"], .file (Bytes.ofText
      "0X+00aB 0xCD\t2  \r\n \n1 2 0003")),
    ([Bytes.ofText "long"], .file (Bytes.ofText
      "1 2 3\n0 0 10000000000000000\n\nx"))], []⟩

/-- Every ending and spelling is read, and the first row that is too long is
the error. -/
theorem readResources_iff_rows_spelled :
    spelledTree.readText (Bytes.ofText "rows") =
        .ok "0X+00aB 0xCD\t2  \r\n \n1 2 0003" ∧
      readResources spelledTree (Bytes.ofText "rows") =
        .ok [⟨0xab, 0xcd, 2⟩, ⟨1, 2, 3⟩] ∧
      spelledTree.readText (Bytes.ofText "long") =
        .ok "1 2 3\n0 0 10000000000000000\n\nx" ∧
      readResources spelledTree (Bytes.ofText "long") =
        .error (.malformed "resource line"
          "long: \"0 0 10000000000000000\"") := by
  have hrows : spelledTree.readText (Bytes.ofText "rows") =
      .ok "0X+00aB 0xCD\t2  \r\n \n1 2 0003" := by cbv
  have hlong : spelledTree.readText (Bytes.ofText "long") =
      .ok "1 2 3\n0 0 10000000000000000\n\nx" := by cbv
  refine ⟨hrows, ?_, hlong, ?_⟩
  · have hlines : HasLines "0X+00aB 0xCD\t2  \r\n \n1 2 0003".toList
        ["0X+00aB 0xCD\t2  ".toList, [' '], "1 2 0003".toList] :=
      Blank.lines_eq_iff.mp (by decide +kernel)
    have hfull : ["0X+00aB 0xCD\t2  ".toList, [' '],
        "1 2 0003".toList].filter (fun line => ¬AllBlank line) =
          ["0X+00aB 0xCD\t2  ".toList, "1 2 0003".toList] := by decide +kernel
    refine ((readResources_iff_rows hrows).2 _ hlines).2.1 _ |>.mpr ?_
    rw [AreRows, hfull]
    exact .cons (parseResource?_eq_some_iff.mp (by decide +kernel))
      (.cons (parseResource?_eq_some_iff.mp (by decide +kernel)) .nil)
  · have hlines : HasLines "1 2 3\n0 0 10000000000000000\n\nx".toList
        ["1 2 3".toList, "0 0 10000000000000000".toList, [], ['x']] :=
      Blank.lines_eq_iff.mp (by decide +kernel)
    refine ((readResources_iff_rows hlong).2 _ hlines).2.2 _ |>.mpr ?_
    refine ⟨"0 0 10000000000000000".toList,
      ⟨["1 2 3".toList], [[], ['x']], rfl, ?_, ?_⟩, by decide +kernel⟩
    · rintro line hmem -
      rw [List.mem_singleton.mp hmem]
      exact ⟨⟨1, 2, 3⟩, parseResource?_eq_some_iff.mp (by decide +kernel)⟩
    · intro haccepted
      exact parseResource?_eq_none_iff.mp (by decide +kernel)
        (haccepted (by decide +kernel))

end PciInventory.LiveSource
