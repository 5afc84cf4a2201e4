import Mathlib.Data.List.TakeWhile
import PciInventory.Text.Blank

/-!
# Lines and fields of a text

A text is put together from lines and their endings, a line from fields and the
blanks around them.  Either can be taken apart in one way only, which is what
`Blank.lines` and `Blank.fields` do.  A carriage return before a line feed
belongs to the ending, and one in any other place is a blank of the line.
-/

namespace PciInventory.Blank

def AllBlank (text : List Char) : Prop :=
  ∀ c ∈ text, isBlank c = true

instance (text : List Char) : Decidable (AllBlank text) :=
  decidable_of_iff (text.all isBlank = true) List.all_eq_true

theorem allBlank_nil : AllBlank [] :=
  List.forall_mem_nil _

theorem allBlank_dropWhile_iff {text : List Char} :
    AllBlank (text.dropWhile isBlank) ↔ AllBlank text := by
  constructor
  · intro hrest
    rw [← List.takeWhile_append_dropWhile (p := isBlank) (l := text)]
    intro c hmem
    rcases List.mem_append.mp hmem with hmem | hmem
    · exact List.mem_takeWhile_imp hmem
    · exact hrest c hmem
  · intro htext c hmem
    exact htext c ((List.dropWhile_sublist isBlank).mem hmem)

theorem isEmpty_trim_iff {text : List Char} :
    (trim text).isEmpty = true ↔ AllBlank text := by
  unfold trim
  rw [List.isEmpty_iff, List.reverse_eq_nil_iff, List.dropWhile_eq_nil_iff,
    ← allBlank_dropWhile_iff]
  simp only [AllBlank, List.mem_reverse]

/-! ## Fields -/

/-- The text consists of these fields, with blanks between them and possibly
before and behind. -/
inductive HasFields : List Char → List (List Char) → Prop where
  | blank {text : List Char} : AllBlank text → HasFields text []
  | field (before : List Char) {field rest : List Char}
      {others : List (List Char)} :
      AllBlank before → field ≠ [] → (∀ c ∈ field, isBlank c = false) →
      (∀ c ∈ rest.head?, isBlank c = true) → HasFields rest others →
      HasFields (before ++ (field ++ rest)) (field :: others)

theorem HasFields.cons_blank {text : List Char} {parts : List (List Char)}
    {c : Char} (hparts : HasFields text parts) (hc : isBlank c = true) :
    HasFields (c :: text) parts := by
  cases hparts with
  | blank hblank => exact .blank (List.forall_mem_cons.mpr ⟨hc, hblank⟩)
  | field before hbefore hne hfield hrest hothers =>
      rw [← List.cons_append]
      exact .field (c :: before) (List.forall_mem_cons.mpr ⟨hc, hbefore⟩) hne
        hfield hrest hothers

theorem fieldsFrom_cons_blank {c : Char} (hc : isBlank c = true)
    (rest : List Char) : fieldsFrom [] (c :: rest) = fieldsFrom [] rest := by
  simp [fieldsFrom, hc]

theorem fieldsFrom_blank {before : List Char} (hbefore : AllBlank before)
    (rest : List Char) :
    fieldsFrom [] (before ++ rest) = fieldsFrom [] rest := by
  induction before with
  | nil => rfl
  | cons c before ih =>
      obtain ⟨hc, hbefore⟩ := List.forall_mem_cons.mp hbefore
      rw [List.cons_append, fieldsFrom_cons_blank hc, ih hbefore]

theorem fieldsFrom_append {field : List Char}
    (hfield : ∀ c ∈ field, isBlank c = false) (read rest : List Char) :
    fieldsFrom read (field ++ rest) =
      fieldsFrom (field.reverse ++ read) rest := by
  induction field generalizing read with
  | nil => rfl
  | cons c field ih =>
      obtain ⟨hc, hfield⟩ := List.forall_mem_cons.mp hfield
      rw [List.cons_append, fieldsFrom, hc, if_neg (by decide), ih hfield,
        List.reverse_cons, List.append_assoc, List.singleton_append]

/-- A field ends at a blank or at the end of the text. -/
theorem fieldsFrom_end {read rest : List Char} (hread : read ≠ [])
    (hrest : ∀ c ∈ rest.head?, isBlank c = true) :
    fieldsFrom read rest = read.reverse :: fieldsFrom [] rest := by
  have hread : read.isEmpty = false := by rwa [List.isEmpty_eq_false_iff]
  cases rest with
  | nil => simp [fieldsFrom, hread]
  | cons c rest =>
      have hc : isBlank c = true := hrest c rfl
      simp [fieldsFrom, hread, hc]

theorem fields_of_hasFields {text : List Char} {parts : List (List Char)}
    (hparts : HasFields text parts) : fields text = parts := by
  unfold fields
  induction hparts with
  | blank hblank =>
      have hskip := fieldsFrom_blank hblank []
      rwa [List.append_nil] at hskip
  | field before hbefore hne hfield hrest _ ih =>
      rw [fieldsFrom_blank hbefore, fieldsFrom_append hfield,
        List.append_nil, fieldsFrom_end (by simpa using hne) hrest,
        List.reverse_reverse, ih]

theorem hasFields_end {read rest : List Char}
    (hread : ∀ c ∈ read, isBlank c = false)
    (hrest : ∀ c ∈ rest.head?, isBlank c = true)
    (hothers : HasFields rest (fieldsFrom [] rest)) :
    HasFields (read.reverse ++ rest) (fieldsFrom read rest) := by
  by_cases hempty : read = []
  · subst hempty
    exact hothers
  · rw [fieldsFrom_end hempty hrest]
    exact HasFields.field [] allBlank_nil (by simpa using hempty)
      (fun c hmem => hread c (List.mem_reverse.mp hmem)) hrest hothers

theorem hasFields_fieldsFrom (read : List Char)
    (hread : ∀ c ∈ read, isBlank c = false) (text : List Char) :
    HasFields (read.reverse ++ text) (fieldsFrom read text) := by
  induction text generalizing read with
  | nil => exact hasFields_end hread (by simp) (.blank allBlank_nil)
  | cons c rest ih =>
      by_cases hc : isBlank c = true
      · have hothers : HasFields (c :: rest) (fieldsFrom [] (c :: rest)) := by
          rw [fieldsFrom_cons_blank hc]
          exact (ih [] (by simp)).cons_blank hc
        exact hasFields_end hread (by simpa using hc) hothers
      · rw [Bool.not_eq_true] at hc
        have hmore := ih (c :: read) (List.forall_mem_cons.mpr ⟨hc, hread⟩)
        rw [fieldsFrom, hc, if_neg (by decide)]
        rw [List.reverse_cons, List.append_assoc] at hmore
        exact hmore

theorem fields_eq_iff {text : List Char} {parts : List (List Char)} :
    fields text = parts ↔ HasFields text parts := by
  constructor
  · rintro rfl
    exact hasFields_fieldsFrom [] (by simp) text
  · exact fields_of_hasFields

/-! ## Lines -/

/-- The text consists of these lines and of the endings that they had. -/
inductive HasLines : List Char → List (List Char) → Prop where
  | empty : HasLines [] []
  | unfinished {line : List Char} :
      line ≠ [] → '\n' ∉ line → HasLines line [line]
  | lineFeed {line rest : List Char} {others : List (List Char)} :
      '\n' ∉ line → line.getLast? ≠ some '\r' → HasLines rest others →
      HasLines (line ++ '\n' :: rest) (line :: others)
  | carriageReturn {line rest : List Char} {others : List (List Char)} :
      '\n' ∉ line → HasLines rest others →
      HasLines (line ++ '\r' :: '\n' :: rest) (line :: others)

theorem linesFrom_append {line : List Char} (hline : '\n' ∉ line)
    (read rest : List Char) :
    linesFrom read (line ++ rest) = linesFrom (line.reverse ++ read) rest := by
  induction line generalizing read with
  | nil => rfl
  | cons c line ih =>
      rw [List.mem_cons, not_or] at hline
      rw [List.cons_append, linesFrom, if_neg (Ne.symm hline.1), ih hline.2,
        List.reverse_cons, List.append_assoc, List.singleton_append]

theorem finished_of_head? {read : List Char} (hread : read.head? ≠ some '\r') :
    finished read = read.reverse := by
  unfold finished
  split
  next line => exact (hread rfl).elim
  next => rfl

theorem lines_of_hasLines {text : List Char} {parts : List (List Char)}
    (hparts : HasLines text parts) : lines text = parts := by
  unfold lines
  induction hparts with
  | empty => rfl
  | unfinished hne hline =>
      have hread := linesFrom_append hline [] []
      rw [List.append_nil, List.append_nil] at hread
      rw [hread, linesFrom]
      simp [hne]
  | @lineFeed line rest others hline hlast _ ih =>
      rw [linesFrom_append hline, List.append_nil, linesFrom, if_pos rfl, ih,
        finished_of_head? (by rwa [List.head?_reverse]),
        List.reverse_reverse]
  | @carriageReturn line rest others hline _ ih =>
      rw [linesFrom_append hline, List.append_nil, linesFrom,
        if_neg (by decide), linesFrom, if_pos rfl, ih, finished,
        List.reverse_reverse]

theorem hasLines_linesFrom (read : List Char) (hread : '\n' ∉ read)
    (text : List Char) :
    HasLines (read.reverse ++ text) (linesFrom read text) := by
  induction text generalizing read with
  | nil =>
      by_cases hempty : read = []
      · subst hempty
        exact .empty
      · have hsome : read.isEmpty = false := by
          rwa [List.isEmpty_eq_false_iff]
        rw [linesFrom, hsome, if_neg (by decide), List.append_nil]
        exact .unfinished (by simpa using hempty) (by simpa using hread)
  | cons c rest ih =>
      by_cases hc : c = '\n'
      · subst hc
        have hothers := ih [] List.not_mem_nil
        rw [linesFrom, if_pos rfl]
        by_cases hlast : read.head? = some '\r'
        · obtain ⟨line, rfl⟩ := List.head?_eq_some_iff.mp hlast
          rw [List.mem_cons, not_or] at hread
          rw [List.reverse_cons, List.append_assoc, List.singleton_append,
            finished]
          exact .carriageReturn (by simpa using hread.2) hothers
        · rw [finished_of_head? hlast]
          exact .lineFeed (by simpa using hread)
            (by rwa [List.getLast?_reverse]) hothers
      · have hmore := ih (c :: read) (by simp [hread, Ne.symm hc])
        rw [linesFrom, if_neg hc]
        rw [List.reverse_cons, List.append_assoc] at hmore
        exact hmore

theorem lines_eq_iff {text : List Char} {parts : List (List Char)} :
    lines text = parts ↔ HasLines text parts := by
  constructor
  · rintro rfl
    exact hasLines_linesFrom [] List.not_mem_nil text
  · exact lines_of_hasLines

end PciInventory.Blank
