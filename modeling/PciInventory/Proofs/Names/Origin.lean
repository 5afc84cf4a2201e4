import PciInventory.Proofs.Names.Answers
import PciInventory.Proofs.Names.Blocks

/-!
# Where names come from

A name that is shown stands in the file, on the first line with the id that the
block of the entry above it has.  Whatever the bytes of the file are, no lookup
reads past the end of that block, and none skips a line within it.  All of this
is said about the lines alone, without positions and without memory.
-/

namespace PciInventory.Names

/-! ## Names and blanks -/

/-- The name is what is left of the bytes when the blanks in front of it and
the whitespace behind it are cut off. -/
structure TrimsTo (rest : Bytes) (name : String) : Prop where
  parts : ∃ front back, rest = front ++ (Bytes.ofText name ++ back) ∧
    (∀ byte ∈ front, byte ∈ [space, tab]) ∧
    ∀ byte ∈ back, byte ∈ [space, tab, newline, 0x0c, carriageReturn]
  startsVisibly : ∀ byte ∈ (Bytes.ofText name).head?, byte ∉ [space, tab]
  endsVisibly : ∀ byte ∈ (Bytes.ofText name).getLast?,
    byte ∉ [space, tab, newline, 0x0c, carriageReturn]

theorem isTrailing_iff {byte : UInt8} :
    isTrailing byte = true ↔
      byte ∈ [space, tab, newline, 0x0c, carriageReturn] := by
  simp [isTrailing, or_assoc]

/-- Blanks that are cut off in front of a name. -/
def isLeading (byte : UInt8) : Bool :=
  byte = space || byte = tab

theorem isLeading_iff {byte : UInt8} :
    isLeading byte = true ↔ byte ∈ [space, tab] := by
  simp [isLeading]

theorem nameIn_eq (rest : Bytes) :
    nameIn rest =
      (Utf8.decode? (trimEnd (rest.dropWhile isLeading))).getD "" :=
  rfl

theorem ofText_eq_nil_iff {name : String} :
    Bytes.ofText name = [] ↔ name = "" := by
  constructor
  · intro hempty
    have hdecoded := Utf8.decode?_eq_some_iff.mpr hempty.symm
    have hnothing : Utf8.decode? [] = some "" := by decide +kernel
    exact Option.some.inj (hdecoded.symm.trans hnothing)
  · intro hname
    rw [hname]
    decide +kernel

theorem trimEnd_append {bytes back : Bytes}
    (hback : ∀ byte ∈ back, isTrailing byte = true)
    (hend : ∀ byte ∈ bytes.getLast?, isTrailing byte = false) :
    trimEnd (bytes ++ back) = bytes := by
  have hreverse : ∀ byte ∈ back.reverse, isTrailing byte = true :=
    fun byte hmem => hback byte (List.mem_reverse.mp hmem)
  have hhead : ∀ byte ∈ bytes.reverse.head?, isTrailing byte = false := by
    rwa [List.head?_reverse]
  rw [trimEnd, List.reverse_append, List.dropWhile_append_of_pos hreverse,
    dropWhile_eq_self hhead, List.reverse_reverse]

/-- Cutting off what is behind a name leaves the name, and behind it only
whitespace was cut. -/
theorem exists_eq_trimEnd_append (bytes : Bytes) :
    ∃ back, bytes = trimEnd bytes ++ back ∧
      (∀ byte ∈ back, isTrailing byte = true) ∧
      ∀ byte ∈ (trimEnd bytes).getLast?, isTrailing byte = false := by
  refine ⟨(bytes.reverse.takeWhile isTrailing).reverse, ?_, ?_, ?_⟩
  · rw [trimEnd, ← List.reverse_append, List.takeWhile_append_dropWhile,
      List.reverse_reverse]
  · intro byte hmem
    exact List.mem_takeWhile_imp (List.mem_reverse.mp hmem)
  · intro byte hlast
    have hhead := List.head?_dropWhile_not isTrailing bytes.reverse
    rw [trimEnd, List.getLast?_reverse, Option.mem_def] at hlast
    rwa [hlast] at hhead

/-- A name that is not empty is read exactly where it stands between blanks. -/
theorem nameIn_eq_iff {rest : Bytes} {name : String} (hname : name ≠ "") :
    nameIn rest = name ↔ TrimsTo rest name := by
  have hnonempty : Bytes.ofText name ≠ [] :=
    mt ofText_eq_nil_iff.mp hname
  rw [nameIn_eq]
  constructor
  · intro hread
    cases hdecode : Utf8.decode? (trimEnd (rest.dropWhile isLeading)) with
    | none =>
        rw [hdecode] at hread
        exact (hname hread.symm).elim
    | some text =>
        obtain rfl : text = name := by rwa [hdecode] at hread
        have htrimmed := Utf8.decode?_eq_some_iff.mp hdecode
        obtain ⟨back, hback, hblank, hend⟩ :=
          exists_eq_trimEnd_append (rest.dropWhile isLeading)
        rw [htrimmed] at hback hend
        refine ⟨⟨rest.takeWhile isLeading, back, ?_, ?_, ?_⟩, ?_, ?_⟩
        · rw [← hback, List.takeWhile_append_dropWhile]
        · exact fun byte hmem => isLeading_iff.mp (List.mem_takeWhile_imp hmem)
        · exact fun byte hmem => isTrailing_iff.mp (hblank byte hmem)
        · intro byte hhead
          have hfirst := List.head?_dropWhile_not isLeading rest
          rw [hback, List.head?_append_of_ne_nil _ hnonempty, hhead] at hfirst
          rw [← isLeading_iff, hfirst]
          exact Bool.false_ne_true
        · intro byte hlast
          rw [← isTrailing_iff, hend byte hlast]
          exact Bool.false_ne_true
  · rintro ⟨⟨front, back, hparts, hfront, hback⟩, hstart, hend⟩
    have hvisible : ∀ byte ∈ (Bytes.ofText name ++ back).head?,
        isLeading byte = false := by
      intro byte hhead
      rw [List.head?_append_of_ne_nil _ hnonempty] at hhead
      rw [← Bool.not_eq_true, isLeading_iff]
      exact hstart byte hhead
    have htrimmed : trimEnd (Bytes.ofText name ++ back) =
        Bytes.ofText name := by
      apply trimEnd_append
      · exact fun byte hmem => isTrailing_iff.mpr (hback byte hmem)
      · intro byte hlast
        rw [← Bool.not_eq_true, isTrailing_iff]
        exact hend byte hlast
    rw [hparts, List.dropWhile_append_of_pos fun byte hmem =>
        isLeading_iff.mpr (hfront byte hmem),
      dropWhile_eq_self hvisible, htrimmed,
      Utf8.decode?_eq_some_iff.mpr rfl]
    rfl

/-! ## Blocks -/

/-- An id may end before these bytes: at the end of the line or at a
separator. -/
def EndsId (rest : Bytes) : Prop :=
  ∀ byte ∈ rest.head?, byte ∈ [space, tab, carriageReturn]

namespace Key

/-- Whether the line is the one of an entry with this key.  The ids of a
subsystem are not read to their end. -/
def Opens (key : Key) (line : Bytes) : Prop :=
  match key with
  | subsystem _ => key.lead <+: line
  | _ => ∃ rest, line = key.lead ++ rest ∧ EndsId rest

/-- Whether the line may stand in front of the entry within its block. -/
def Passes (key : Key) (line : Bytes) : Prop :=
  match key with
  | vendor _ => True
  | device _ => ∀ byte ∈ line.head?, byte ∈ [tab, hash]
  | subsystem _ => [tab, tab] <+: line
  | deviceClass _ => True
  | subclass _ => ¬Bytes.ofText "C " <+: line
  | interface _ =>
      ¬Bytes.ofText "C " <+: line ∧ ([tab] <+: line → [tab, tab] <+: line)

/-- The line is the first one with this key, and nothing between the start of
`lines` and it ends the block. -/
structure FirstIn (key : Key) (lines before : List Bytes) (line : Bytes)
    (below : List Bytes) : Prop where
  split : lines = before ++ line :: below
  opens : key.Opens line
  first : ∀ other ∈ before, ¬key.Opens other
  inBlock : ∀ other ∈ before, key.Passes other

end Key

/-- The line of the entry with this key and the lines below it, found below the
entries of `outer`, the last of which is the outermost. -/
def Locates (lines : List Bytes) :
    Key → List Key → Bytes → List Bytes → Prop
  | key, [], line, below => ∃ before, key.FirstIn lines before line below
  | key, above :: outer, line, below =>
      ∃ top nested, Locates lines above outer top nested ∧
        ∃ before, key.FirstIn nested before line below

/-- A name is shown exactly if it stands on the line of the entry. -/
def Shows (lines : List Bytes) (key : Key) (outer : List Key)
    (shown : String) : Prop :=
  ∀ name, name ≠ "" → (shown = name ↔
    ∃ rest below, Locates lines key outer (key.lead ++ rest) below ∧
      TrimsTo rest name)

/-- The lines from the last one on that starts with `C 00`. -/
def classTexts (lines : List Bytes) : List Bytes :=
  fromLast (List.isPrefixOf (Bytes.ofText "C 00")) lines

/-- The answer to a query says what stands in these lines. -/
def AnswersFrom (lines : List Bytes) : Query → Answer → Prop
  | .vendor vendor, .name shown => Shows lines (.vendor vendor) [] shown
  | .device vendor device, .name shown =>
      Shows lines (.device device) [.vendor vendor] shown
  | .subsystem vendor device subsystemVendor subsystemDevice,
      .name shown =>
      Shows lines (.subsystem (subsystemVendor, subsystemDevice))
        [.device device, .vendor vendor] shown
  | .deviceClass code, .classNames names =>
      let base := Query.classKey code
      let sub := Query.subclassKey code
      Shows (classTexts lines) base [] names.base ∧
        Shows (classTexts lines) sub [base] names.sub ∧
        Shows (classTexts lines) (Query.interfaceKey code) [sub, base]
          names.interface
  | _, _ => False

/-! ## Lines and their texts -/

theorem endsId_iff {rest : Bytes} :
    Line.endsId rest = true ↔ EndsId rest := by
  cases rest with
  | nil => simp [Line.endsId, EndsId]
  | cons byte rest => simp [Line.endsId, EndsId, or_assoc]

theorem isSubclassLevel_iff {line : Line} :
    isSubclassLevel line = true ↔
      [tab] <+: line.text ∧ ¬[tab, tab] <+: line.text := by
  rw [isSubclassLevel, Bool.and_eq_true, Bool.not_eq_true',
    ← Bool.not_eq_true, Line.startsWith_iff, Line.startsWith_iff]

namespace Key

variable {key : Key} {line : Line}

theorem opens_iff : key.opens line = true ↔ key.Opens line.text := by
  cases key with
  | subsystem ids => exact Line.startsWith_iff
  | _ => simp [opens, Line.hasId_iff, endsId_iff, Opens]

theorem passes_iff : key.passes line = true ↔ key.Passes line.text := by
  cases key with
  | vendor id => simp [passes, Passes]
  | deviceClass id => simp [passes, Passes]
  | device id =>
      rw [passes, Passes, inVendorBlock]
      cases line.text <;> simp
  | subsystem ids => exact Line.startsWith_iff
  | subclass id =>
      rw [passes, Passes, Bool.not_eq_true', ← Bool.not_eq_true,
        Line.startsWith_iff, classMark]
  | interface id =>
      rw [passes, Passes, Bool.and_eq_true, Bool.not_eq_true',
        Bool.not_eq_true', ← Bool.not_eq_true, ← Bool.not_eq_true,
        isSubclassLevel_iff, Line.startsWith_iff, and_comm, not_and, not_not]
      rfl

theorem seek_cons_of_opens {lines : List Line}
    (hopens : key.Opens line.text) :
    key.seek (line :: lines) = some (line, lines) := by
  rw [seek, if_pos (opens_iff.mpr hopens)]

theorem seek_cons_of_passes {lines : List Line}
    (hopens : ¬key.Opens line.text) (hpasses : key.Passes line.text) :
    key.seek (line :: lines) = key.seek lines := by
  rw [seek, if_neg (mt opens_iff.mp hopens),
    if_pos (passes_iff.mpr hpasses)]

theorem seek_cons_of_not_passes {lines : List Line}
    (hopens : ¬key.Opens line.text) (hpasses : ¬key.Passes line.text) :
    key.seek (line :: lines) = none := by
  rw [seek, if_neg (mt opens_iff.mp hopens),
    if_neg (mt passes_iff.mp hpasses)]

theorem FirstIn.cons {lines before below : List Bytes} {line first : Bytes}
    (hfirst : key.FirstIn lines before line below)
    (hopens : ¬key.Opens first) (hpasses : key.Passes first) :
    key.FirstIn (first :: lines) (first :: before) line below where
  split := by rw [hfirst.split, List.cons_append]
  opens := hfirst.opens
  first := List.forall_mem_cons.mpr ⟨hopens, hfirst.first⟩
  inBlock := List.forall_mem_cons.mpr ⟨hpasses, hfirst.inBlock⟩

theorem firstIn_iff {lines : List Line} {before below : List Bytes}
    {line : Bytes} :
    key.FirstIn (lines.map Line.text) before line below ↔
      ∃ front found rest, lines = front ++ found :: rest ∧
        key.seek lines = some (found, rest) ∧
        front.map Line.text = before ∧ found.text = line ∧
        rest.map Line.text = below := by
  constructor
  · rintro ⟨hsplit, hopens, hfirst, hblock⟩
    obtain ⟨front, tail, rfl, rfl, htail⟩ := List.map_eq_append_iff.mp hsplit
    obtain ⟨found, rest, rfl, rfl, rfl⟩ := List.map_eq_cons_iff.mp htail
    refine ⟨front, found, rest, rfl, ?_, rfl, rfl, rfl⟩
    refine seek_eq_some_iff.mpr ⟨front, rfl, opens_iff.mpr hopens, ?_⟩
    intro other hother
    have htext : other.text ∈ front.map Line.text :=
      List.mem_map_of_mem hother
    refine ⟨passes_iff.mpr (hblock _ htext), ?_⟩
    rw [← Bool.not_eq_true, opens_iff]
    exact hfirst _ htext
  · rintro ⟨front, found, rest, hlines, hseek, hbefore, hline, hbelow⟩
    obtain ⟨same, hsame, hopens, hothers⟩ := seek_eq_some_iff.mp hseek
    obtain rfl := List.append_cancel_right (hlines.symm.trans hsame)
    subst hbefore hline hbelow
    refine ⟨by rw [hlines, List.map_append, List.map_cons],
      opens_iff.mp hopens, ?_, ?_⟩
    · intro text htext
      obtain ⟨other, hother, rfl⟩ := List.mem_map.mp htext
      rw [← opens_iff, (hothers other hother).2]
      exact Bool.false_ne_true
    · intro text htext
      obtain ⟨other, hother, rfl⟩ := List.mem_map.mp htext
      exact passes_iff.mp (hothers other hother).1

theorem exists_firstIn_iff {lines : List Line} {line : Bytes}
    {below : List Bytes} :
    (∃ before, key.FirstIn (lines.map Line.text) before line below) ↔
      ∃ found rest, key.seek lines = some (found, rest) ∧
        found.text = line ∧ rest.map Line.text = below := by
  simp only [firstIn_iff]
  constructor
  · rintro ⟨_, _, found, rest, _, hseek, _, hline, hbelow⟩
    exact ⟨found, rest, hseek, hline, hbelow⟩
  · rintro ⟨found, rest, hseek, hline, hbelow⟩
    obtain ⟨front, hlines, -⟩ := seek_eq_some_iff.mp hseek
    exact ⟨_, front, found, rest, hlines, hseek, rfl, hline, hbelow⟩

end Key

/-- The chains of searches find the lines that the keys locate. -/
theorem locates_iff {lines : List Line} {key : Key} {outer : List Key}
    {line : Bytes} {below : List Bytes} :
    Locates (lines.map Line.text) key outer line below ↔
      ∃ found rest, entryAt lines key outer = some (found, rest) ∧
        found.text = line ∧ rest.map Line.text = below := by
  induction outer generalizing key line below with
  | nil => exact Key.exists_firstIn_iff
  | cons above outer ih =>
      rw [Locates, entryAt, nestedLines_cons]
      constructor
      · rintro ⟨top, nested, habove, hfirst⟩
        obtain ⟨upper, lower, hentry, -, rfl⟩ := ih.mp habove
        rw [hentry]
        exact Key.exists_firstIn_iff.mp hfirst
      · rintro ⟨found, rest, hfound, htexts⟩
        obtain ⟨nested, hnested, hseek⟩ := Option.bind_eq_some_iff.mp hfound
        obtain ⟨⟨upper, lower⟩, hentry, rfl⟩ :=
          Option.map_eq_some_iff.mp hnested
        exact ⟨_, _, ih.mpr ⟨upper, lower, hentry, rfl, rfl⟩,
          Key.exists_firstIn_iff.mpr ⟨found, rest, hseek, htexts⟩⟩

theorem exists_text_of_entryAt {lines below : List Line} {key : Key}
    {outer : List Key} {line : Line}
    (hentry : entryAt lines key outer = some (line, below)) :
    ∃ rest, line.text = key.lead ++ rest ∧
      nameAt lines key outer = nameIn rest := by
  obtain ⟨nested, -, hseek⟩ := Option.bind_eq_some_iff.mp hentry
  obtain ⟨_, _, hopens, -⟩ := Key.seek_eq_some_iff.mp hseek
  obtain ⟨rest, htext⟩ := Key.lead_prefix_of_opens hopens
  refine ⟨rest, htext.symm, ?_⟩
  rw [nameAt, hentry, Option.map_some, Option.getD_some, Line.nameAfter,
    ← htext, List.drop_left]

theorem shows_nameAt (lines : List Line) (key : Key) (outer : List Key) :
    Shows (lines.map Line.text) key outer (nameAt lines key outer) := by
  intro name hname
  constructor
  · intro hshown
    cases hentry : entryAt lines key outer with
    | none =>
        rw [nameAt, hentry] at hshown
        exact (hname hshown.symm).elim
    | some found =>
        obtain ⟨rest, htext, hread⟩ := exists_text_of_entryAt hentry
        exact ⟨rest, _, locates_iff.mpr ⟨found.1, found.2, hentry, htext, rfl⟩,
          (nameIn_eq_iff hname).mp (hread.symm.trans hshown)⟩
  · rintro ⟨rest, below, hlocates, htrims⟩
    obtain ⟨found, lower, hentry, htext, -⟩ := locates_iff.mp hlocates
    obtain ⟨same, hsame, hread⟩ := exists_text_of_entryAt hentry
    obtain rfl := List.append_cancel_left (htext.symm.trans hsame)
    rw [hread, nameIn_eq_iff hname]
    exact htrims

theorem map_fromLast {α β : Type} (f : α → β) (p : β → Bool)
    (elements : List α) :
    fromLast p (elements.map f) =
      (fromLast (fun element => p (f element)) elements).map f := by
  induction elements with
  | nil => rfl
  | cons first rest ih =>
      rw [List.map_cons, fromLast, fromLast, ih]
      cases fromLast (fun element => p (f element)) rest with
      | nil =>
          rw [List.map_nil]
          by_cases hfirst : p (f first) = true
          · simp [hfirst]
          · simp [hfirst]
      | cons line lines => rfl

theorem classTexts_map (lines : List Line) :
    classTexts (lines.map Line.text) = (classLines lines).map Line.text :=
  map_fromLast Line.text _ lines

/-- Without any memory, the searches give what stands in the lines. -/
theorem answersFrom_searched (database : Bytes) (query : Query) :
    AnswersFrom (textLines database) query (searched database query) := by
  rw [searched_eq_answerIn, ← map_text_behind]
  cases query with
  | vendor vendor => exact shows_nameAt _ _ _
  | device vendor device => exact shows_nameAt _ _ _
  | subsystem vendor device subsystemVendor subsystemDevice =>
      exact shows_nameAt _ _ _
  | deviceClass code =>
      rw [answerIn, AnswersFrom, classTexts_map]
      exact ⟨shows_nameAt _ _ _, shows_nameAt _ _ _, shows_nameAt _ _ _⟩

/-- Whatever the file holds and whatever was asked before, an answer shows what
stands on the first line with the id in the block of the entry above it, and it
is empty if its prerequisites were not asked for. -/
theorem answers_from_blocks (database : Bytes) (earlier : List Query)
    (query : Query) (later : List Query) :
    ∃ answer,
      ((Resolver.ofDatabase database).askAll
        (earlier ++ query :: later)).1[earlier.length]? = some answer ∧
      (query.prerequisites.Sublist earlier →
        AnswersFrom (textLines database) query answer) ∧
      (¬query.prerequisites.Sublist earlier → answer = .name "") := by
  rw [getElem?_askAll]
  refine ⟨_, rfl, ?_, ?_⟩
  · intro hasked
    rw [if_pos hasked]
    exact answersFrom_searched database query
  · intro hnever
    rw [if_neg hnever]

end PciInventory.Names
