import PciInventory.Proofs.Names.Lines
import PciInventory.Proofs.Names.Selection

/-!
# Ranges of a printed file

Every search runs over the lines between two positions.  Where such a range
holds the lines of certain entries, it can be cut at any one of them, and both
parts hold the lines of the entries before and behind.  A search that tells
entries apart therefore finds the first entry it accepts, and the range behind
that line is known again.
-/

namespace PciInventory.Names

/-! ## Lines and their positions -/

def FileLine.located (position : Nat) (line : FileLine) : Line :=
  let stop := position + line.text.length
  ⟨line.text, position, stop, stop + 1⟩

def locatedLines : (position : Nat) → List FileLine → List Line
  | _, [] => []
  | position, line :: rest =>
      line.located position ::
        locatedLines (line.located position).next rest

theorem FileLine.newline_not_mem_text (line : FileLine) :
    newline ∉ line.text := by
  cases line with
  | entry listed => exact listed.newline_not_mem_text
  | comment rest oneLine =>
      intro hmem
      rcases List.mem_cons.mp hmem with hhash | hmem
      · exact absurd hhash (by decide)
      · exact oneLine hmem

theorem fileText_cons (line : FileLine) (rest : List FileLine) :
    fileText (line :: rest) = line.text ++ newline :: fileText rest := by
  simp [fileText]

theorem fileText_append (first second : List FileLine) :
    fileText (first ++ second) = fileText first ++ fileText second :=
  List.flatMap_append

theorem scan_fileText (position : Nat) (lines : List FileLine) :
    Line.scan position [] (fileText lines) = locatedLines position lines := by
  induction lines generalizing position with
  | nil => rfl
  | cons line rest ih =>
      rw [fileText_cons, scan_line line.newline_not_mem_text, ih]
      rfl

theorem locatedLines_append (position : Nat)
    (first second : List FileLine) :
    locatedLines position (first ++ second) =
      locatedLines position first ++
        locatedLines (position + (fileText first).length) second := by
  induction first generalizing position with
  | nil => rfl
  | cons line rest ih =>
      have hnext : (line.located position).next + (fileText rest).length =
          position + (fileText (line :: rest)).length := by
        rw [fileText_cons, List.length_append, List.length_cons]
        simp only [FileLine.located]
        omega
      rw [List.cons_append, locatedLines, ih, hnext, locatedLines,
        List.cons_append]

theorem exists_text_of_mem_locatedLines {position : Nat}
    {lines : List FileLine} {line : Line}
    (hmem : line ∈ locatedLines position lines) :
    ∃ printed ∈ lines, line.text = printed.text := by
  induction lines generalizing position with
  | nil => exact (List.not_mem_nil hmem).elim
  | cons printed rest ih =>
      rcases List.mem_cons.mp hmem with rfl | hmem
      · exact ⟨printed, List.mem_cons_self, rfl⟩
      · obtain ⟨other, hother, htext⟩ := ih hmem
        exact ⟨other, List.mem_cons_of_mem _ hother, htext⟩

/-! ## Ranges -/

section Parts

variable {database : Bytes} {position limit : Nat}

theorem range_next {line : FileLine} {rest : List FileLine}
    (hrange :
      (database.take limit).drop position = fileText (line :: rest)) :
    (database.take limit).drop (line.located position).next =
      fileText rest := by
  rw [fileText_cons, List.append_cons] at hrange
  have hnext := range_of_append_right hrange
  rwa [List.length_append, List.length_singleton,
    ← Nat.add_assoc] at hnext

theorem between_of_range {lines : List FileLine}
    (hrange : (database.take limit).drop position = fileText lines) :
    Line.between database position limit = locatedLines position lines := by
  rw [Line.between, hrange, scan_fileText]

end Parts

/-- From `position` to `limit` the file consists of the lines of these entries,
in this order, and of comments where they may stand. -/
def Holds (database : Bytes) (position limit : Nat)
    (entries : List Entry) : Prop :=
  ∃ lines, (database.take limit).drop position = fileText lines ∧
    lines.filterMap FileLine.listed? = entries ∧ Uninterrupted lines

theorem Uninterrupted.of_append_left {first second : List FileLine}
    (hlines : Uninterrupted (first ++ second)) : Uninterrupted first := by
  intro before rest oneLine after hsplit entry hentry
  have hwhole : first ++ second =
      before ++ .comment rest oneLine :: (after ++ second) := by
    rw [hsplit, List.append_assoc, List.cons_append]
  apply hlines before rest oneLine (after ++ second) hwhole entry
  rw [List.filterMap_append, List.head?_append]
  rw [Option.mem_def] at hentry
  rw [hentry]
  rfl

theorem Uninterrupted.of_append_right {first second : List FileLine}
    (hlines : Uninterrupted (first ++ second)) : Uninterrupted second := by
  intro before rest oneLine after hsplit
  apply hlines (first ++ before) rest oneLine after
  rw [hsplit, List.append_assoc]

theorem exists_lines_eq {lines : List FileLine}
    {before after : List Entry} {entry : Entry}
    (hentries :
      lines.filterMap FileLine.listed? = before ++ entry :: after) :
    ∃ front back, lines = front ++ .entry entry :: back ∧
      front.filterMap FileLine.listed? = before ∧
      back.filterMap FileLine.listed? = after := by
  obtain ⟨front, tail, rfl, hfront, htail⟩ :=
    List.filterMap_eq_append_iff.mp hentries
  obtain ⟨comments, printed, back, rfl, hcomments, hprinted, hback⟩ :=
    List.filterMap_eq_cons_iff.mp htail
  have hnone : comments.filterMap FileLine.listed? = [] :=
    List.filterMap_eq_nil_iff.mpr hcomments
  cases printed with
  | entry listed =>
      obtain rfl : listed = entry := Option.some.inj hprinted
      refine ⟨front ++ comments, back, ?_, ?_, hback⟩
      · rw [List.append_assoc]
      · rw [List.filterMap_append, hfront, hnone, List.append_nil]
  | comment rest oneLine => contradiction

namespace Holds

variable {database : Bytes} {position limit : Nat}

/-- Every line is a comment or the line of an entry. -/
theorem text_of_mem {entries : List Entry} {line : Line}
    (hholds : Holds database position limit entries)
    (hmem : line ∈ Line.between database position limit) :
    (∃ rest, line.text = hash :: rest) ∨
      ∃ entry ∈ entries, line.text = entry.text := by
  obtain ⟨lines, hrange, hentries, -⟩ := hholds
  rw [between_of_range hrange] at hmem
  obtain ⟨printed, hprinted, htext⟩ := exists_text_of_mem_locatedLines hmem
  cases printed with
  | entry listed =>
      refine Or.inr ⟨listed, ?_, htext⟩
      rw [← hentries]
      exact List.mem_filterMap.mpr ⟨_, hprinted, rfl⟩
  | comment rest oneLine => exact Or.inl ⟨rest, htext⟩

/-- A range can be cut at any of its entries. -/
theorem split {before after : List Entry} {entry : Entry}
    (hholds : Holds database position limit (before ++ entry :: after)) :
    ∃ line, line.text = entry.text ∧
      Holds database position line.start before ∧
      Holds database line.start limit (entry :: after) ∧
      Holds database line.next limit after ∧
      Line.between database position limit =
        Line.between database position line.start ++
          line :: Line.between database line.next limit := by
  obtain ⟨lines, hrange, hentries, hlines⟩ := hholds
  -- Comments in front of the entry go to the part before it.
  obtain ⟨front, back, rfl, hfront, hback⟩ := exists_lines_eq hentries
  have hwhole := hrange
  rw [fileText_append] at hrange
  have hleft := range_of_append_left hrange
  have hright := range_of_append_right hrange
  have hnext := range_next hright
  have hsecond := hlines.of_append_right
  refine ⟨(FileLine.entry entry).located
      (position + (fileText front).length), rfl,
    ⟨front, hleft, hfront, hlines.of_append_left⟩,
    ⟨.entry entry :: back, hright, ?_, hsecond⟩,
    ⟨back, hnext, hback, ?_⟩, ?_⟩
  · rw [← hback]
    rfl
  · exact uninterrupted_entry_cons.mp hsecond
  · rw [between_of_range hwhole, locatedLines_append,
      ← between_of_range hleft, locatedLines, ← between_of_range hnext]
    rfl

end Holds

/-! ## Searches -/

namespace Holds

variable {database : Bytes} {position limit : Nat}
  {test : Line → Bool} {accepts : Entry → Prop}

theorem not_selected {entries : List Entry} {line : Line}
    (hholds : Holds database position limit entries)
    (htest : Selects test accepts)
    (hentries : ∀ entry ∈ entries, ¬accepts entry)
    (hmem : line ∈ Line.between database position limit) :
    ¬test line = true := by
  rcases hholds.text_of_mem hmem with ⟨rest, htext⟩ | ⟨entry, hentry, htext⟩
  · rw [htest.comment line rest htext]
    exact Bool.false_ne_true
  · exact fun hselected =>
      hentries entry hentry ((htest.entry line entry htext).mp hselected)

theorem find?_eq_none {entries : List Entry}
    (hholds : Holds database position limit entries)
    (htest : Selects test accepts)
    (hentries : ∀ entry ∈ entries, ¬accepts entry) :
    (Line.between database position limit).find? test = none :=
  List.find?_eq_none.mpr fun _ hmem =>
    hholds.not_selected htest hentries hmem

theorem find?_eq_some {before after : List Entry} {entry : Entry}
    (hholds : Holds database position limit (before ++ entry :: after))
    (htest : Selects test accepts)
    (hbefore : ∀ other ∈ before, ¬accepts other) (hentry : accepts entry) :
    ∃ line, (Line.between database position limit).find? test = some line ∧
      line.text = entry.text ∧
      Holds database position line.start before ∧
      Holds database line.next limit after := by
  obtain ⟨line, htext, hleft, -, hnext, hbetween⟩ := hholds.split
  refine ⟨line, ?_, htext, hleft, hnext⟩
  rw [hbetween, List.find?_append, hleft.find?_eq_none htest hbefore,
    List.find?_cons_of_pos ((htest.entry line entry htext).mpr hentry)]
  rfl

theorem filter_eq_nil {entries : List Entry}
    (hholds : Holds database position limit entries)
    (htest : Selects test accepts)
    (hentries : ∀ entry ∈ entries, ¬accepts entry) :
    (Line.between database position limit).filter test = [] :=
  List.filter_eq_nil_iff.mpr fun _ hmem =>
    hholds.not_selected htest hentries hmem

theorem filter_eq_singleton {before after : List Entry} {entry : Entry}
    (hholds : Holds database position limit (before ++ entry :: after))
    (htest : Selects test accepts)
    (hbefore : ∀ other ∈ before, ¬accepts other) (hentry : accepts entry)
    (hafter : ∀ other ∈ after, ¬accepts other) :
    ∃ line, (Line.between database position limit).filter test = [line] ∧
      Holds database line.start limit (entry :: after) := by
  obtain ⟨line, htext, hleft, hright, hnext, hbetween⟩ := hholds.split
  refine ⟨line, ?_, hright⟩
  rw [hbetween, List.filter_append, hleft.filter_eq_nil htest hbefore,
    List.filter_cons_of_pos ((htest.entry line entry htext).mpr hentry),
    hnext.filter_eq_nil htest hafter, List.nil_append]

theorem all_kept {keep : Line → Bool} {leaves : Entry → Prop}
    {entries : List Entry}
    (hholds : Holds database position limit entries)
    (hkeep : Selects (fun line => !keep line) leaves)
    (hstay : ∀ entry ∈ entries, ¬leaves entry) :
    ∀ line ∈ Line.between database position limit, keep line = true := by
  intro line hmem
  simpa using hholds.not_selected hkeep hstay hmem

/-- Like `find?_eq_some`, for a search that stops at the first line that is
not kept. -/
theorem find?_takeWhile_eq_some {keep : Line → Bool}
    {leaves : Entry → Prop} {before after : List Entry} {entry : Entry}
    (hholds : Holds database position limit (before ++ entry :: after))
    (htest : Selects test accepts)
    (hbefore : ∀ other ∈ before, ¬accepts other) (hentry : accepts entry)
    (hkeep : Selects (fun line => !keep line) leaves)
    (hstay : ∀ other ∈ before, ¬leaves other) (hentryStays : ¬leaves entry) :
    ∃ line, ((Line.between database position limit).takeWhile keep).find?
        test = some line ∧
      line.text = entry.text ∧ Holds database line.next limit after := by
  obtain ⟨line, htext, hleft, -, hnext, hbetween⟩ := hholds.split
  have hkept : keep line = true := by
    simpa using mt (hkeep.entry line entry htext).mp hentryStays
  have hfront := hleft.all_kept hkeep hstay
  refine ⟨line, ?_, htext, hnext⟩
  rw [hbetween, List.takeWhile_append_of_pos hfront,
    List.takeWhile_cons_of_pos hkept, List.find?_append,
    hleft.find?_eq_none htest hbefore,
    List.find?_cons_of_pos ((htest.entry line entry htext).mpr hentry)]
  rfl

theorem find?_takeWhile_eq_none {keep : Line → Bool}
    {leaves : Entry → Prop} {own others : List Entry}
    (hholds : Holds database position limit (own ++ others))
    (htest : Selects test accepts) (hown : ∀ entry ∈ own, ¬accepts entry)
    (hkeep : Selects (fun line => !keep line) leaves)
    (hstay : ∀ entry ∈ own, ¬leaves entry)
    (hothers : ∀ entry ∈ others.head?, leaves entry) :
    ((Line.between database position limit).takeWhile keep).find? test =
      none := by
  cases others with
  | nil =>
      rw [List.append_nil] at hholds
      refine List.find?_eq_none.mpr fun line hmem => ?_
      exact hholds.not_selected htest hown
        (List.takeWhile_subset _ hmem)
  | cons entry others =>
      obtain ⟨line, htext, hleft, -, -, hbetween⟩ := hholds.split
      have hleaves := (hkeep.entry line entry htext).mpr (hothers entry rfl)
      have hfront := hleft.all_kept hkeep hstay
      rw [hbetween, List.takeWhile_append_of_pos hfront,
        List.takeWhile_cons_of_neg (by simpa using hleaves),
        List.append_nil]
      exact hleft.find?_eq_none htest hown

/-- The block ends where the first of the other entries is accepted. -/
theorem blockEnd {own others : List Entry}
    (hholds : Holds database position limit (own ++ others))
    (htest : Selects test accepts) (hown : ∀ entry ∈ own, ¬accepts entry)
    (hothers : ∀ entry ∈ others.head?, accepts entry) :
    Holds database position
      (blockEnd (Line.between database position limit) test limit) own := by
  cases others with
  | nil =>
      rw [List.append_nil] at hholds
      rw [Names.blockEnd, hholds.find?_eq_none htest hown]
      exact hholds
  | cons entry others =>
      obtain ⟨line, hfound, -, hleft, -⟩ :=
        hholds.find?_eq_some htest hown (hothers entry rfl)
      rw [Names.blockEnd, hfound]
      exact hleft

end Holds

/-! ## Subsystems -/

/-- No comment stands between subsystems. -/
theorem Uninterrupted.exists_eq_append {lines : List FileLine}
    {subsystems after : List Entry} (hlines : Uninterrupted lines)
    (hentries : lines.filterMap FileLine.listed? = subsystems ++ after)
    (hsubsystems : ∀ entry ∈ subsystems, ∃ ids, entry.key = .subsystem ids) :
    ∃ rest, lines = subsystems.map FileLine.entry ++ rest ∧
      rest.filterMap FileLine.listed? = after := by
  induction subsystems generalizing lines with
  | nil => exact ⟨lines, rfl, hentries⟩
  | cons entry subsystems ih =>
      cases lines with
      | nil => contradiction
      | cons line lines =>
          cases line with
          | entry listed =>
              obtain ⟨rfl, htail⟩ := List.cons.inj hentries
              obtain ⟨rest, rfl, hafter⟩ := ih
                (uninterrupted_entry_cons.mp hlines) htail
                fun other hmem =>
                  hsubsystems other (List.mem_cons_of_mem _ hmem)
              exact ⟨rest, rfl, hafter⟩
          | comment rest oneLine =>
              obtain ⟨ids, hids⟩ := hsubsystems entry List.mem_cons_self
              have hnext := (uninterrupted_comment_cons.mp hlines).1
              have hhead : lines.filterMap FileLine.listed? =
                  entry :: (subsystems ++ after) := hentries
              rw [hhead] at hnext
              exact (hnext entry rfl ids hids).elim

theorem Holds.subsystemBlock {database : Bytes} {position limit : Nat}
    {subsystems after : List Entry}
    (hholds : Holds database position limit (subsystems ++ after))
    (hsubsystems : ∀ entry ∈ subsystems, ∃ ids, entry.key = .subsystem ids)
    (hafter : ∀ entry ∈ after.head?, ¬[tab, tab] <+: entry.key.mark) :
    ∃ stop, (Line.between database position limit).takeWhile
        (Line.startsWith [tab, tab]) = Line.between database position stop ∧
      Holds database position stop subsystems := by
  obtain ⟨lines, hrange, hentries, hlines⟩ := hholds
  obtain ⟨rest, rfl, hrest⟩ := hlines.exists_eq_append hentries hsubsystems
  have hwhole := hrange
  rw [fileText_append] at hrange
  have hleft := range_of_append_left hrange
  have hkept : ∀ line ∈ locatedLines position
      (subsystems.map FileLine.entry),
      line.startsWith [tab, tab] = true := by
    intro line hmem
    obtain ⟨printed, hprinted, htext⟩ := exists_text_of_mem_locatedLines hmem
    obtain ⟨entry, hentry, rfl⟩ := List.mem_map.mp hprinted
    obtain ⟨ids, hids⟩ := hsubsystems entry hentry
    refine (selects_twoTabs.entry line entry htext).mpr ?_
    rw [hids]
    exact List.prefix_rfl
  -- What comes behind begins with a comment or with the entry after these.
  have hstop (start : Nat) : (locatedLines start rest).takeWhile
      (Line.startsWith [tab, tab]) = [] := by
    cases rest with
    | nil => rfl
    | cons line more =>
        refine List.takeWhile_cons_of_neg ?_
        cases line with
        | entry listed =>
            have hnot := hafter listed (by rw [← hrest]; rfl)
            exact mt (selects_twoTabs.entry _ listed rfl).mp hnot
        | comment text oneLine =>
            rw [selects_twoTabs.comment _ text rfl]
            exact Bool.false_ne_true
  refine ⟨position + (fileText (subsystems.map FileLine.entry)).length,
    ?_, subsystems.map FileLine.entry, hleft, ?_, hlines.of_append_left⟩
  · rw [between_of_range hwhole, between_of_range hleft,
      locatedLines_append, List.takeWhile_append_of_pos hkept, hstop,
      List.append_nil]
  · rw [List.filterMap_map]
    exact List.filterMap_some

end PciInventory.Names
