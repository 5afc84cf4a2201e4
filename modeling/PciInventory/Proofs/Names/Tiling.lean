import Mathlib.Data.List.Chain
import PciInventory.Proofs.Names.Lines

/-!
# Tilings

The lines between two positions leave nothing out and overlap nowhere, wherever
the positions lie.  A line that is asked for depends on the position alone, and
the next one starts behind it, so a scan ends after as many lines as the tiling
has.  No other list of lines tiles the range.  A position between two lines
cuts the lines of a file into those before and those behind, so a scan of a
part of the file sees whole lines of it.
-/

namespace PciInventory.Names

/-- The first line of a range: it reaches to the first newline, or to the end
of the range if there is none. -/
def Line.first? (database : Bytes) (position limit : Nat) : Option Line :=
  let edge := min limit database.length
  if position < edge then
    let text := ((database.take edge).drop position).takeWhile (· ≠ newline)
    let stop := position + text.length
    some ⟨text, position, stop, min (stop + 1) edge⟩
  else none

/-- What a scan gives that is asked for its next line after `earlier` others.
It keeps only the position behind the last line it gave. -/
def Line.nth? (database : Bytes) (limit : Nat) :
    (earlier position : Nat) → Option Line
  | 0, position => first? database position limit
  | earlier + 1, position =>
      (first? database position limit).bind fun line =>
        nth? database limit earlier line.next

/-- The lines tile the range from `position` to `limit`, or to the end of the
file if that comes first. -/
structure Tiling (database : Bytes) (position limit : Nat)
    (lines : List Line) : Prop where
  nonempty : position < min limit database.length → lines ≠ []
  first : ∀ line ∈ lines.head?, line.start = position
  linked : lines.IsChain fun line following => line.next = following.start
  last : ∀ line ∈ lines.getLast?, line.next = min limit database.length
  text : ∀ line ∈ lines, line.text = (database.take line.stop).drop line.start
  oneLine : ∀ line ∈ lines, newline ∉ line.text
  advances : ∀ line ∈ lines, line.start < line.next
  /-- Behind the text stands a newline.  Only the last line may lack it. -/
  ending : ∀ line ∈ lines,
    (line.next = line.stop + 1 ∧ database[line.stop]? = some newline) ∨
      (line.next = line.stop ∧ lines.getLast? = some line)

/-- A position at which no line is unfinished: the top of the file, the
position behind a newline, or the end of the file.  Behind the end there is
nothing left to split. -/
def IsLineBoundary (database : Bytes) (position : Nat) : Prop :=
  position = 0 ∨ database[position - 1]? = some newline ∨
    database.length ≤ position

instance (database : Bytes) (position : Nat) :
    Decidable (IsLineBoundary database position) :=
  inferInstanceAs (Decidable (_ ∨ _ ∨ _))

/-! ## One line -/

/-- What makes a line the first one of the range from `position` to `limit`,
which lies within the file. -/
structure IsFirst (database : Bytes) (position limit : Nat)
    (line : Line) : Prop where
  start : line.start = position
  text : line.text = (database.take line.stop).drop line.start
  oneLine : newline ∉ line.text
  advances : line.start < line.next
  fits : line.next ≤ limit
  ending : (line.next = line.stop + 1 ∧
      database[line.stop]? = some newline) ∨
    (line.next = line.stop ∧ line.next = limit)

section Ranges

variable {database : Bytes} {position middle limit : Nat} {line : Line}

theorem range_split (hposition : position ≤ middle)
    (hmiddle : middle ≤ limit) :
    (database.take limit).drop position =
      (database.take middle).drop position ++
        (database.take limit).drop middle := by
  have hleft : ((database.take limit).drop position).take
      (middle - position) = (database.take middle).drop position := by
    rw [List.take_drop, List.take_take]
    congr 2
    omega
  have hright : ((database.take limit).drop position).drop
      (middle - position) = (database.take limit).drop middle := by
    rw [List.drop_drop]
    congr 1
    omega
  rw [← hleft, ← hright, List.take_append_drop]

theorem getElem?_of_range {first rest : Bytes} {byte : UInt8}
    (hrange : (database.take limit).drop position = first ++ byte :: rest) :
    database[position + first.length]? = some byte := by
  have hat : (database.take limit)[position + first.length]? = some byte := by
    rw [← List.getElem?_drop, hrange]
    simp
  rw [List.getElem?_take] at hat
  split at hat
  · exact hat
  · contradiction

/-- Some bytes are an unfinished line, or begin with a whole one. -/
theorem eq_text_or_line (bytes : Bytes) :
    bytes = bytes.takeWhile (· ≠ newline) ∨
      ∃ rest, bytes = bytes.takeWhile (· ≠ newline) ++ newline :: rest := by
  have hparts : bytes.takeWhile (· ≠ newline) ++
      bytes.dropWhile (· ≠ newline) = bytes :=
    List.takeWhile_append_dropWhile
  cases hrest : bytes.dropWhile (· ≠ newline) with
  | nil =>
      rw [hrest, List.append_nil] at hparts
      exact Or.inl hparts.symm
  | cons byte rest =>
      have hbyte := List.head?_dropWhile_not (· ≠ newline) bytes
      rw [hrest] at hbyte
      obtain rfl : byte = newline := by simpa using hbyte
      rw [hrest] at hparts
      exact Or.inr ⟨rest, hparts.symm⟩

theorem isFirst_of_first?
    (hfirst : Line.first? database position limit = some line) :
    IsFirst database position (min limit database.length) line := by
  rw [Line.first?] at hfirst
  have hlength : min limit database.length ≤ database.length :=
    Nat.min_le_right limit database.length
  generalize min limit database.length = stop at hfirst hlength ⊢
  split at hfirst
  next hposition =>
    obtain rfl := Option.some.inj hfirst
    generalize hbytes : (database.take stop).drop position = bytes
    have hsize : bytes.length = stop - position := by
      rw [← hbytes, List.length_drop, List.length_take]
      omega
    have honeLine : newline ∉ bytes.takeWhile (· ≠ newline) :=
      fun hmem => by simpa using List.mem_takeWhile_imp hmem
    have hcut := eq_text_or_line bytes
    generalize bytes.takeWhile (· ≠ newline) = text at honeLine hcut ⊢
    rcases hcut with rfl | ⟨rest, rfl⟩
    · -- The range ends before the line does.
      have hend : position + bytes.length = stop := by omega
      have hnext : min (stop + 1) stop = stop := by omega
      rw [hend, hnext]
      exact ⟨rfl, hbytes.symm, honeLine, hposition, Nat.le_refl stop,
        Or.inr ⟨rfl, rfl⟩⟩
    · rw [List.length_append, List.length_cons] at hsize
      have hnext : min (position + text.length + 1) stop =
          position + text.length + 1 := by omega
      rw [hnext]
      refine ⟨rfl, (range_of_append_left hbytes).symm, honeLine, ?_, ?_,
        Or.inl ⟨rfl, getElem?_of_range hbytes⟩⟩
      · dsimp only
        omega
      · dsimp only
        omega
  next => contradiction

theorem first?_eq_none_iff :
    Line.first? database position limit = none ↔
      min limit database.length ≤ position := by
  rw [Line.first?]
  split
  next hposition =>
    exact iff_of_false (Option.some_ne_none _) (Nat.not_le_of_lt hposition)
  next hposition => exact iff_of_true rfl (Nat.le_of_not_lt hposition)

theorem between_eq_nil (hposition : min limit database.length ≤ position) :
    Line.between database position limit = [] := by
  have hempty : (database.take limit).drop position = [] := by
    rw [List.drop_eq_nil_iff, List.length_take]
    exact hposition
  rw [Line.between, hempty, Line.scan]
  rfl

/-- Behind its first line, the lines of a range are those of what is left. -/
theorem IsFirst.between_eq
    (hline : IsFirst database position (min limit database.length) line) :
    Line.between database position limit =
      line :: Line.between database line.next limit := by
  obtain ⟨hstart, htext, honeLine, hadvances, hfits, hending⟩ := hline
  obtain ⟨text, start, stop, next⟩ := line
  dsimp only at *
  subst hstart
  have hstop : start + text.length = stop := by
    rw [htext, List.length_drop, List.length_take]
    omega
  rcases hending with ⟨hnext, hnewline⟩ | ⟨hnext, hlimit⟩
  · have hrest : (database.take limit).drop stop =
        newline :: (database.take limit).drop next := by
      have hat : (database.take limit)[stop]? = some newline := by
        rw [List.getElem?_take_of_lt (by omega), hnewline]
      rw [List.drop_eq_getElem?_toList_append, hat, hnext]
      rfl
    have hrange : (database.take limit).drop start =
        (database.take stop).drop start ++ (database.take limit).drop stop :=
      range_split (by omega) (by omega)
    rw [← htext, hrest] at hrange
    rw [Line.between, hrange, scan_line honeLine, hstop, ← hnext]
    rfl
  · have hrange : (database.take limit).drop start = text := by
      rw [htext, ← hnext, hlimit, ← List.take_eq_take_min]
    have hne : text ≠ [] := by
      intro hempty
      rw [hempty, List.length_nil] at hstop
      omega
    rw [Line.between, hrange, scan_unfinished honeLine hne, hstop,
      between_eq_nil hlimit.ge, hnext]

/-- The lines of a range, one at a time. -/
theorem between_eq_first? (database : Bytes) (position limit : Nat) :
    Line.between database position limit =
      match Line.first? database position limit with
      | none => []
      | some line => line :: Line.between database line.next limit := by
  cases hfirst : Line.first? database position limit with
  | none => exact between_eq_nil (first?_eq_none_iff.mp hfirst)
  | some line => exact (isFirst_of_first? hfirst).between_eq

theorem isFirst_of_between {rest : List Line}
    (hlines : Line.between database position limit = line :: rest) :
    IsFirst database position (min limit database.length) line ∧
      Line.between database line.next limit = rest := by
  rw [between_eq_first?] at hlines
  cases hfirst : Line.first? database position limit with
  | none =>
      rw [hfirst] at hlines
      contradiction
  | some found =>
      rw [hfirst] at hlines
      obtain ⟨rfl, hrest⟩ := List.cons.inj hlines
      exact ⟨isFirst_of_first? hfirst, hrest⟩

theorem nth?_eq_getElem? (earlier : Nat) :
    Line.nth? database limit earlier position =
      (Line.between database position limit)[earlier]? := by
  induction earlier generalizing position with
  | zero =>
      rw [Line.nth?, between_eq_first?]
      cases Line.first? database position limit <;> rfl
  | succ earlier ih =>
      rw [Line.nth?, between_eq_first?]
      cases Line.first? database position limit with
      | none => rfl
      | some line => exact ih

/-! ## All lines -/

theorem bounds_of_mem_between
    (hmem : line ∈ Line.between database position limit) :
    position ≤ line.start ∧ line.start < line.next ∧ line.next ≤ limit := by
  generalize hlines : Line.between database position limit = lines at hmem
  induction lines generalizing position with
  | nil => contradiction
  | cons head rest ih =>
      obtain ⟨hhead, hrest⟩ := isFirst_of_between hlines
      have hstart := hhead.start
      have hadvances := hhead.advances
      rcases List.mem_cons.mp hmem with rfl | hmem
      · have hfits := hhead.fits
        omega
      · obtain ⟨hlower, hbounds⟩ := ih hrest hmem
        exact ⟨by omega, hbounds⟩

namespace Tiling

variable {lines rest : List Line}

theorem nil (hposition : min limit database.length ≤ position) :
    Tiling database position limit [] := by
  constructor
  case nonempty => exact fun hleft => absurd hposition (Nat.not_le_of_lt hleft)
  all_goals simp

/-- Behind its first line, a tiling tiles what is left. -/
theorem tail (htiling : Tiling database position limit (line :: rest)) :
    Tiling database line.next limit rest where
  nonempty hleft := by
    rintro rfl
    exact Nat.ne_of_lt hleft (htiling.last line rfl)
  first following hmem :=
    ((List.isChain_cons.mp htiling.linked).1 following hmem).symm
  linked := (List.isChain_cons.mp htiling.linked).2
  last last hlast := by
    have hmem := List.mem_of_mem_getLast? hlast
    apply htiling.last
    rwa [List.getLast?_cons_of_ne_nil (List.ne_nil_of_mem hmem)]
  text := (List.forall_mem_cons.mp htiling.text).2
  oneLine := (List.forall_mem_cons.mp htiling.oneLine).2
  advances := (List.forall_mem_cons.mp htiling.advances).2
  ending other hmem := by
    have hending := htiling.ending other (List.mem_cons_of_mem line hmem)
    rwa [List.getLast?_cons_of_ne_nil (List.ne_nil_of_mem hmem)] at hending

theorem fits (htiling : Tiling database position limit (line :: rest)) :
    line.next ≤ min limit database.length := by
  induction rest generalizing position line with
  | nil => exact (htiling.last line rfl).le
  | cons following rest ih =>
      have hnext := htiling.tail.first following rfl
      have hadvances := htiling.tail.advances following List.mem_cons_self
      have hfits := ih htiling.tail
      omega

theorem eq_nil (htiling : Tiling database position limit lines)
    (hposition : min limit database.length ≤ position) : lines = [] := by
  cases lines with
  | nil => rfl
  | cons line rest =>
      have hstart := htiling.first line rfl
      have hadvances := htiling.advances line List.mem_cons_self
      have hfits := htiling.fits
      omega

theorem head (htiling : Tiling database position limit (line :: rest)) :
    IsFirst database position (min limit database.length) line where
  start := htiling.first line rfl
  text := htiling.text line List.mem_cons_self
  oneLine := htiling.oneLine line List.mem_cons_self
  advances := htiling.advances line List.mem_cons_self
  fits := htiling.fits
  ending := by
    rcases htiling.ending line List.mem_cons_self with
      hnewline | ⟨hnext, hlast⟩
    · exact Or.inl hnewline
    · exact Or.inr ⟨hnext, htiling.last line hlast⟩

theorem cons
    (hline : IsFirst database position (min limit database.length) line)
    (hrest : Tiling database line.next limit rest) :
    Tiling database position limit (line :: rest) where
  nonempty _ := List.cons_ne_nil line rest
  first head hhead := Option.some.inj hhead ▸ hline.start
  linked := List.isChain_cons.mpr
    ⟨fun following hmem => (hrest.first following hmem).symm, hrest.linked⟩
  last last hlast := by
    cases rest with
    | nil =>
        obtain rfl : line = last := Option.some.inj hlast
        have hleft := mt hrest.nonempty (not_not.mpr rfl)
        have hfits := hline.fits
        omega
    | cons following rest => exact hrest.last last hlast
  text := List.forall_mem_cons.mpr ⟨hline.text, hrest.text⟩
  oneLine := List.forall_mem_cons.mpr ⟨hline.oneLine, hrest.oneLine⟩
  advances := List.forall_mem_cons.mpr ⟨hline.advances, hrest.advances⟩
  ending := by
    refine List.forall_mem_cons.mpr ⟨?_, fun other hmem => ?_⟩
    · rcases hline.ending with hnewline | ⟨hnext, hlimit⟩
      · exact Or.inl hnewline
      · rw [hrest.eq_nil hlimit.ge]
        exact Or.inr ⟨hnext, rfl⟩
    · rw [List.getLast?_cons_of_ne_nil (List.ne_nil_of_mem hmem)]
      exact hrest.ending other hmem

end Tiling

theorem tiling_between (database : Bytes) (position limit : Nat) :
    Tiling database position limit
      (Line.between database position limit) := by
  generalize hlines : Line.between database position limit = lines
  induction lines generalizing position with
  | nil =>
      rw [between_eq_first?] at hlines
      cases hfirst : Line.first? database position limit with
      | none => exact Tiling.nil (first?_eq_none_iff.mp hfirst)
      | some line =>
          rw [hfirst] at hlines
          contradiction
  | cons line rest ih =>
      obtain ⟨hline, hrest⟩ := isFirst_of_between hlines
      exact Tiling.cons hline (ih line.next hrest)

/-- No two lists of lines tile one range. -/
theorem Tiling.eq_between {lines : List Line}
    (htiling : Tiling database position limit lines) :
    lines = Line.between database position limit := by
  induction lines generalizing position with
  | nil =>
      have hleft := mt htiling.nonempty (not_not.mpr rfl)
      exact (between_eq_nil (Nat.le_of_not_lt hleft)).symm
  | cons line rest ih =>
      rw [htiling.head.between_eq, ← ih htiling.tail]

/-! ## Parts of a file -/

theorem scan_append {first : Bytes}
    (hfirst : ∀ byte ∈ first.getLast?, byte = newline) (start : Nat)
    (second : Bytes) :
    Line.scan start [] (first ++ second) =
      Line.scan start [] first ++
        Line.scan (start + first.length) [] second := by
  induction first using line_induction generalizing start with
  | empty => rfl
  | unfinished text hne htext =>
      have hlast := List.getLast?_eq_some_getLast hne
      have hnewline := hfirst _ hlast
      exact (htext (hnewline ▸ List.getLast_mem hne)).elim
  | line text rest htext ih =>
      have hrest : ∀ byte ∈ rest.getLast?, byte = newline := by
        intro byte hmem
        apply hfirst byte
        rw [List.getLast?_append, List.getLast?_cons, Option.mem_def.mp hmem]
        rfl
      rw [List.append_assoc, List.cons_append, scan_line htext,
        scan_line htext, ih hrest, List.cons_append, List.length_append,
        List.length_cons]
      congr 3
      omega

theorem IsLineBoundary.eq_newline (hmiddle : IsLineBoundary database middle)
    (hinside : middle < database.length) :
    ∀ byte ∈ (database.take middle).getLast?, byte = newline := by
  intro byte hlast
  rw [Option.mem_def, List.getLast?_take] at hlast
  rcases hmiddle with rfl | hnewline | hend
  · contradiction
  · rw [hnewline] at hlast
    split at hlast
    · contradiction
    · exact (Option.some.inj hlast).symm
  · omega

/-- A range can be cut at any line boundary within it. -/
theorem between_append (hposition : position ≤ middle)
    (hlimit : middle ≤ limit) (hmiddle : IsLineBoundary database middle) :
    Line.between database position limit =
      Line.between database position middle ++
        Line.between database middle limit := by
  by_cases hinside : middle < database.length
  · have hlast : ∀ byte ∈ ((database.take middle).drop position).getLast?,
        byte = newline := by
      intro byte hmem
      rw [List.getLast?_drop] at hmem
      split at hmem
      · contradiction
      · exact hmiddle.eq_newline hinside byte hmem
    have hsize : position + ((database.take middle).drop position).length =
        middle := by
      rw [List.length_drop, List.length_take]
      omega
    have hscan := scan_append hlast position
      ((database.take limit).drop middle)
    rw [← range_split hposition hlimit, hsize] at hscan
    exact hscan
  · have hbehind : Line.between database middle limit = [] :=
      between_eq_nil (by omega)
    rw [hbehind, List.append_nil, Line.between, Line.between,
      List.take_of_length_le (by omega), List.take_of_length_le (by omega)]

theorem behind_eq_between (hlimit : database.length ≤ limit) :
    Line.behind database position = Line.between database position limit := by
  rw [Line.behind, Line.between, Line.between, List.take_length,
    List.take_of_length_le hlimit]

/-- No line of the file reaches over a line boundary. -/
theorem IsLineBoundary.separates (hmiddle : IsLineBoundary database middle)
    (hmem : line ∈ Line.behind database 0) :
    line.next ≤ middle ∨ middle ≤ line.start := by
  rw [behind_eq_between (Nat.le_max_right middle database.length),
    between_append (Nat.zero_le middle) (Nat.le_max_left _ _) hmiddle] at hmem
  rcases List.mem_append.mp hmem with hbefore | hbehind
  · exact Or.inl (bounds_of_mem_between hbefore).2.2
  · exact Or.inr (bounds_of_mem_between hbehind).1

theorem filter_between_eq_nil {start stop : Nat}
    (houtside : stop ≤ position ∨ limit ≤ start ∨ limit ≤ position) :
    (Line.between database start stop).filter
      (fun line => position ≤ line.start ∧ line.next ≤ limit) = [] := by
  refine List.filter_eq_nil_iff.mpr fun line hmem => ?_
  have hbounds := bounds_of_mem_between hmem
  rw [decide_eq_true_eq]
  omega

/-- The lines between two line boundaries are the lines of the file that lie
there. -/
theorem between_eq_filter (hposition : IsLineBoundary database position)
    (hlimit : IsLineBoundary database limit) :
    Line.between database position limit =
      (Line.behind database 0).filter fun line =>
        position ≤ line.start ∧ line.next ≤ limit := by
  by_cases hle : position ≤ limit
  · have hwithin : (Line.between database position limit).filter
        (fun line => position ≤ line.start ∧ line.next ≤ limit) =
          Line.between database position limit := by
      refine List.filter_eq_self.mpr fun line hmem => ?_
      have hbounds := bounds_of_mem_between hmem
      exact decide_eq_true ⟨hbounds.1, hbounds.2.2⟩
    rw [behind_eq_between (Nat.le_max_right limit database.length),
      between_append (Nat.zero_le limit) (Nat.le_max_left _ _) hlimit,
      between_append (Nat.zero_le position) hle hposition,
      List.filter_append, List.filter_append, hwithin,
      filter_between_eq_nil (Or.inl (Nat.le_refl position)),
      filter_between_eq_nil (Or.inr (Or.inl (Nat.le_refl limit))),
      List.append_nil, List.nil_append]
  · rw [between_eq_nil (by omega), Line.behind,
      filter_between_eq_nil (by omega)]

theorem IsFirst.boundary_next
    (hline : IsFirst database position (min limit database.length) line)
    (hlimit : IsLineBoundary database limit) :
    IsLineBoundary database line.next := by
  rcases hline.ending with ⟨hnext, hnewline⟩ | ⟨-, hend⟩
  · right
    left
    rwa [hnext, Nat.add_sub_cancel]
  · rcases Nat.le_total limit database.length with hle | hle
    · rwa [hend, Nat.min_eq_left hle]
    · rw [Nat.min_eq_right hle] at hend
      exact Or.inr (Or.inr hend.ge)

/-- The positions that a scan between line boundaries comes upon are line
boundaries again, so that the next scan may begin or end there. -/
theorem boundaries_of_mem_between
    (hposition : IsLineBoundary database position)
    (hlimit : IsLineBoundary database limit)
    (hmem : line ∈ Line.between database position limit) :
    IsLineBoundary database line.start ∧
      IsLineBoundary database line.next := by
  generalize hlines : Line.between database position limit = lines at hmem
  induction lines generalizing position with
  | nil => contradiction
  | cons head rest ih =>
      obtain ⟨hhead, hrest⟩ := isFirst_of_between hlines
      have hnext := hhead.boundary_next hlimit
      rcases List.mem_cons.mp hmem with rfl | hmem
      · exact ⟨hhead.start ▸ hposition, hnext⟩
      · exact ih hnext hrest hmem

end Ranges

/-- Wherever a scan begins and ends, asking for line after line gives finitely
many, and they are the one tiling of the range.  Between two line boundaries
they are the lines of the file there, each other line of the file lies as a
whole before or behind them, and they begin and end at line boundaries. -/
theorem lines_tile_range (database : Bytes) (position limit : Nat) :
    let lines := Line.between database position limit
    (∀ earlier,
      Line.nth? database limit earlier position = lines[earlier]?) ∧
      (∀ others, Tiling database position limit others ↔ others = lines) ∧
      (IsLineBoundary database position → IsLineBoundary database limit →
        lines = (Line.behind database 0).filter (fun line =>
          position ≤ line.start ∧ line.next ≤ limit) ∧
        (∀ line ∈ Line.behind database 0, line.next ≤ position ∨
          (position ≤ line.start ∧ line.next ≤ limit) ∨
            limit ≤ line.start) ∧
        ∀ line ∈ lines, IsLineBoundary database line.start ∧
          IsLineBoundary database line.next) := by
  refine ⟨nth?_eq_getElem?, fun others => ⟨Tiling.eq_between, ?_⟩, ?_⟩
  · rintro rfl
    exact tiling_between database position limit
  · intro hposition hlimit
    refine ⟨between_eq_filter hposition hlimit, fun line hmem => ?_,
      fun line hmem => boundaries_of_mem_between hposition hlimit hmem⟩
    have hstart := hposition.separates hmem
    have hend := hlimit.separates hmem
    omega

/-- A file with an empty line, and without a newline at its end. -/
def tailFile : Bytes :=
  Bytes.ofText "a\n\nbc\nd"

/-- The range begins with the empty line and its limit lies behind the end. -/
theorem lines_tile_range_tailFile :
    IsLineBoundary tailFile 2 ∧ IsLineBoundary tailFile 9 ∧
      Line.between tailFile 2 9 = (Line.behind tailFile 0).filter
        (fun line => 2 ≤ line.start ∧ line.next ≤ 9) ∧
      Line.between tailFile 2 9 =
        [⟨[], 2, 2, 3⟩, ⟨Bytes.ofText "bc", 3, 5, 6⟩,
          ⟨Bytes.ofText "d", 6, 7, 7⟩] ∧
      Line.nth? tailFile 9 3 2 = none := by
  have hposition : IsLineBoundary tailFile 2 := by decide +kernel
  have hlimit : IsLineBoundary tailFile 9 := by decide +kernel
  have hlines : Line.between tailFile 2 9 =
      [⟨[], 2, 2, 3⟩, ⟨Bytes.ofText "bc", 3, 5, 6⟩,
        ⟨Bytes.ofText "d", 6, 7, 7⟩] := by decide +kernel
  obtain ⟨hread, -, hparts⟩ := lines_tile_range tailFile 2 9
  refine ⟨hposition, hlimit, (hparts hposition hlimit).1, hlines, ?_⟩
  rw [hread, hlines]
  rfl

end PciInventory.Names
