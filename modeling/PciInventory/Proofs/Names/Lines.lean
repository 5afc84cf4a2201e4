import Mathlib.Data.List.TakeWhile
import PciInventory.Names.Search

/-!
# Lines of any file

However a file ends and whatever it holds, its lines tile it.  A range of a
file can therefore be cut at every line it has: the range before that line and
the range behind it hold the lines before and behind.  This is what lets a
search hand a position on to the next one.
-/

namespace PciInventory.Names

/-- The lines of a file without their newlines.  Bytes behind the last newline
are a line too. -/
def textLines : Bytes → List Bytes
  | [] => []
  | byte :: rest =>
      if byte = newline then
        [] :: textLines rest
      else
        match textLines rest with
        | [] => [[byte]]
        | line :: others => (byte :: line) :: others

/-- A file is empty, or an unfinished line, or a line before another file. -/
@[elab_as_elim]
theorem line_induction {motive : Bytes → Prop} (empty : motive [])
    (unfinished : ∀ text, text ≠ [] → newline ∉ text → motive text)
    (line : ∀ text rest, newline ∉ text → motive rest →
      motive (text ++ newline :: rest))
    (bytes : Bytes) : motive bytes := by
  induction hlength : bytes.length using Nat.strongRecOn
    generalizing bytes with
  | _ length ih =>
      by_cases hnewline : newline ∈ bytes
      · obtain ⟨text, rest, rfl, htext⟩ :=
          List.eq_append_cons_of_mem hnewline
        refine line text rest htext (ih rest.length ?_ rest rfl)
        rw [← hlength, List.length_append, List.length_cons]
        omega
      · by_cases hempty : bytes = []
        · rw [hempty]
          exact empty
        · exact unfinished bytes hempty hnewline

theorem textLines_line {text : Bytes} (htext : newline ∉ text)
    (rest : Bytes) :
    textLines (text ++ newline :: rest) = text :: textLines rest := by
  induction text with
  | nil => simp [textLines]
  | cons byte text ih =>
      rw [List.mem_cons, not_or] at htext
      obtain ⟨hbyte, htail⟩ := htext
      rw [List.cons_append, textLines, if_neg (Ne.symm hbyte), ih htail]

theorem textLines_unfinished {text : Bytes} (htext : newline ∉ text)
    (hne : text ≠ []) : textLines text = [text] := by
  induction text with
  | nil => exact (hne rfl).elim
  | cons byte text ih =>
      rw [List.mem_cons, not_or] at htext
      obtain ⟨hbyte, htail⟩ := htext
      rw [textLines, if_neg (Ne.symm hbyte)]
      cases text with
      | nil => rfl
      | cons next text => rw [ih htail (List.cons_ne_nil _ _)]

/-! ## Scanning -/

theorem scan_text {text : Bytes} (htext : newline ∉ text) (start : Nat)
    (read rest : Bytes) :
    Line.scan start read (text ++ rest) =
      Line.scan start (text.reverse ++ read) rest := by
  induction text generalizing read with
  | nil => rfl
  | cons byte text ih =>
      rw [List.mem_cons, not_or] at htext
      obtain ⟨hbyte, htail⟩ := htext
      rw [List.cons_append, Line.scan, if_neg (Ne.symm hbyte), ih htail]
      simp

theorem scan_line {text : Bytes} (htext : newline ∉ text) (start : Nat)
    (rest : Bytes) :
    Line.scan start [] (text ++ newline :: rest) =
      ⟨text, start, start + text.length, start + text.length + 1⟩ ::
        Line.scan (start + text.length + 1) [] rest := by
  rw [scan_text htext, Line.scan]
  simp

theorem scan_unfinished {text : Bytes} (htext : newline ∉ text)
    (hne : text ≠ []) (start : Nat) :
    Line.scan start [] text =
      [⟨text, start, start + text.length, start + text.length⟩] := by
  have hscan := scan_text htext start [] []
  rw [List.append_nil, List.append_nil] at hscan
  rw [hscan, Line.scan]
  simp [hne]

theorem map_text_scan (start : Nat) (bytes : Bytes) :
    (Line.scan start [] bytes).map Line.text = textLines bytes := by
  induction bytes using line_induction generalizing start with
  | empty => rfl
  | unfinished text hne htext =>
      rw [scan_unfinished htext hne, textLines_unfinished htext hne]
      rfl
  | line text rest htext ih =>
      rw [scan_line htext, textLines_line htext, List.map_cons, ih]

theorem map_text_behind (database : Bytes) :
    (Line.behind database 0).map Line.text = textLines database := by
  rw [Line.behind, Line.between, List.take_length, List.drop_zero,
    map_text_scan]

/-- The first line of some bytes takes up `own`, its newline included.  If more
bytes follow, that line does not depend on them. -/
theorem scan_eq_cons {start : Nat} {bytes : Bytes} {line : Line}
    {after : List Line} (hscan : Line.scan start [] bytes = line :: after) :
    ∃ own rest, bytes = own ++ rest ∧ line.start = start ∧
      line.next = start + own.length ∧
      Line.scan line.next [] rest = after ∧
      (rest ≠ [] → ∀ other, Line.scan start [] (own ++ other) =
        line :: Line.scan line.next [] other) := by
  induction bytes using line_induction with
  | empty => contradiction
  | unfinished text hne htext =>
      rw [scan_unfinished htext hne] at hscan
      obtain ⟨rfl, rfl⟩ := List.cons.inj hscan
      exact ⟨text, [], (List.append_nil _).symm, rfl, rfl, rfl,
        fun hrest => (hrest rfl).elim⟩
  | line text rest htext =>
      rw [scan_line htext] at hscan
      obtain ⟨rfl, rfl⟩ := List.cons.inj hscan
      refine ⟨text ++ [newline], rest, by simp, rfl, by simp [Nat.add_assoc],
        rfl, fun _ other => ?_⟩
      rw [List.append_assoc, List.singleton_append, scan_line htext]

theorem scan_cut {start : Nat} {bytes : Bytes} {before after : List Line}
    {line : Line}
    (hscan : Line.scan start [] bytes = before ++ line :: after) :
    ∃ front own rest, bytes = front ++ (own ++ rest) ∧
      line.start = start + front.length ∧
      line.next = line.start + own.length ∧
      Line.scan start [] front = before ∧
      Line.scan line.start [] (own ++ rest) = line :: after ∧
      Line.scan line.next [] rest = after := by
  induction before generalizing start bytes with
  | nil =>
      obtain ⟨own, rest, rfl, hstart, hnext, hrest, -⟩ := scan_eq_cons hscan
      rw [← hstart] at hscan hnext
      exact ⟨[], own, rest, rfl, hstart, hnext, rfl, hscan, hrest⟩
  | cons first before ih =>
      obtain ⟨head, tail, rfl, hstart, hnext, htail, hhead⟩ :=
        scan_eq_cons hscan
      have hne : tail ≠ [] := by
        intro hempty
        rw [hempty] at htail
        exact List.append_ne_nil_of_right_ne_nil before
          (List.cons_ne_nil line after) htail.symm
      obtain ⟨front, own, rest, rfl, hlineStart, hlineNext, hbefore, hline,
        hafter⟩ := ih htail
      refine ⟨head ++ front, own, rest, by rw [List.append_assoc], ?_,
        hlineNext, ?_, hline, hafter⟩
      · rw [hlineStart, hnext, List.length_append, Nat.add_assoc]
      · rw [hhead hne, hbefore]

/-! ## Ranges -/

section Parts

variable {database first second : Bytes} {position limit : Nat}

theorem range_of_append_left
    (hrange : (database.take limit).drop position = first ++ second) :
    (database.take (position + first.length)).drop position = first := by
  have hlength := congrArg List.length hrange
  rw [List.length_drop, List.length_take, List.length_append] at hlength
  have hle : first.length ≤ limit - position := by omega
  rw [List.drop_take] at hrange ⊢
  have htake := congrArg (List.take first.length) hrange
  rw [List.take_take, Nat.min_eq_left hle, List.take_left] at htake
  rw [Nat.add_sub_cancel_left, htake]

theorem range_of_append_right
    (hrange : (database.take limit).drop position = first ++ second) :
    (database.take limit).drop (position + first.length) = second := by
  rw [← List.drop_drop, hrange, List.drop_left]

/-- A range can be cut at any of its lines. -/
theorem between_cut {before after : List Line} {line : Line}
    (hlines :
      Line.between database position limit = before ++ line :: after) :
    Line.between database position line.start = before ∧
      Line.between database line.start limit = line :: after ∧
      Line.between database line.next limit = after := by
  obtain ⟨front, own, rest, hrange, hstart, hnext, hbefore, hline, hafter⟩ :=
    scan_cut hlines
  have hbehind := range_of_append_right hrange
  refine ⟨?_, ?_, ?_⟩
  · rw [Line.between, hstart, range_of_append_left hrange, hbefore]
  · rw [Line.between, ← hline, hstart, hbehind]
  · rw [← hstart] at hbehind
    rw [Line.between, ← hafter, hnext, range_of_append_right hbehind]

/-- The lines up to the end of a block are those before its first line that
belongs to the next. -/
theorem between_blockEnd (isNext : Line → Bool) :
    Line.between database position
        (blockEnd (Line.between database position limit) isNext limit) =
      (Line.between database position limit).takeWhile
        fun line => !isNext line := by
  unfold blockEnd
  cases hfound : (Line.between database position limit).find? isNext with
  | none =>
      have hnone := List.find?_eq_none.mp hfound
      refine (List.takeWhile_eq_self_iff.mpr fun line hmem => ?_).symm
      simpa using hnone line hmem
  | some line =>
      obtain ⟨hnext, before, after, hlines, hbefore⟩ :=
        List.find?_eq_some_iff_append.mp hfound
      rw [(between_cut hlines).1, hlines,
        List.takeWhile_append_of_pos hbefore,
        List.takeWhile_cons_of_neg (by simp [hnext]), List.append_nil]

end Parts

end PciInventory.Names
