import Mathlib.Data.List.Forall2
import PciInventory.Proofs.Names.Origin

/-!
# Line endings

A carriage return in front of a newline ends an id just as the end of the line
does, and it is cut off a name.  So it makes no difference whether lines end
with it, but for one thing: the empty lines among the devices of a vendor are
not empty any more, and the block of the vendor ends at the first of them.
-/

namespace PciInventory.Names

/-- The same file with a carriage return in front of each newline. -/
def withReturns (database : Bytes) : Bytes :=
  database.flatMap fun byte =>
    if byte = newline then [carriageReturn, newline] else [byte]

/-- A line of the one file and the same line of the other.  Only the last line
can be without a line ending, and it is not empty then. -/
structure Twin (line other : Bytes) : Prop where
  clean : carriageReturn ∉ line
  same : other = line ++ [carriageReturn] ∨ line ≠ [] ∧ other = line

theorem withReturns_append (first second : Bytes) :
    withReturns (first ++ second) =
      withReturns first ++ withReturns second :=
  List.flatMap_append

theorem withReturns_of_notMem {text : Bytes} (htext : newline ∉ text) :
    withReturns text = text := by
  induction text with
  | nil => rfl
  | cons byte text ih =>
      rw [List.mem_cons, not_or] at htext
      rw [withReturns, List.flatMap_cons, if_neg (Ne.symm htext.1)]
      exact congrArg (byte :: ·) (ih htext.2)

theorem textLines_withReturns {database : Bytes}
    (hclean : carriageReturn ∉ database) :
    List.Forall₂ Twin (textLines database)
      (textLines (withReturns database)) := by
  induction database using line_induction with
  | empty => exact List.Forall₂.nil
  | unfinished text hne htext =>
      rw [withReturns_of_notMem htext, textLines_unfinished htext hne]
      exact List.Forall₂.cons ⟨hclean, Or.inr ⟨hne, rfl⟩⟩ List.Forall₂.nil
  | line text rest htext ih =>
      have hreturned : withReturns (text ++ newline :: rest) =
          (text ++ [carriageReturn]) ++ newline :: withReturns rest := by
        rw [withReturns_append, withReturns_of_notMem htext,
          List.append_assoc]
        rfl
      have hother : newline ∉ text ++ [carriageReturn] := by
        rw [List.mem_append, not_or]
        exact ⟨htext, by decide⟩
      rw [List.mem_append, List.mem_cons, not_or, not_or] at hclean
      rw [hreturned, textLines_line htext, textLines_line hother]
      exact List.Forall₂.cons ⟨hclean.1, Or.inl rfl⟩ (ih hclean.2.2)

/-! ## One line -/

theorem return_notMem_lead (key : Key) : carriageReturn ∉ key.lead := by
  intro hmem
  rcases Key.mem_lead hmem with hsign | hdigit
  · revert hsign
    decide
  · exact hdigit.not_mem_signs (by decide)

theorem nameIn_return (rest : Bytes) :
    nameIn (rest ++ [carriageReturn]) = nameIn rest := by
  have hcut : trimEnd (rest.dropWhile isLeading ++ [carriageReturn]) =
      trimEnd (rest.dropWhile isLeading) := by
    rw [trimEnd, List.reverse_append]
    rfl
  rw [nameIn_eq, nameIn_eq, ← hcut, List.dropWhile_append]
  split
  next hempty => rw [List.isEmpty_iff.mp hempty, List.nil_append]; rfl
  next => rfl

theorem endsId_return {rest : Bytes} :
    EndsId (rest ++ [carriageReturn]) ↔ EndsId rest := by
  cases rest with
  | nil => simp [EndsId]
  | cons byte rest => exact Iff.rfl

namespace Twin

variable {line other lead rest : Bytes} {key : Key}

theorem prefix_iff (htwin : Twin line other)
    (hlead : carriageReturn ∉ lead) : lead <+: other ↔ lead <+: line := by
  rcases htwin.same with rfl | ⟨-, rfl⟩
  · rw [List.prefix_concat_iff]
    constructor
    · intro hstarts
      rcases hstarts with hwhole | hstarts
      · rw [hwhole] at hlead
        exact (hlead (List.mem_append_right _ List.mem_cons_self)).elim
      · exact hstarts
    · exact Or.inr
  · exact Iff.rfl

/-- Behind the ids the lines differ in the carriage return at most. -/
theorem behind (htwin : Twin line other) (hline : line = key.lead ++ rest) :
    ∃ last, other = key.lead ++ last ∧
      (last = rest ++ [carriageReturn] ∨ last = rest) := by
  rcases htwin.same with rfl | ⟨-, rfl⟩
  · exact ⟨_, by rw [hline, List.append_assoc], Or.inl rfl⟩
  · exact ⟨rest, hline, Or.inr rfl⟩

theorem exists_endsId_iff (htwin : Twin line other) :
    (∃ rest, other = key.lead ++ rest ∧ EndsId rest) ↔
      ∃ rest, line = key.lead ++ rest ∧ EndsId rest := by
  constructor
  · rintro ⟨last, hother, hends⟩
    obtain ⟨rest, hline⟩ := (htwin.prefix_iff (return_notMem_lead key)).mp
      ⟨last, hother.symm⟩
    obtain ⟨same, hsame, hrest⟩ := htwin.behind hline.symm
    obtain rfl := List.append_cancel_left (hother.symm.trans hsame)
    refine ⟨rest, hline.symm, ?_⟩
    rcases hrest with rfl | rfl
    · exact endsId_return.mp hends
    · exact hends
  · rintro ⟨rest, hline, hends⟩
    obtain ⟨last, hother, rfl | rfl⟩ := htwin.behind hline
    · exact ⟨_, hother, endsId_return.mpr hends⟩
    · exact ⟨_, hother, hends⟩

theorem opens_iff (htwin : Twin line other) :
    key.Opens other ↔ key.Opens line := by
  cases key with
  | subsystem ids => exact htwin.prefix_iff (return_notMem_lead _)
  | _ => exact htwin.exists_endsId_iff

theorem passes_iff (htwin : Twin line other)
    (hgap : line = [] → ∀ id, key ≠ .device id) :
    key.Passes other ↔ key.Passes line := by
  cases key with
  | vendor id => exact Iff.rfl
  | deviceClass id => exact Iff.rfl
  | device id =>
      have hne : line ≠ [] := fun hempty => hgap hempty id rfl
      have hhead : other.head? = line.head? := by
        rcases htwin.same with rfl | ⟨-, rfl⟩
        · exact List.head?_append_of_ne_nil _ hne
        · rfl
      rw [Key.Passes, Key.Passes, hhead]
  | subsystem ids => exact htwin.prefix_iff (by decide)
  | subclass id => exact not_congr (htwin.prefix_iff (by decide))
  | interface id =>
      rw [Key.Passes, Key.Passes, htwin.prefix_iff (by decide),
        htwin.prefix_iff (by decide), htwin.prefix_iff (by decide)]

end Twin

/-- A line of a vendor's block that is empty but for its carriage return. -/
theorem Twin.not_passes_of_nil {line other : Bytes}
    (htwin : Twin line other) (hline : line = []) (device : UInt16) :
    ¬(Key.device device).Passes other := by
  rcases htwin.same with rfl | ⟨hne, -⟩
  · intro hpasses
    have hreturn := hpasses carriageReturn (by rw [hline]; rfl)
    exact absurd hreturn (by decide)
  · exact (hne hline).elim

/-! ## Searches -/

def SameLine (line other : Line) : Prop :=
  Twin line.text other.text

def SameFound (found other : Line × List Line) : Prop :=
  SameLine found.1 other.1 ∧ List.Forall₂ SameLine found.2 other.2

/-- An empty line of the block stands in front of the line of the device. -/
def Gap (device : UInt16) (lines : List Bytes) : Prop :=
  ∃ before line below,
    (Key.device device).FirstIn lines before line below ∧ [] ∈ before

theorem passes_nil (device : UInt16) : (Key.device device).Passes [] := by
  simp [Key.Passes]

theorem Gap.cons {device : UInt16} {lines : List Bytes} {first : Bytes}
    (hgap : Gap device lines) (hopens : ¬(Key.device device).Opens first)
    (hpasses : (Key.device device).Passes first) :
    Gap device (first :: lines) := by
  obtain ⟨before, line, below, hfirst, hempty⟩ := hgap
  exact ⟨first :: before, line, below, hfirst.cons hopens hpasses,
    List.mem_cons_of_mem _ hempty⟩

theorem gap_of_nil {device : UInt16} {lines : List Line}
    (hopens : ¬(Key.device device).Opens [])
    (hseek : (Key.device device).seek lines ≠ none) :
    Gap device ([] :: lines.map Line.text) := by
  obtain ⟨⟨found, rest⟩, hfound⟩ := Option.ne_none_iff_exists'.mp hseek
  obtain ⟨before, hfirst⟩ := Key.exists_firstIn_iff.mpr
    ⟨found, rest, hfound, rfl, rfl⟩
  exact ⟨[] :: before, found.text, rest.map Line.text,
    hfirst.cons hopens (passes_nil device), List.mem_cons_self⟩

/-- Without a gap a search finds the same line in both files. -/
theorem seek_sameFound {key : Key} {lines others : List Line}
    (hlines : List.Forall₂ SameLine lines others)
    (hgap : ∀ device, key = .device device →
      ¬Gap device (lines.map Line.text)) :
    Option.Rel SameFound (key.seek lines) (key.seek others) := by
  induction hlines with
  | nil => exact Option.Rel.none
  | @cons line other lines others hsame hrest ih =>
      by_cases hopens : key.Opens line.text
      · rw [Key.seek_cons_of_opens hopens,
          Key.seek_cons_of_opens (hsame.opens_iff.mpr hopens)]
        exact Option.Rel.some ⟨hsame, hrest⟩
      have hcloses := mt hsame.opens_iff.mp hopens
      by_cases hempty : line.text = [] ∧ ∃ device, key = .device device
      · -- Here the other search gives up, so this one must not go on to find
        -- the device.
        obtain ⟨hempty, device, rfl⟩ := hempty
        have hreturn := hsame.not_passes_of_nil hempty device
        have hnogap := hgap device rfl
        rw [List.map_cons, hempty] at hnogap
        have hpasses := passes_nil device
        rw [← hempty] at hpasses
        have hnone : (Key.device device).seek lines = none := by
          by_contra hfound
          exact hnogap (gap_of_nil (hempty ▸ hopens) hfound)
        rw [Key.seek_cons_of_passes hopens hpasses, hnone,
          Key.seek_cons_of_not_passes hcloses hreturn]
        exact Option.Rel.none
      · have hsamePass : key.Passes other.text ↔ key.Passes line.text :=
          hsame.passes_iff fun hline device hkey =>
            hempty ⟨hline, device, hkey⟩
        by_cases hpasses : key.Passes line.text
        · rw [Key.seek_cons_of_passes hopens hpasses,
            Key.seek_cons_of_passes hcloses (hsamePass.mpr hpasses)]
          apply ih
          rintro device rfl hrest
          exact hgap device rfl (hrest.cons hopens hpasses)
        · rw [Key.seek_cons_of_not_passes hopens hpasses,
            Key.seek_cons_of_not_passes hcloses (mt hsamePass.mp hpasses)]
          exact Option.Rel.none

/-- Behind a gap the other search does not find the device. -/
theorem seek_eq_none_of_gap {device : UInt16} {lines others : List Line}
    (hlines : List.Forall₂ SameLine lines others)
    (hgap : Gap device (lines.map Line.text)) :
    (Key.device device).seek others = none := by
  obtain ⟨before, line, below, hfirst, hempty⟩ := hgap
  induction hlines generalizing before with
  | nil =>
      exact (List.append_ne_nil_of_right_ne_nil before
        (List.cons_ne_nil line below) hfirst.split.symm).elim
  | @cons first other lines others hsame hrest ih =>
      cases before with
      | nil => exact (List.not_mem_nil hempty).elim
      | cons text before =>
          obtain ⟨rfl, hsplit⟩ := List.cons.inj hfirst.split
          obtain ⟨hcloses, hclosed⟩ := List.forall_mem_cons.mp hfirst.first
          obtain ⟨hpasses, hpassed⟩ := List.forall_mem_cons.mp hfirst.inBlock
          have hotherCloses := mt hsame.opens_iff.mp hcloses
          by_cases hline : first.text = []
          · exact Key.seek_cons_of_not_passes hotherCloses
              (hsame.not_passes_of_nil hline device)
          · have hotherPasses := (hsame.passes_iff fun hnil =>
              (hline hnil).elim).mpr hpasses
            have hbefore : [] ∈ before :=
              List.mem_of_ne_of_mem (Ne.symm hline) hempty
            rw [Key.seek_cons_of_passes hotherCloses hotherPasses]
            exact ih before ⟨hsplit, hfirst.opens, hclosed, hpassed⟩ hbefore

/-! ## Chains of searches -/

theorem eq_none_or_eq_some_of_rel {α β : Type} {r : α → β → Prop}
    {first : Option α} {second : Option β}
    (hrel : Option.Rel r first second) :
    (first = none ∧ second = none) ∨
      ∃ x y, first = some x ∧ second = some y ∧ r x y := by
  cases hrel with
  | none => exact Or.inl ⟨rfl, rfl⟩
  | some hvalues => exact Or.inr ⟨_, _, rfl, rfl, hvalues⟩

variable {lines others : List Line} {key : Key} {outer : List Key}

theorem nestedLines_same
    (hentry : Option.Rel SameFound (entryAt lines key outer)
      (entryAt others key outer)) :
    Option.Rel (List.Forall₂ SameLine) (nestedLines lines (key :: outer))
      (nestedLines others (key :: outer)) := by
  rw [nestedLines_cons, nestedLines_cons]
  rcases eq_none_or_eq_some_of_rel hentry with
    ⟨hfirst, hsecond⟩ | ⟨found, other, hfirst, hsecond, hsame⟩
  · rw [hfirst, hsecond]
    exact Option.Rel.none
  · rw [hfirst, hsecond]
    exact Option.Rel.some hsame.2

theorem entryAt_same
    (hnested : Option.Rel (List.Forall₂ SameLine) (nestedLines lines outer)
      (nestedLines others outer))
    (hgap : ∀ nested, nestedLines lines outer = some nested →
      ∀ device, key = .device device → ¬Gap device (nested.map Line.text)) :
    Option.Rel SameFound (entryAt lines key outer)
      (entryAt others key outer) := by
  rw [entryAt, entryAt]
  rcases eq_none_or_eq_some_of_rel hnested with
    ⟨hfirst, hsecond⟩ | ⟨nested, same, hfirst, hsecond, hsame⟩
  · rw [hfirst, hsecond]
    exact Option.Rel.none
  · rw [hfirst, hsecond]
    exact seek_sameFound hsame (hgap nested hfirst)

theorem nameAt_same
    (hentry : Option.Rel SameFound (entryAt lines key outer)
      (entryAt others key outer)) :
    nameAt others key outer = nameAt lines key outer := by
  rcases eq_none_or_eq_some_of_rel hentry with
    ⟨hfirst, hsecond⟩ | ⟨found, other, hfirst, hsecond, hsame⟩
  · rw [nameAt, nameAt, hfirst, hsecond]
  · obtain ⟨rest, htext, hread⟩ := exists_text_of_entryAt hfirst
    obtain ⟨last, hlast, hreadOther⟩ := exists_text_of_entryAt hsecond
    obtain ⟨same, hother, hrest⟩ := hsame.1.behind htext
    obtain rfl := List.append_cancel_left (hlast.symm.trans hother)
    rw [hread, hreadOther]
    rcases hrest with rfl | rfl
    · exact nameIn_return rest
    · rfl

theorem fromLast_same {p : Bytes → Bool}
    (hsame : ∀ line other, Twin line other → p other = p line)
    (hlines : List.Forall₂ SameLine lines others) :
    List.Forall₂ SameLine (fromLast (fun line => p line.text) lines)
      (fromLast (fun line => p line.text) others) := by
  induction hlines with
  | nil => exact List.Forall₂.nil
  | @cons line other lines others hfirst hrest ih =>
      rw [fromLast, fromLast, hsame _ _ hfirst]
      cases hkept : fromLast (fun line => p line.text) lines with
      | nil =>
          rw [hkept, List.forall₂_nil_left_iff] at ih
          rw [ih]
          by_cases hline : p line.text = true
          · rw [if_pos hline, if_pos hline]
            exact List.Forall₂.cons hfirst hrest
          · rw [if_neg hline, if_neg hline]
            exact List.Forall₂.nil
      | cons last below =>
          rw [hkept] at ih
          obtain ⟨same, rest, hlast, hbelow, hothers⟩ :=
            List.forall₂_cons_left_iff.mp ih
          rw [hothers]
          exact List.Forall₂.cons hlast hbelow

theorem classLines_same (hlines : List.Forall₂ SameLine lines others) :
    List.Forall₂ SameLine (classLines lines) (classLines others) := by
  refine fromLast_same (fun line other htwin => ?_) hlines
  rw [Bool.eq_iff_iff, List.isPrefixOf_iff_prefix,
    List.isPrefixOf_iff_prefix]
  exact htwin.prefix_iff (by decide)

theorem locates_of_nestedLines {nested : List Line}
    (hnested : nestedLines lines (key :: outer) = some nested) :
    ∃ top, Locates (lines.map Line.text) key outer top
      (nested.map Line.text) := by
  rw [nestedLines_cons] at hnested
  obtain ⟨⟨found, below⟩, hentry, rfl⟩ := Option.map_eq_some_iff.mp hnested
  exact ⟨_, locates_iff.mpr ⟨found, below, hentry, rfl, rfl⟩⟩

/-! ## Queries -/

/-- The line of the device stands in the block of its vendor, but behind an
empty line. -/
def DeviceInterrupted (lines : List Bytes) (vendor device : UInt16) : Prop :=
  ∃ top nested, Locates lines (.vendor vendor) [] top nested ∧
    Gap device nested

def Interrupted (lines : List Bytes) : Query → Prop
  | .vendor _ => False
  | .device vendor device => DeviceInterrupted lines vendor device
  | .subsystem vendor device _ _ => DeviceInterrupted lines vendor device
  | .deviceClass _ => False

theorem entryAt_same_nil (hlines : List.Forall₂ SameLine lines others)
    (key : Key) (hkey : ∀ device, key ≠ .device device) :
    Option.Rel SameFound (entryAt lines key []) (entryAt others key []) :=
  entryAt_same (Option.Rel.some hlines) fun _ _ device hdevice =>
    (hkey device hdevice).elim

theorem entryAt_same_cons {above : Key}
    (habove : Option.Rel SameFound (entryAt lines above outer)
      (entryAt others above outer)) (key : Key)
    (hkey : ∀ device, key ≠ .device device) :
    Option.Rel SameFound (entryAt lines key (above :: outer))
      (entryAt others key (above :: outer)) :=
  entryAt_same (nestedLines_same habove) fun _ _ device hdevice =>
    (hkey device hdevice).elim

theorem device_same {vendor device : UInt16}
    (hlines : List.Forall₂ SameLine lines others)
    (hgap : ¬DeviceInterrupted (lines.map Line.text) vendor device) :
    Option.Rel SameFound (entryAt lines (.device device) [.vendor vendor])
      (entryAt others (.device device) [.vendor vendor]) := by
  have hvendor := entryAt_same_nil hlines (.vendor vendor) (by simp)
  refine entryAt_same (nestedLines_same hvendor) ?_
  rintro nested hnested same ⟨⟩ hfirst
  obtain ⟨top, hlocates⟩ := locates_of_nestedLines hnested
  exact hgap ⟨top, _, hlocates, hfirst⟩

theorem device_eq_none {vendor device : UInt16}
    (hlines : List.Forall₂ SameLine lines others)
    (hinterrupted :
      DeviceInterrupted (lines.map Line.text) vendor device) :
    entryAt others (.device device) [.vendor vendor] = none := by
  obtain ⟨top, nested, hlocates, hgap⟩ := hinterrupted
  obtain ⟨found, below, hentry, -, rfl⟩ := locates_iff.mp hlocates
  have hvendor := entryAt_same_nil hlines (.vendor vendor) (by simp)
  rcases eq_none_or_eq_some_of_rel hvendor with
    ⟨hnone, -⟩ | ⟨same, other, hsame, hother, hfound⟩
  · rw [hentry] at hnone
    contradiction
  · obtain rfl : (found, below) = same :=
      Option.some.inj (hentry.symm.trans hsame)
    rw [entryAt, nestedLines_cons, hother]
    exact seek_eq_none_of_gap hfound.2 hgap

/-- The two files give the same answer, unless the query is interrupted. -/
theorem answerIn_same (hlines : List.Forall₂ SameLine lines others)
    {query : Query} (hquery : ¬Interrupted (lines.map Line.text) query) :
    answerIn others query = answerIn lines query := by
  cases query with
  | vendor vendor =>
      have hentry := entryAt_same_nil hlines (.vendor vendor) (by simp)
      exact congrArg Answer.name (nameAt_same hentry)
  | device vendor device =>
      exact congrArg Answer.name (nameAt_same (device_same hlines hquery))
  | subsystem vendor device subsystemVendor subsystemDevice =>
      have hentry := entryAt_same_cons (device_same hlines hquery)
        (.subsystem (subsystemVendor, subsystemDevice)) (by simp)
      exact congrArg Answer.name (nameAt_same hentry)
  | deviceClass code =>
      have hbase := entryAt_same_nil (classLines_same hlines)
        (Query.classKey code) (by simp [Query.classKey])
      have hsub := entryAt_same_cons hbase
        (Query.subclassKey code) (by simp [Query.subclassKey])
      have hinterface := entryAt_same_cons hsub
        (Query.interfaceKey code) (by simp [Query.interfaceKey])
      rw [answerIn, answerIn, nameAt_same hbase, nameAt_same hsub,
        nameAt_same hinterface]

theorem answerIn_eq_empty (hlines : List.Forall₂ SameLine lines others)
    {query : Query} (hquery : Interrupted (lines.map Line.text) query) :
    answerIn others query = .name "" := by
  cases query with
  | vendor vendor => exact hquery.elim
  | device vendor device =>
      rw [answerIn, nameAt, device_eq_none hlines hquery]
      rfl
  | subsystem vendor device subsystemVendor subsystemDevice =>
      rw [answerIn, nameAt_cons, device_eq_none hlines hquery]
      rfl
  | deviceClass code => exact hquery.elim

theorem not_interrupted {texts : List Bytes} (hfull : [] ∉ texts)
    (query : Query) : ¬Interrupted texts query := by
  have hdevice (vendor device : UInt16) :
      ¬DeviceInterrupted texts vendor device := by
    rintro ⟨top, nested, ⟨front, hvendor⟩, before, line, below, hfirst,
      hempty⟩
    apply hfull
    rw [hvendor.split, hfirst.split]
    simp [hempty]
  cases query with
  | vendor vendor => exact id
  | device vendor device => exact hdevice vendor device
  | subsystem vendor device subsystemVendor subsystemDevice =>
      exact hdevice vendor device
  | deviceClass code => exact id

/-- A carriage return in front of each newline changes no answer of any run,
except that a device is not found behind an empty line of its vendor's
block. -/
theorem answer_withReturns {database : Bytes}
    (hclean : carriageReturn ∉ database) (earlier : List Query)
    (query : Query) (later : List Query) :
    (¬Interrupted (textLines database) query →
      ((Resolver.ofDatabase (withReturns database)).askAll
          (earlier ++ query :: later)).1[earlier.length]? =
        ((Resolver.ofDatabase database).askAll
          (earlier ++ query :: later)).1[earlier.length]?) ∧
    (Interrupted (textLines database) query →
      ((Resolver.ofDatabase (withReturns database)).askAll
        (earlier ++ query :: later)).1[earlier.length]? =
          some (.name "")) := by
  have htwins := textLines_withReturns hclean
  rw [← map_text_behind, ← map_text_behind, List.forall₂_map_left_iff,
    List.forall₂_map_right_iff] at htwins
  rw [getElem?_askAll, getElem?_askAll, searched_eq_answerIn,
    searched_eq_answerIn, ← map_text_behind]
  constructor
  · intro hquery
    rw [answerIn_same htwins hquery]
  · intro hquery
    rw [answerIn_eq_empty htwins hquery, ite_self]

def shortFile : Bytes :=
  Bytes.ofText "8086  Intel Corporation\n\t1237  440FX\n"

/-- No query is interrupted in a file without empty lines, so both files name
the device. -/
theorem answer_withReturns_shortFile :
    carriageReturn ∉ shortFile ∧
      ((Resolver.ofDatabase (withReturns shortFile)).askAll
        [.vendor 0x8086, .device 0x8086 0x1237]).1[1]? =
          some (.name "440FX") := by
  have hclean : carriageReturn ∉ shortFile := by decide +kernel
  have hfull : [] ∉ textLines shortFile := by decide +kernel
  have hsame := (answer_withReturns hclean [.vendor 0x8086]
    (.device 0x8086 0x1237) []).1 (not_interrupted hfull _)
  refine ⟨hclean, hsame.trans ?_⟩
  decide +kernel

def gappedFile : Bytes :=
  Bytes.ofText "8086  Intel Corporation\n\n\t1237  440FX\n"

/-- An empty line between a vendor and its device. -/
theorem answers_differ_gappedFile :
    let queries : List Query := [.vendor 0x8086, .device 0x8086 0x1237]
    carriageReturn ∉ gappedFile ∧
      ((Resolver.ofDatabase gappedFile).askAll queries).1 =
        [.name "Intel Corporation", .name "440FX"] ∧
      ((Resolver.ofDatabase (withReturns gappedFile)).askAll queries).1 =
        [.name "Intel Corporation", .name ""] := by
  decide +kernel

end PciInventory.Names
