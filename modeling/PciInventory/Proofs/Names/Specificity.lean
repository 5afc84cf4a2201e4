import PciInventory.Proofs.Names.Origin

/-!
# Names of nested classes

A subclass is searched below the line of its class, and a programming interface
below that of its subclass, so a more specific name is shown only where the less
specific entry is in the file.  That entry is found by its id alone: its line
need not have a name.
-/

namespace PciInventory.Names

/-- The line of the entry is there, and no name can be read on it. -/
def Nameless (lines : List Bytes) (key : Key) (outer : List Key) : Prop :=
  ∃ rest below, Locates lines key outer (key.lead ++ rest) below ∧
    ∀ name, name ≠ "" → ¬TrimsTo rest name

theorem nameless_iff {lines : List Line} {key : Key} {outer : List Key} :
    Nameless (lines.map Line.text) key outer ↔
      entryAt lines key outer ≠ none ∧ nameAt lines key outer = "" := by
  constructor
  · rintro ⟨rest, below, hlocates, hnameless⟩
    obtain ⟨found, lower, hentry, htext, -⟩ := locates_iff.mp hlocates
    obtain ⟨same, hsame, hread⟩ := exists_text_of_entryAt hentry
    obtain rfl := List.append_cancel_left (htext.symm.trans hsame)
    refine ⟨by simp [hentry], ?_⟩
    by_contra hname
    exact hnameless _ hname ((nameIn_eq_iff hname).mp hread.symm)
  · rintro ⟨hentry, hempty⟩
    obtain ⟨⟨found, lower⟩, hentry⟩ := Option.ne_none_iff_exists'.mp hentry
    obtain ⟨rest, htext, hread⟩ := exists_text_of_entryAt hentry
    refine ⟨rest, _, locates_iff.mpr ⟨found, lower, hentry, htext, rfl⟩, ?_⟩
    intro name hname htrims
    rw [hempty] at hread
    exact hname (((nameIn_eq_iff hname).mpr htrims).symm.trans hread.symm)

/-- A name is found only below a line that is there. -/
theorem entryAt_ne_none_of_nameAt {lines : List Line} {key above : Key}
    {outer : List Key} (hname : nameAt lines key (above :: outer) ≠ "") :
    entryAt lines above outer ≠ none := by
  intro hnone
  rw [nameAt_cons, hnone] at hname
  exact hname rfl

theorem nameAt_eq_empty_iff_nameless {lines : List Line} {key above : Key}
    {outer : List Key} (hname : nameAt lines key (above :: outer) ≠ "") :
    nameAt lines above outer = "" ↔
      Nameless (lines.map Line.text) above outer := by
  rw [nameless_iff]
  constructor
  · exact fun hempty => ⟨entryAt_ne_none_of_nameAt hname, hempty⟩
  · exact And.right

/-- Whatever the file holds and whatever was asked before, a more specific name
comes with the less specific one, unless the line of the latter has no name. -/
theorem less_specific_names (database : Bytes) (earlier : List Query)
    (code : Nat) (later : List Query) :
    let classes := classTexts (textLines database)
    let base := Query.classKey code
    let sub := Query.subclassKey code
    ∃ names,
      ((Resolver.ofDatabase database).askAll (earlier ++
        .deviceClass code :: later)).1[earlier.length]? =
          some (.classNames names) ∧
      (names.sub ≠ "" →
        (names.base = "" ↔ Nameless classes base [])) ∧
      (names.interface ≠ "" →
        (names.sub = "" ↔ Nameless classes sub [base])) := by
  intro classes base sub
  have hasked : (Query.deviceClass code).prerequisites.Sublist earlier :=
    List.nil_sublist earlier
  have hclasses : classes =
      (classLines (Line.behind database 0)).map Line.text := by
    rw [← classTexts_map, map_text_behind]
  rw [getElem?_askAll, if_pos hasked, searched_eq_answerIn, hclasses]
  exact ⟨_, rfl, nameAt_eq_empty_iff_nameless, nameAt_eq_empty_iff_nameless⟩

/-- The line of class 0 has no name, and its subclass and interface do. -/
theorem subclass_shown_without_class :
    ((Resolver.ofDatabase (Bytes.ofText
        "C 00\n\t00  Non-VGA unclassified device\n\t\t00  Any\n")).askAll
          [.deviceClass 0]).1 =
      [.classNames ⟨"", "Non-VGA unclassified device", "Any"⟩] := by
  decide +kernel

end PciInventory.Names
