import PciInventory.Proofs.Names.Leads

/-!
# Which entries a test selects

The searches and the ends of their blocks are tests on single lines.  No test
takes a comment, except that a comment does not end a block either, and on the
line of an entry each test depends on what the entry is about alone.
-/

namespace PciInventory.Names

/-- A test on lines that passes over comments and accepts some entries. -/
structure Selects (test : Line → Bool) (accepts : Entry → Prop) : Prop where
  comment : ∀ line rest, line.text = hash :: rest → test line = false
  entry : ∀ line entry, line.text = entry.text →
    (test line = true ↔ accepts entry)

theorem selects_hasId {key : Key} (hkey : ∀ ids, key ≠ .subsystem ids) :
    Selects (Line.hasId key.lead) fun entry => entry.key = key where
  comment line rest htext := by
    by_contra hselected
    obtain ⟨more, hmore, -⟩ :=
      Line.hasId_iff.mp (Bool.of_not_eq_false hselected)
    exact key.not_lead_prefix_comment rest ⟨more, by rw [← hmore, htext]⟩
  entry line entry htext := Entry.hasId_lead_iff htext hkey

theorem selects_lead {key : Key}
    (hkey : ∀ entry : Entry, key.lead <+: entry.text ↔ entry.key = key) :
    Selects (Line.startsWith key.lead) fun entry => entry.key = key where
  comment line rest htext := by
    by_contra hselected
    have hstarts := Line.startsWith_iff.mp (Bool.of_not_eq_false hselected)
    rw [htext] at hstarts
    exact key.not_lead_prefix_comment rest hstarts
  entry line entry htext := by
    rw [Line.startsWith_iff, htext, hkey]

/-- The ids of a subsystem are not read to the end, but they are longer than
the id of an interface. -/
theorem selects_subsystem (ids : UInt16 × UInt16) :
    Selects (Line.startsWith (Key.subsystem ids).lead)
      fun entry => entry.key = .subsystem ids := by
  apply selects_lead
  intro entry
  by_cases hinterface : ∃ id, entry.key = .interface id
  · obtain ⟨id, hid⟩ := hinterface
    constructor
    · intro ⟨rest, heq⟩
      have hnumber := (Key.mark_number_eq heq).2
      rw [hid, Key.number, Key.number, List.append_assoc] at hnumber
      have hdigits := (append_eq_append_iff_of_runs
        (fun _ hmem => isDigit_of_mem_fixedDigits hmem)
        (fun _ hmem => isDigit_of_mem_fixedDigits hmem)
        (Line.not_isDigit_of_endsId rfl)
        (Line.not_isDigit_of_endsId rfl)).mp hnumber
      exact (wide_ne_narrow hdigits.1).elim
    · intro heq
      rw [hid] at heq
      contradiction
  · refine Entry.lead_prefix_iff fun hmark => ?_
    cases hkey : entry.key with
    | subsystem other => simp [Key.number]
    | interface id => exact (hinterface ⟨id, hkey⟩).elim
    | _ => simp [hkey, Key.mark, class_mark, tab] at hmark

theorem selects_classBlockMark :
    Selects (Line.startsWith classBlockMark)
      fun entry => entry.key = .deviceClass 0 := by
  have hlead : classBlockMark = (Key.deviceClass 0).lead := by decide
  rw [hlead]
  apply selects_lead
  intro entry
  refine Entry.lead_prefix_iff fun hmark => ?_
  cases hkey : entry.key with
  | deviceClass id => simp [Key.number]
  | _ => simp [hkey, Key.mark, class_mark, tab] at hmark

theorem selects_mark {first : UInt8} {rest : Bytes} (hfirst : first ≠ hash)
    (hmark : ∀ byte ∈ first :: rest, ¬IsDigit byte) :
    Selects (Line.startsWith (first :: rest))
      fun entry => first :: rest <+: entry.key.mark where
  comment line more htext := by
    by_contra hselected
    have hstarts := Line.startsWith_iff.mp (Bool.of_not_eq_false hselected)
    rw [htext, List.cons_prefix_cons] at hstarts
    exact hfirst hstarts.1
  entry line entry htext := by
    rw [Line.startsWith_iff, htext, Entry.mark_prefix_iff hmark]

theorem selects_twoTabs :
    Selects (Line.startsWith [tab, tab])
      fun entry => [tab, tab] <+: entry.key.mark :=
  selects_mark (by decide) (by simp [not_isDigit_of_sign])

theorem selects_subclassLevel :
    Selects isSubclassLevel fun entry => entry.key.mark = [tab] where
  comment line rest htext := by
    simp [isSubclassLevel, Line.startsWith, htext, tab, hash]
  entry line entry htext := by
    have hone : Selects (Line.startsWith [tab])
        fun entry => [tab] <+: entry.key.mark :=
      selects_mark (by decide) (by simp [not_isDigit_of_sign])
    rw [isSubclassLevel, Bool.and_eq_true, Bool.not_eq_true',
      ← Bool.not_eq_true, hone.entry line entry htext,
      selects_twoTabs.entry line entry htext]
    cases entry.key <;> simp [Key.mark, class_mark, tab]

theorem selects_classMark :
    Selects (Line.startsWith classMark)
      fun entry => ∃ id, entry.key = .deviceClass id := by
  have hclass : Selects (Line.startsWith [0x43, space])
      fun entry => [0x43, space] <+: entry.key.mark :=
    selects_mark (by decide) (by simp [not_isDigit_of_sign])
  rw [classMark, class_mark]
  refine ⟨hclass.comment, fun line entry htext => ?_⟩
  rw [hclass.entry line entry htext]
  cases entry.key <;> simp [Key.mark, class_mark, tab]

/-- What ends the block of a vendor is neither indented nor a comment. -/
theorem selects_vendorBlockEnd :
    Selects (fun line => !inVendorBlock line)
      fun entry => ¬[tab] <+: entry.key.mark where
  comment line rest htext := by
    simp [inVendorBlock, htext]
  entry line entry htext := by
    obtain ⟨byte, rest, hrest, hdigit⟩ := entry.exists_text_eq
    have hnone := hdigit.not_mem_signs
    rw [inVendorBlock, htext, hrest]
    cases entry.key with
    | vendor id =>
        simp only [List.mem_cons, not_or] at hnone
        simp [Key.mark, hnone]
    | deviceClass id =>
        rw [Key.mark, class_mark]
        simp [tab, hash]
    | _ => simp [Key.mark]

end PciInventory.Names
