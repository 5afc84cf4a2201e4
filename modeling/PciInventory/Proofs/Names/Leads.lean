import Mathlib.Tactic.IntervalCases
import PciInventory.Proofs.Names.Catalogue

/-!
# What a line starts with

A line starts with marks, which are never digits, then with the digits of an
id, and then with a blank.  Both borders can be read off the bytes, so a search
for a mark and an id accepts just the lines of the entry it is meant for.
-/

namespace PciInventory.Names

/-- A run of bytes with a property, followed by none or by one without it, can
be cut off in one way only. -/
theorem append_eq_append_iff_of_runs {p : UInt8 → Prop}
    {run other rest more : Bytes}
    (hrun : ∀ byte ∈ run, p byte) (hother : ∀ byte ∈ other, p byte)
    (hrest : ∀ byte ∈ rest.head?, ¬p byte)
    (hmore : ∀ byte ∈ more.head?, ¬p byte) :
    run ++ rest = other ++ more ↔ run = other ∧ rest = more := by
  constructor
  · intro happend
    induction run generalizing other with
    | nil =>
        cases other with
        | nil => exact ⟨rfl, happend⟩
        | cons byte other =>
            rw [List.nil_append] at happend
            have hnot := hrest byte (by rw [happend]; rfl)
            exact (hnot (hother byte List.mem_cons_self)).elim
    | cons byte run ih =>
        cases other with
        | nil =>
            rw [List.nil_append] at happend
            have hnot := hmore byte (by rw [← happend]; rfl)
            exact (hnot (hrun byte List.mem_cons_self)).elim
        | cons first other =>
            simp only [List.cons_append, List.cons.injEq] at happend
            obtain ⟨rfl, happend⟩ := happend
            have hsplit := ih
              (fun byte hmem => hrun byte (List.mem_cons_of_mem _ hmem))
              (fun byte hmem => hother byte (List.mem_cons_of_mem _ hmem))
              happend
            exact ⟨by rw [hsplit.1], hsplit.2⟩
  · intro ⟨hrun, hrest⟩
    rw [hrun, hrest]

/-! ## Digits -/

def IsDigit (byte : UInt8) : Prop :=
  ∃ digit < 16, byte = digitByte digit

theorem IsDigit.not_mem_signs {byte : UInt8} (hbyte : IsDigit byte) :
    byte ∉ [tab, newline, carriageReturn, space, hash, 0x43] := by
  obtain ⟨digit, hdigit, rfl⟩ := hbyte
  interval_cases digit <;> decide

theorem not_isDigit_of_sign {byte : UInt8}
    (hbyte : byte ∈ [tab, space, 0x43]) : ¬IsDigit byte := by
  intro hdigit
  have hnone := hdigit.not_mem_signs
  simp only [List.mem_cons, List.not_mem_nil, or_false] at hbyte hnone
  tauto

theorem digitByte_inj {digit other : Nat} (hdigit : digit < 16)
    (hother : other < 16) (heq : digitByte digit = digitByte other) :
    digit = other := by
  interval_cases digit <;> interval_cases other <;> first
    | rfl
    | exact absurd heq (by decide)

theorem isDigit_of_mem_fixedDigits {byte : UInt8} {width value : Nat}
    (hmem : byte ∈ fixedDigits width value) : IsDigit byte := by
  induction width generalizing value with
  | zero => exact (List.not_mem_nil hmem).elim
  | succ width ih =>
      rcases List.mem_append.mp hmem with hmem | hmem
      · exact ih hmem
      · exact ⟨value % 16, Nat.mod_lt _ (by decide),
          List.mem_singleton.mp hmem⟩

@[simp] theorem fixedDigits_length (width value : Nat) :
    (fixedDigits width value).length = width := by
  induction width generalizing value with
  | zero => rfl
  | succ width ih => simp [fixedDigits, ih]

theorem exists_fixedDigits_eq_cons (width value : Nat) :
    ∃ byte rest, fixedDigits (width + 1) value = byte :: rest ∧
      IsDigit byte := by
  obtain ⟨byte, rest, heq⟩ :=
    List.exists_cons_of_length_eq_add_one
      (fixedDigits_length (width + 1) value)
  have hmem : byte ∈ fixedDigits (width + 1) value :=
    heq ▸ List.mem_cons_self
  exact ⟨byte, rest, heq, isDigit_of_mem_fixedDigits hmem⟩

theorem fixedDigits_inj {width value other : Nat}
    (hvalue : value < 16 ^ width) (hother : other < 16 ^ width)
    (heq : fixedDigits width value = fixedDigits width other) :
    value = other := by
  induction width generalizing value other with
  | zero => omega
  | succ width ih =>
      have hparts := List.append_inj' heq rfl
      have hlast := digitByte_inj (Nat.mod_lt value (by decide))
        (Nat.mod_lt other (by decide)) (List.singleton_inj.mp hparts.2)
      have hfront := ih (by omega) (by omega) hparts.1
      omega

theorem fixedDigits_zero (width : Nat) :
    fixedDigits width 0 = List.replicate width 0x30 := by
  induction width with
  | zero => rfl
  | succ width ih =>
      rw [fixedDigits, Nat.zero_div, ih, List.replicate_succ']
      rfl

theorem digitChar_toUInt8 {digit : Nat} (hdigit : digit < 16) :
    (Nat.digitChar digit).toUInt8 = digitByte digit := by
  interval_cases digit <;> decide

/-- The ids of the searches are the ids of the file. -/
theorem idBytes_eq_fixedDigits {width value : Nat}
    (hvalue : value < 16 ^ (width + 1)) :
    idBytes (width + 1) value = fixedDigits (width + 1) value := by
  unfold idBytes Numeral.hexDigits
  induction width generalizing value with
  | zero =>
      have hlt : value < 16 := by simpa using hvalue
      rw [Nat.toDigits_of_lt_base hlt, fixedDigits, Nat.mod_eq_of_lt hlt,
        ← digitChar_toUInt8 hlt]
      rfl
  | succ width ih =>
      -- Numerals have no zeros in front; these come from the padding.
      have hlast := digitChar_toUInt8 (Nat.mod_lt value (by decide : 0 < 16))
      by_cases hlt : value < 16
      · rw [Nat.toDigits_of_lt_base hlt, fixedDigits,
          Nat.div_eq_of_lt hlt, fixedDigits_zero, ← hlast,
          Nat.mod_eq_of_lt hlt]
        have hzero : '0'.toUInt8 = 0x30 := rfl
        simp [List.leftpad, hzero]
      · have hdigits := Nat.toDigits_of_base_le (by decide)
          (Nat.not_lt.mp hlt)
        rw [hdigits, fixedDigits, ← hlast, ← ih (by omega)]
        simp [List.leftpad]

theorem idBytes_four (id : UInt16) :
    idBytes 4 id.toNat = fixedDigits 4 id.toNat :=
  idBytes_eq_fixedDigits id.toNat_lt

theorem idBytes_two (id : UInt8) :
    idBytes 2 id.toNat = fixedDigits 2 id.toNat :=
  idBytes_eq_fixedDigits id.toNat_lt

@[simp] theorem wideDigits_inj {id other : UInt16} :
    fixedDigits 4 id.toNat = fixedDigits 4 other.toNat ↔ id = other := by
  constructor
  · intro heq
    exact UInt16.toNat_inj.mp
      (fixedDigits_inj id.toNat_lt other.toNat_lt heq)
  · intro heq
    rw [heq]

@[simp] theorem narrowDigits_inj {id other : UInt8} :
    fixedDigits 2 id.toNat = fixedDigits 2 other.toNat ↔ id = other := by
  constructor
  · intro heq
    exact UInt8.toNat_inj.mp
      (fixedDigits_inj id.toNat_lt other.toNat_lt heq)
  · intro heq
    rw [heq]

theorem wide_ne_narrow {value other : Nat} :
    fixedDigits 4 value ≠ fixedDigits 2 other := by
  intro heq
  have hlength := congrArg List.length heq
  rw [fixedDigits_length, fixedDigits_length] at hlength
  contradiction

/-! ## Marks and ids -/

theorem class_mark : Bytes.ofText "C " = [0x43, space] := by
  decide

namespace Key

/-- The first id on the line; a subsystem has two. -/
def firstNumber : Key → Bytes
  | subsystem ids => fixedDigits 4 ids.1.toNat
  | key => key.number

theorem isDigit_of_mem_firstNumber {key : Key} {byte : UInt8}
    (hmem : byte ∈ key.firstNumber) : IsDigit byte := by
  cases key <;> exact isDigit_of_mem_fixedDigits hmem

theorem exists_number_append_eq (key : Key) (rest : Bytes) :
    ∃ more, key.number ++ space :: rest =
      key.firstNumber ++ space :: more := by
  cases key with
  | subsystem ids =>
      exact ⟨fixedDigits 4 ids.2.toNat ++ space :: rest,
        List.append_assoc _ _ _⟩
  | _ => exact ⟨rest, rfl⟩

theorem exists_number_eq_cons (key : Key) :
    ∃ byte rest, key.number = byte :: rest ∧ IsDigit byte := by
  cases key with
  | subsystem ids =>
      obtain ⟨byte, rest, heq, hdigit⟩ :=
        exists_fixedDigits_eq_cons 3 ids.1.toNat
      refine ⟨byte, rest ++ space :: fixedDigits 4 ids.2.toNat, ?_, hdigit⟩
      rw [number, heq, List.cons_append]
  | _ => exact exists_fixedDigits_eq_cons _ _

theorem mem_signs_of_mem_mark {key : Key} {byte : UInt8}
    (hmem : byte ∈ key.mark) : byte ∈ [tab, space, 0x43] := by
  cases key <;> simp only [mark, class_mark, List.mem_cons] at hmem ⊢ <;>
    tauto

theorem not_isDigit_of_mem_mark {key : Key} {byte : UInt8}
    (hmem : byte ∈ key.mark) : ¬IsDigit byte :=
  not_isDigit_of_sign (mem_signs_of_mem_mark hmem)

theorem firstNumber_eq_number {key : Key}
    (hkey : ∀ ids, key ≠ .subsystem ids) : key.firstNumber = key.number := by
  cases key with
  | subsystem ids => exact (hkey ids rfl).elim
  | _ => rfl

/-- A mark and the first id determine what a line is about, unless it is a
subsystem. -/
theorem eq_of_mark_of_firstNumber {key other : Key}
    (hkey : ∀ ids, key ≠ .subsystem ids) (hmark : key.mark = other.mark)
    (hnumber : key.number = other.firstNumber) : key = other := by
  cases key <;> cases other <;>
    simp_all [mark, number, firstNumber, class_mark, tab, space,
      wide_ne_narrow, wide_ne_narrow.symm]

theorem eq_of_mark_of_number {key other : Key}
    (hmark : key.mark = other.mark) (hnumber : key.number = other.number) :
    key = other := by
  have hlength := congrArg List.length hnumber
  cases other with
  | subsystem otherIds =>
      cases key with
      | subsystem ids =>
          have hparts := List.append_inj hnumber (by simp)
          have hsecond := List.tail_eq_of_cons_eq hparts.2
          exact congrArg subsystem (Prod.ext (wideDigits_inj.mp hparts.1)
            (wideDigits_inj.mp hsecond))
      | _ => simp [number] at hlength
  | _ =>
      cases key with
      | subsystem ids => simp [number] at hlength
      | _ => exact eq_of_mark_of_firstNumber (by simp) hmark hnumber

theorem mem_lead {key : Key} {byte : UInt8} (hmem : byte ∈ key.lead) :
    byte ∈ [tab, space, 0x43] ∨ IsDigit byte := by
  rcases List.mem_append.mp hmem with hmem | hmem
  · exact Or.inl (mem_signs_of_mem_mark hmem)
  · cases key with
    | subsystem ids =>
        rcases List.mem_append.mp hmem with hmem | hmem
        · exact Or.inr (isDigit_of_mem_fixedDigits hmem)
        · rcases List.mem_cons.mp hmem with rfl | hmem
          · exact Or.inl (by simp)
          · exact Or.inr (isDigit_of_mem_fixedDigits hmem)
    | _ => exact Or.inr (isDigit_of_mem_fixedDigits hmem)

theorem not_mem_lead_of_sign {key : Key} {byte : UInt8}
    (hbyte : byte = newline ∨ byte = hash) : byte ∉ key.lead := by
  intro hmem
  rcases mem_lead hmem with hsign | hdigit
  · rcases hbyte with rfl | rfl <;> revert hsign <;> decide
  · have hnone := hdigit.not_mem_signs
    rcases hbyte with rfl | rfl <;> simp at hnone

theorem not_lead_prefix_comment (key : Key) (rest : Bytes) :
    ¬key.lead <+: hash :: rest := by
  intro hstarts
  obtain ⟨byte, more, hnumber, -⟩ := key.exists_number_eq_cons
  have hne : key.lead ≠ [] := by
    rw [lead, hnumber]
    simp
  obtain ⟨first, tail, hlead⟩ := List.exists_cons_of_ne_nil hne
  rw [hlead, List.cons_prefix_cons] at hstarts
  have hmem : hash ∈ key.lead := by
    rw [hlead, hstarts.1]
    exact List.mem_cons_self
  exact not_mem_lead_of_sign (Or.inr rfl) hmem

theorem mark_number_eq {key other : Key} {rest more : Bytes}
    (heq : key.lead ++ rest = other.lead ++ more) :
    key.mark = other.mark ∧ key.number ++ rest = other.number ++ more := by
  have hdigit (key : Key) (rest : Bytes) :
      ∀ byte ∈ (key.number ++ rest).head?, ¬¬IsDigit byte := by
    intro byte hbyte
    obtain ⟨first, tail, hnumber, hfirst⟩ := key.exists_number_eq_cons
    rw [hnumber] at hbyte
    obtain rfl : first = byte := by simpa using hbyte
    exact not_not_intro hfirst
  rw [lead, lead, List.append_assoc, List.append_assoc] at heq
  exact (append_eq_append_iff_of_runs
    (fun _ hmem => not_isDigit_of_mem_mark hmem)
    (fun _ hmem => not_isDigit_of_mem_mark hmem)
    (hdigit key rest) (hdigit other more)).mp heq

end Key

namespace Line

theorem startsWith_iff {lead : Bytes} {line : Line} :
    line.startsWith lead = true ↔ lead <+: line.text :=
  List.isPrefixOf_iff_prefix

theorem hasId_iff {lead : Bytes} {line : Line} :
    line.hasId lead = true ↔
      ∃ rest, line.text = lead ++ rest ∧ endsId rest = true := by
  unfold hasId after?
  by_cases hstarts : lead.isPrefixOf line.text = true
  · rw [if_pos hstarts]
    obtain ⟨rest, hrest⟩ := List.isPrefixOf_iff_prefix.mp hstarts
    rw [← hrest, List.drop_left]
    constructor
    · intro hends
      exact ⟨rest, rfl, hends⟩
    · intro ⟨other, heq, hends⟩
      rwa [List.append_cancel_left heq]
  · rw [if_neg hstarts]
    constructor
    · intro hfalse
      contradiction
    · intro ⟨rest, heq, _⟩
      rw [heq] at hstarts
      exact (hstarts (List.isPrefixOf_iff_prefix.mpr
        (List.prefix_append lead rest))).elim

theorem not_isDigit_of_endsId {rest : Bytes} (hends : endsId rest = true) :
    ∀ byte ∈ rest.head?, ¬IsDigit byte := by
  intro byte hbyte hdigit
  have hnone := hdigit.not_mem_signs
  cases rest with
  | nil => contradiction
  | cons first rest =>
      obtain rfl : first = byte := by simpa using hbyte
      simp only [endsId, Bool.or_eq_true, decide_eq_true_eq] at hends
      simp only [List.mem_cons, List.not_mem_nil, or_false] at hnone
      tauto

end Line

namespace Entry

theorem newline_not_mem_text (entry : Entry) : newline ∉ entry.text := by
  intro hmem
  rcases List.mem_append.mp hmem with hmem | hmem
  · exact Key.not_mem_lead_of_sign (Or.inl rfl) hmem
  · rcases List.mem_cons.mp hmem with hspace | hmem
    · exact absurd hspace (by decide)
    · rcases List.mem_cons.mp hmem with hspace | hmem
      · exact absurd hspace (by decide)
      · exact entry.name.oneLine hmem

/-- A search for an id accepts the line of the entry it is for, and no other.
Subsystems are searched differently. -/
theorem hasId_lead_iff {entry : Entry} {key : Key} {line : Line}
    (htext : line.text = entry.text) (hkey : ∀ ids, key ≠ .subsystem ids) :
    line.hasId key.lead = true ↔ entry.key = key := by
  rw [Line.hasId_iff, htext]
  constructor
  · intro ⟨rest, heq, hends⟩
    have hsplit := Key.mark_number_eq heq
    obtain ⟨more, hmore⟩ := entry.key.exists_number_append_eq
      (space :: Bytes.ofText entry.name.text)
    rw [hmore, ← Key.firstNumber_eq_number hkey] at hsplit
    have hblank : Line.endsId (space :: more) = true := rfl
    have hnumber := (append_eq_append_iff_of_runs
      (fun _ hmem => Key.isDigit_of_mem_firstNumber hmem)
      (fun _ hmem => Key.isDigit_of_mem_firstNumber hmem)
      (Line.not_isDigit_of_endsId hblank)
      (Line.not_isDigit_of_endsId hends)).mp hsplit.2
    rw [Key.firstNumber_eq_number hkey] at hnumber
    exact (Key.eq_of_mark_of_firstNumber hkey hsplit.1.symm
      hnumber.1.symm).symm
  · intro heq
    refine ⟨space :: space :: Bytes.ofText entry.name.text, ?_, rfl⟩
    rw [text, heq]

/-- Ids of one width are told apart even without reading them to the end. -/
theorem lead_prefix_iff {entry : Entry} {key : Key}
    (hwidth : entry.key.mark = key.mark →
      entry.key.number.length = key.number.length) :
    key.lead <+: entry.text ↔ entry.key = key := by
  constructor
  · intro ⟨rest, heq⟩
    have hsplit := Key.mark_number_eq heq.symm
    have hnumber := List.append_inj_left hsplit.2 (hwidth hsplit.1)
    exact Key.eq_of_mark_of_number hsplit.1 hnumber
  · intro heq
    rw [← heq]
    exact List.prefix_append _ _

theorem exists_text_eq (entry : Entry) :
    ∃ byte rest, entry.text = entry.key.mark ++ byte :: rest ∧
      IsDigit byte := by
  obtain ⟨byte, rest, hnumber, hdigit⟩ := entry.key.exists_number_eq_cons
  refine ⟨byte, rest ++ space :: space :: Bytes.ofText entry.name.text,
    ?_, hdigit⟩
  rw [text, Key.lead, List.append_assoc, hnumber, List.cons_append]

theorem mark_prefix_iff {entry : Entry} {mark : Bytes}
    (hmark : ∀ byte ∈ mark, ¬IsDigit byte) :
    mark <+: entry.text ↔ mark <+: entry.key.mark := by
  obtain ⟨byte, rest, htext, hdigit⟩ := entry.exists_text_eq
  have hown : entry.key.mark <+: entry.text := ⟨byte :: rest, htext.symm⟩
  constructor
  · intro hstarts
    rcases List.prefix_or_prefix_of_prefix hstarts hown with hle | hge
    · exact hle
    · -- A longer mark would reach into the digits of the id.
      obtain ⟨more, rfl⟩ := hge
      cases more with
      | nil => exact ⟨[], by simp⟩
      | cons first more =>
          rw [htext, List.prefix_append_right_inj,
            List.cons_prefix_cons] at hstarts
          rw [← hstarts.1] at hdigit
          exact (hmark first (by simp) hdigit).elim
  · intro hstarts
    exact hstarts.trans hown

end Entry

/-! ## Searched leads -/

theorem vendor_lead (id : UInt16) :
    idBytes 4 id.toNat = (Key.vendor id).lead :=
  idBytes_four id

theorem device_lead (id : UInt16) :
    tab :: idBytes 4 id.toNat = (Key.device id).lead := by
  rw [idBytes_four]
  rfl

theorem subsystem_lead (ids : UInt16 × UInt16) :
    tab :: tab :: (idBytes 4 ids.1.toNat ++ space :: idBytes 4 ids.2.toNat) =
      (Key.subsystem ids).lead := by
  rw [idBytes_four, idBytes_four]
  rfl

theorem class_lead (id : UInt8) :
    classMark ++ idBytes 2 id.toNat = (Key.deviceClass id).lead := by
  rw [idBytes_two]
  rfl

theorem subclass_lead (id : UInt8) :
    tab :: idBytes 2 id.toNat = (Key.subclass id).lead := by
  rw [idBytes_two]
  rfl

theorem interface_lead (id : UInt8) :
    tab :: tab :: idBytes 2 id.toNat = (Key.interface id).lead := by
  rw [idBytes_two]
  rfl

/-! ## Names -/

theorem dropWhile_eq_self {p : UInt8 → Bool} {bytes : Bytes}
    (hhead : ∀ byte ∈ bytes.head?, p byte = false) :
    bytes.dropWhile p = bytes := by
  cases bytes with
  | nil => rfl
  | cons byte rest =>
      have hbyte := hhead byte rfl
      rw [List.dropWhile_cons_of_neg (by simp [hbyte])]

theorem Entry.nameAfter_lead {entry : Entry} {line : Line}
    (htext : line.text = entry.text) :
    line.nameAfter entry.key.lead = entry.name.text := by
  have hstart : (Bytes.ofText entry.name.text).dropWhile
      (fun byte => byte = space || byte = tab) =
      Bytes.ofText entry.name.text := by
    apply dropWhile_eq_self
    intro byte hbyte
    have hvisible : byte ∉ [space, tab] := fun hblank =>
      entry.name.startsVisibly byte hblank hbyte
    simp only [List.mem_cons, not_or] at hvisible
    simp [hvisible]
  have hend : (Bytes.ofText entry.name.text).reverse.dropWhile isTrailing =
      (Bytes.ofText entry.name.text).reverse := by
    apply dropWhile_eq_self
    intro byte hbyte
    rw [List.head?_reverse] at hbyte
    have hvisible : byte ∉ [space, tab, newline, 0x0c, carriageReturn] :=
      fun hblank => entry.name.endsVisibly byte hblank hbyte
    simp only [List.mem_cons, not_or] at hvisible
    simp [isTrailing, hvisible]
  have hblanks (bytes : Bytes) :
      (space :: space :: bytes).dropWhile
        (fun byte => byte = space || byte = tab) =
      bytes.dropWhile (fun byte => byte = space || byte = tab) := rfl
  rw [Line.nameAfter, htext, text, List.drop_left, nameIn, hblanks, hstart,
    trimEnd, hend, List.reverse_reverse, Utf8.decode?_eq_some_iff.mpr rfl]
  rfl

end PciInventory.Names
