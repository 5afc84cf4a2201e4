import PciInventory.Proofs.Names.Trimmed
import PciInventory.Proofs.Snapshot.Replay
import PciInventory.Proofs.Text.Numeral
import PciInventory.Render

/-!
# Lines of a listing

What is printed is a text, and its lines are what its line breaks leave.  A
string that is printed as one line stays one line only if it has no line break
of its own.  Addresses and numbers have none and names of the database have
none, so the line of a device is one line of the listing, whatever the database
holds.
-/

namespace PciInventory.Render

/-! ## Lines of a text -/

/-- What the line breaks of a text leave. -/
def pieces (text : String) : List String :=
  (text.toList.splitOn '\n').map String.ofList

/-- The lines of an output, each of which a line break ends. -/
def linesOf (output : String) : List String :=
  (pieces output).dropLast

theorem pieces_ne_nil (text : String) : pieces text ≠ [] := by
  simp [pieces]

theorem pieces_eq_singleton {text : String} (htext : '\n' ∉ text.toList) :
    pieces text = [text] := by
  rw [pieces, List.splitOn_eq_singleton htext, List.map_singleton,
    String.ofList_toList]

theorem pieces_append_break (first rest : String) :
    pieces (first ++ "\n" ++ rest) = pieces first ++ pieces rest := by
  have hsplit : (first ++ "\n" ++ rest).toList =
      first.toList ++ '\n' :: rest.toList := by
    simp
  rw [pieces, hsplit, List.splitOn_append_cons_self, List.map_append]
  rfl

/-- A text is without a line break, or an unbroken line in front of another
text. -/
@[elab_as_elim]
theorem break_induction {motive : String → Prop}
    (unbroken : ∀ text : String, '\n' ∉ text.toList → motive text)
    (line : ∀ first rest : String, '\n' ∉ first.toList → motive rest →
      motive (first ++ "\n" ++ rest))
    (text : String) : motive text := by
  induction hlength : text.toList.length using Nat.strongRecOn
    generalizing text with
  | _ length ih =>
      by_cases hbreak : '\n' ∈ text.toList
      · obtain ⟨first, rest, hsplit, hfirst⟩ :=
          List.eq_append_cons_of_mem hbreak
        have htext :
            text = String.ofList first ++ "\n" ++ String.ofList rest := by
          rw [← String.toList_inj, hsplit]
          simp
        rw [htext]
        refine line _ _ (by simpa using hfirst) (ih rest.length ?_ _ (by simp))
        rw [← hlength, hsplit, List.length_append, List.length_cons]
        omega
      · exact unbroken text hbreak

theorem break_notMem_of_mem_pieces {text : String} :
    ∀ piece ∈ pieces text, '\n' ∉ piece.toList := by
  induction text using break_induction with
  | unbroken text htext =>
      rw [pieces_eq_singleton htext]
      exact List.forall_mem_singleton.mpr htext
  | line first rest hfirst ih =>
      rw [pieces_append_break, pieces_eq_singleton hfirst,
        List.singleton_append]
      exact List.forall_mem_cons.mpr ⟨hfirst, ih⟩

/-- What stands in front of a text without a line break of its own goes to the
first piece. -/
theorem pieces_append {front : String} (hfront : '\n' ∉ front.toList)
    (back : String) :
    pieces (front ++ back) = (pieces back).modifyHead (front ++ ·) := by
  have hone {line : String} (hline : '\n' ∉ line.toList) :
      pieces (front ++ line) = [front ++ line] :=
    pieces_eq_singleton (by simp [hfront, hline])
  induction back using break_induction with
  | unbroken back hback => rw [hone hback, pieces_eq_singleton hback]; rfl
  | line first rest hfirst =>
      rw [← String.append_assoc, ← String.append_assoc, pieces_append_break,
        pieces_append_break, hone hfirst, pieces_eq_singleton hfirst]
      rfl

/-! ## Printing lines -/

theorem text_nil : text [] = "" := rfl

theorem text_cons (line : String) (lines : List String) :
    text (line :: lines) = line ++ "\n" ++ text lines := by
  simp [text]

theorem text_append (first rest : List String) :
    text (first ++ rest) = text first ++ text rest := by
  simp [text]

/-- To print the pieces of a text is to print the text as a line. -/
theorem text_pieces (line : String) : text (pieces line) = line ++ "\n" := by
  induction line using break_induction with
  | unbroken line hline =>
      rw [pieces_eq_singleton hline, text_cons, text_nil, String.append_empty]
  | line first rest hfirst ih =>
      rw [pieces_append_break, pieces_eq_singleton hfirst,
        List.singleton_append, text_cons, ih]
      simp [String.append_assoc]

/-- Every string that is printed as a line is cut at its own line breaks. -/
theorem linesOf_text (lines : List String) :
    linesOf (text lines) = lines.flatMap pieces := by
  induction lines with
  | nil => decide
  | cons line lines ih =>
      rw [text_cons, linesOf, pieces_append_break,
        List.dropLast_append_of_ne_nil (pieces_ne_nil _), List.flatMap_cons]
      exact congrArg (pieces line ++ ·) ih

/-- Nothing is printed behind the last line break. -/
theorem text_linesOf_text (lines : List String) :
    text (linesOf (text lines)) = text lines := by
  rw [linesOf_text]
  induction lines with
  | nil => rfl
  | cons line lines ih =>
      rw [List.flatMap_cons, text_append, text_pieces, ih, text_cons]

theorem linesOf_text_of_unbroken {lines : List String}
    (hlines : ∀ line ∈ lines, '\n' ∉ line.toList) :
    linesOf (text lines) = lines := by
  rw [linesOf_text]
  induction lines with
  | nil => rfl
  | cons line lines ih =>
      obtain ⟨hline, hrest⟩ := List.forall_mem_cons.mp hlines
      rw [List.flatMap_cons, pieces_eq_singleton hline, ih hrest]
      rfl

theorem text_inj_of_unbroken {lines others : List String}
    (hlines : ∀ line ∈ lines, '\n' ∉ line.toList)
    (hothers : ∀ line ∈ others, '\n' ∉ line.toList) :
    text lines = text others ↔ lines = others := by
  constructor
  · intro htext
    rw [← linesOf_text_of_unbroken hlines, htext,
      linesOf_text_of_unbroken hothers]
  · exact congrArg text

/-! ## The line of a device -/

@[simp] theorem break_notMem_hex (width value : Nat) :
    '\n' ∉ (Numeral.hex width value).toList :=
  Numeral.notMem_hex (by decide) (by decide) width value

theorem notMem_address {c : Char} (hdigit : Numeral.digit? c = none)
    (hmarks : c ∉ ['+', ':', '.']) (address : Address) :
    c ∉ address.text.toList := by
  simp only [List.mem_cons, List.not_mem_nil, or_false, not_or] at hmarks
  have hhex (width value : Nat) : c ∉ (Numeral.hex width value).toList :=
    Numeral.notMem_hex hmarks.1 hdigit width value
  simp [Address.text, BusId.text, hhex, hmarks]

@[simp] theorem break_notMem_address (address : Address) :
    '\n' ∉ address.text.toList :=
  notMem_address (by decide) (by decide) address

theorem break_notMem_nameOrId {name what : String}
    (hname : '\n' ∉ name.toList) (hwhat : '\n' ∉ what.toList)
    (id : UInt16) : '\n' ∉ (nameOrId name what id).toList := by
  unfold nameOrId
  split
  · simp [hwhat]
  · exact hname

section Device

variable {device : Device}

theorem break_notMem_className (hnames : device.names.OneLine) :
    '\n' ∉ (className device).toList := by
  unfold className
  dsimp only
  split
  · exact hnames.sub.unbroken
  · split
    · exact hnames.base.unbroken
    · simp

theorem break_notMem_identity (hnames : device.names.OneLine)
    (view : View) : '\n' ∉ (identity device view).toList := by
  unfold identity
  split
  · simp
  · simp [break_notMem_className hnames,
      break_notMem_nameOrId hnames.vendor.unbroken,
      break_notMem_nameOrId hnames.device.unbroken]

theorem break_notMem_revisionNote (device : Device) :
    '\n' ∉ (revisionNote device).toList := by
  unfold revisionNote
  split
  · split <;> simp
  · simp

theorem break_notMem_deviceLine (hnames : device.names.OneLine)
    (view : View) : '\n' ∉ (deviceLine device view).toList := by
  simp [deviceLine, break_notMem_identity hnames,
    break_notMem_revisionNote]

theorem deviceLine_eq_append (device : Device) (view : View) :
    ∃ rest, deviceLine device view = device.address.text ++ " " ++ rest :=
  ⟨identity device view ++ revisionNote device, by
    rw [deviceLine, String.append_assoc]⟩

/-- The line of a device begins with its address, so with no blank. -/
theorem exists_cons_deviceLine (device : Device) (view : View) :
    ∃ first rest, (deviceLine device view).toList = first :: rest ∧
      first ∉ ['\t', ' '] := by
  obtain ⟨back, hline⟩ := deviceLine_eq_append device view
  have hnonempty : device.address.text.toList ≠ [] := by
    simp [Address.text, BusId.text]
  obtain ⟨first, rest, haddress⟩ := List.exists_cons_of_ne_nil hnonempty
  have hfirst : first ∈ device.address.text.toList :=
    haddress ▸ List.mem_cons_self
  refine ⟨first, rest ++ (" " ++ back).toList, ?_, ?_⟩
  · rw [hline, String.append_assoc, String.toList_append, haddress,
      List.cons_append]
  · rw [List.mem_cons, List.mem_singleton, not_or]
    constructor
    · rintro rfl
      exact notMem_address (by decide) (by decide) device.address hfirst
    · rintro rfl
      exact notMem_address (by decide) (by decide) device.address hfirst

end Device

/-! ## The listing -/

/-- Without details a listing has the lines of the devices and no others. -/
theorem listing_eq_map (topology : Topology) (numeric : Bool) :
    listing topology ⟨numeric, false⟩ =
      topology.devices.map fun device =>
        deviceLine device ⟨numeric, false⟩ := by
  rw [List.map_eq_flatMap]
  apply List.flatMap_congr
  intro device _
  simp [block]

theorem break_notMem_listing {topology : Topology}
    (hnames : ∀ device ∈ topology.devices, device.names.OneLine)
    (numeric : Bool) :
    ∀ line ∈ listing topology ⟨numeric, false⟩, '\n' ∉ line.toList := by
  rw [listing_eq_map]
  intro line hline
  obtain ⟨device, hdevice, rfl⟩ := List.mem_map.mp hline
  exact break_notMem_deviceLine (hnames device hdevice) _

section Built

variable {records : List DeviceRecord} {buses : List BusRecord}
  {database : Bytes} {earlier : List Names.Query} {topology : Topology}

theorem oneLine_names_of_ofRecords
    (hbuilt :
      (Topology.ofRecords records buses
        ((Names.Resolver.ofDatabase database).askAll earlier).2).outcome =
          .ok topology) :
    ∀ device ∈ topology.devices, device.names.OneLine := by
  have hover := (Names.Resolver.IsOver.ofDatabase database).askAll earlier
  obtain ⟨hmodelled, -⟩ := Topology.builtOver_of_ofRecords hover hbuilt
  exact fun device hdevice =>
    (hmodelled.modelled device hdevice).oneLine_names

/-- Whatever the database holds and whatever was asked for before, a listing
without details has one line for each device, which starts with the address of
the device and a space.  No name that is found has a line break in it, begins
with a blank or ends in whitespace. -/
theorem linesOf_listing
    (hbuilt :
      (Topology.ofRecords records buses
        ((Names.Resolver.ofDatabase database).askAll earlier).2).outcome =
          .ok topology) (numeric : Bool) :
    let output := text (listing topology ⟨numeric, false⟩)
    output = text (linesOf output) ∧
      List.Forall₂ (fun device line =>
          ∃ rest, line = device.address.text ++ " " ++ rest)
        topology.devices (linesOf output) ∧
      ∀ queries, ∀ answer ∈
          ((Names.Resolver.ofDatabase database).askAll queries).1,
        ∀ name ∈ answer.texts, Names.OneLine name := by
  have hlines : linesOf (text (listing topology ⟨numeric, false⟩)) =
      listing topology ⟨numeric, false⟩ :=
    linesOf_text_of_unbroken
      (break_notMem_listing (oneLine_names_of_ofRecords hbuilt) numeric)
  refine ⟨(text_linesOf_text _).symm, ?_,
    (Names.Resolver.IsOver.ofDatabase database).oneLine_askAll⟩
  rw [hlines, listing_eq_map, List.forall₂_map_right_iff]
  exact List.forall₂_same.mpr fun device _ => deviceLine_eq_append device _

end Built

/-- A file with blanks around a name and bytes that are no text. -/
def untidyFile : Bytes :=
  Bytes.ofText "8086 \t Two words \t\r\n\t0001  " ++ [0xff, Names.newline, 0xff]

def untidyCard : Device :=
  { record := ⟨⟨0, 1, 0, 0⟩, [0x86, 0x80, 1] ++ List.replicate 61 0, [], none,
      none, none⟩
    kind := .endpoint
    capabilities := []
    names := ⟨"Two words", "", .unknown, "", ""⟩ }

theorem linesOf_listing_untidyFile :
    let topology : Topology := ⟨[untidyCard], []⟩
    let output := text (listing topology ⟨false, false⟩)
    (Topology.ofRecords [untidyCard.record] []
        ((Names.Resolver.ofDatabase untidyFile).askAll
          [.vendor 0x8086]).2).outcome = .ok topology ∧
      output = "0000:01:00.0 Class 0000: Two words Device 0001\n" ∧
      List.Forall₂ (fun device line =>
          ∃ rest, line = device.address.text ++ " " ++ rest)
        [untidyCard] (linesOf output) := by
  intro topology output
  have hbuilt :
      (Topology.ofRecords [untidyCard.record] []
        ((Names.Resolver.ofDatabase untidyFile).askAll
          [.vendor 0x8086]).2).outcome = .ok topology := by cbv
  exact ⟨hbuilt, by decide +kernel, (linesOf_listing hbuilt false).2.1⟩

end PciInventory.Render
