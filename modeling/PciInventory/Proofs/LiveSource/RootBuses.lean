import Mathlib.Data.List.TakeWhile
import PciInventory.LiveSource
import PciInventory.Proofs.Address.Grammar

/-!
# Root buses

A bus link leads past the last `pci_bus` of its target, and what stands right
before it tells a root bus: a host bridge is `pci` with a bus id, and a bridge is
a device address, which has no letter `p` in it.  So a bus is a root bus if no
bridge stands between its host bridge and `pci_bus`, however many there could be
and whatever the target goes through before.
-/

namespace PciInventory

/-! ## Names without a letter -/

/-- A character that is in no bus id and in no address. -/
def IsForeign (c : Char) : Prop :=
  c ≠ '+' ∧ c ≠ ':' ∧ c ≠ '.' ∧ Numeral.digit? c = none

instance (c : Char) : Decidable (IsForeign c) :=
  inferInstanceAs (Decidable (_ ∧ _ ∧ _ ∧ _))

theorem BusId.ofText_eq_ok_iff {text : String} {id : BusId} :
    ofText text = .ok id ↔ parse? text.toList = some id := by
  rw [ofText]
  cases parse? text.toList with
  | none => simp
  | some found => simp

theorem BusId.notMem_of_parse? {text : List Char} {id : BusId} {c : Char}
    (hparse : parse? text = some id) (hforeign : IsForeign c) : c ∉ text := by
  obtain ⟨hsign, hcolon, _, hnone⟩ := hforeign
  obtain ⟨domain, number, hdomain, rfl⟩ := exists_join_of_parse? hparse
  obtain ⟨hdomain, hnumber⟩ := (parse?_join hdomain).mp hparse
  simp only [List.mem_append, List.mem_cons, not_or]
  exact ⟨hdomain.notMem hsign hnone, hcolon, hnumber.notMem hsign hnone⟩

theorem Address.Spelled.notMem {text : String} {address : Address} {c : Char}
    (hspelled : Spelled text address) (hforeign : IsForeign c) :
    c ∉ text.toList := by
  obtain ⟨hsign, hcolon, hpoint, hnone⟩ := hforeign
  obtain ⟨domain, bus, device, function, rfl, _, hdomain, hbus, hdevice,
    hfunction⟩ := hspelled
  simp only [toList_join, List.mem_append, List.mem_cons, not_or]
  exact ⟨⟨hdomain.notMem hsign hnone, hcolon, hbus.notMem hsign hnone⟩,
    hcolon, hdevice.notMem hsign hnone, hpoint,
    hfunction.notMem hsign hnone⟩

namespace LiveSource

/-! ## The segment before the last marker -/

theorem dropWhile_ne_append {marker : String} {skipped : List String}
    (hskipped : marker ∉ skipped) (rest : List String) :
    (skipped ++ marker :: rest).dropWhile (fun name => name ≠ marker) =
      marker :: rest := by
  have hpassed : ∀ name ∈ skipped, decide (name ≠ marker) = true := by
    intro name hname
    exact decide_eq_true (ne_of_mem_of_not_mem hname hskipped)
  rw [List.dropWhile_append_of_pos hpassed,
    List.dropWhile_cons_of_neg (by simp)]

theorem exists_skipped_of_dropWhile {marker first : String}
    {names rest : List String}
    (hdrop : names.dropWhile (fun name => name ≠ marker) = first :: rest) :
    ∃ skipped, names = skipped ++ marker :: rest ∧ marker ∉ skipped := by
  have hfirst : first = marker := by
    have hstop := List.head?_dropWhile_not
      (fun name => decide (name ≠ marker)) names
    rw [hdrop] at hstop
    simpa using hstop
  subst hfirst
  refine ⟨names.takeWhile fun name => name ≠ first, ?_, ?_⟩
  · rw [← hdrop, List.takeWhile_append_dropWhile]
  · intro hmem
    have hpassed := List.mem_takeWhile_imp hmem
    simp at hpassed

/-- What stands right before the last `pci_bus`. -/
theorem hostSegment?_eq_some_iff {names : List String} {host : String} :
    hostSegment? names = some host ↔
      ∃ before after, names = before ++ host :: "pci_bus" :: after ∧
        "pci_bus" ∉ after := by
  constructor
  · intro hhost
    unfold hostSegment? at hhost
    split at hhost
    next first found before hdrop =>
      obtain rfl := Option.some.inj hhost
      obtain ⟨after, hnames, hafter⟩ := exists_skipped_of_dropWhile hdrop
      refine ⟨before.reverse, after.reverse, ?_, by simpa using hafter⟩
      rw [← List.reverse_inj, hnames]
      simp
    next => contradiction
  · rintro ⟨before, after, rfl, hafter⟩
    have hreverse : (before ++ host :: "pci_bus" :: after).reverse =
        after.reverse ++ "pci_bus" :: host :: before.reverse := by
      simp
    unfold hostSegment?
    rw [hreverse, dropWhile_ne_append (by simpa using hafter)]

theorem hostBus?_isSome_iff {name : String} :
    (hostBus? name).isSome = true ↔
      ∃ text id, name = "pci" ++ text ∧ BusId.ofText text = .ok id := by
  constructor
  · intro hhost
    obtain ⟨id, hid⟩ := Option.isSome_iff_exists.mp hhost
    unfold hostBus? at hid
    split at hid
    next text hname =>
      refine ⟨String.ofList text, id, ?_, ?_⟩
      · rw [← String.toList_inj, hname]
        simp
      · rw [BusId.ofText_eq_ok_iff, String.toList_ofList]
        exact hid
    next => contradiction
  · rintro ⟨text, id, rfl, hid⟩
    have hname : ("pci" ++ text).toList = 'p' :: 'c' :: 'i' :: text.toList := by
      simp
    unfold hostBus?
    rw [hname]
    simp only
    rw [BusId.ofText_eq_ok_iff.mp hid]
    rfl

/-- A target leads to a root bus exactly when a host bridge stands before the
last `pci_bus`. -/
theorem isRootBusLink_eq_true_iff {target : Bytes} :
    isRootBusLink target = true ↔
      ∃ before text id after,
        targetNames target =
          before ++ ("pci" ++ text) :: "pci_bus" :: after ∧
          "pci_bus" ∉ after ∧ BusId.ofText text = .ok id := by
  have hlink : isRootBusLink target = true ↔
      ∃ host, hostSegment? (targetNames target) = some host ∧
        (hostBus? host).isSome = true := by
    unfold isRootBusLink
    cases hostSegment? (targetNames target) <;> simp
  rw [hlink]
  simp only [hostSegment?_eq_some_iff, hostBus?_isSome_iff]
  constructor
  · rintro ⟨_, ⟨before, after, hnames, hafter⟩, text, id, rfl, hid⟩
    exact ⟨before, text, id, after, hnames, hafter, hid⟩
  · rintro ⟨before, text, id, after, hnames, hafter, hid⟩
    exact ⟨_, ⟨before, after, hnames, hafter⟩, text, id, rfl, hid⟩

/-! ## Bridges on the way -/

theorem ne_marker_of_ofText {text : String} {id : BusId}
    (hread : BusId.ofText text = .ok id) : text ≠ "pci_bus" := by
  rintro rfl
  exact BusId.notMem_of_parse? (c := 'p') (BusId.ofText_eq_ok_iff.mp hread)
    (by decide) (by decide)

theorem ne_host_of_ofText {text : String} {address : Address}
    (hread : Address.ofText text = .ok address) (host : String) :
    text ≠ "pci" ++ host := by
  rintro rfl
  exact (Address.ofText_eq_ok_iff.mp hread).notMem (c := 'p') (by decide)
    (by simp)

theorem targetNames_of_names {target : Bytes} {before : List Bytes}
    {names : List String}
    (hnames : Path.names target = before ++ names.map Bytes.ofText) :
    targetNames target = before.filterMap Utf8.decode? ++ names := by
  have hread : Utf8.decode? ∘ Bytes.ofText = some := by
    funext text
    exact Utf8.decode?_eq_some_iff.mpr rfl
  rw [targetNames, hnames, List.filterMap_append, List.filterMap_map, hread,
    List.filterMap_some]

/-- A target goes through any segments to a host bridge, through any number of
bridges behind it, and over `pci_bus` to a bus.  The bus is a root bus if and
only if there is no bridge on the way, whatever the first segments are. -/
theorem isRootBusLink_iff_unbridged {target : Bytes} {before : List Bytes}
    {host bus : String} {bridges : List String}
    (hnames : Path.names target =
      before ++ ((("pci" ++ host) :: bridges) ++
        ["pci_bus", bus]).map Bytes.ofText)
    (hhost : ∃ id, BusId.ofText host = .ok id)
    (hbridges : ∀ bridge ∈ bridges,
      ∃ address, Address.ofText bridge = .ok address)
    (hbus : ∃ id, BusId.ofText bus = .ok id) :
    isRootBusLink target = true ↔ bridges.length = 0 := by
  obtain ⟨hostId, hhost⟩ := hhost
  obtain ⟨busId, hbus⟩ := hbus
  have hafter : "pci_bus" ∉ [bus] := by
    simpa using (ne_marker_of_ofText hbus).symm
  have htarget := targetNames_of_names hnames
  rcases List.eq_nil_or_concat bridges with rfl | ⟨front, last, rfl⟩
  · have hroot : isRootBusLink target = true :=
      isRootBusLink_eq_true_iff.mpr
        ⟨_, host, hostId, [bus], htarget, hafter, hhost⟩
    simp [hroot]
  · -- The last bridge is what stands before `pci_bus`.
    have hlast : hostSegment? (targetNames target) = some last :=
      hostSegment?_eq_some_iff.mpr
        ⟨before.filterMap Utf8.decode? ++ ("pci" ++ host) :: front, [bus],
          by rw [htarget]; simp, hafter⟩
    obtain ⟨address, hbridge⟩ := hbridges last (by simp)
    constructor
    · intro hroot
      obtain ⟨others, text, _, rest, hothers, hrest, _⟩ :=
        isRootBusLink_eq_true_iff.mp hroot
      have hsame : hostSegment? (targetNames target) = some ("pci" ++ text) :=
        hostSegment?_eq_some_iff.mpr ⟨others, rest, hothers, hrest⟩
      rw [hlast, Option.some.injEq] at hsame
      exact (ne_host_of_ofText hbridge text hsame).elim
    · intro hnone
      simp at hnone

/-- A way with a marker and a host bridge of its own before the host bridge that
counts, and one bridge behind that. -/
theorem isRootBusLink_iff_unbridged_nestedHost :
    let target := Bytes.ofText
      "../.././devices/pci0000:00/pci_bus/pci1:+2/0001:02:1f.7/pci_bus/0001:03"
    Path.names target =
        ["devices", "pci0000:00", "pci_bus"].map Bytes.ofText ++
          (["pci1:+2", "0001:02:1f.7"] ++
            ["pci_bus", "0001:03"]).map Bytes.ofText ∧
      BusId.ofText "1:+2" = .ok ⟨1, 2⟩ ∧
      Address.ofText "0001:02:1f.7" = .ok ⟨1, 2, 31, 7⟩ ∧
      BusId.ofText "0001:03" = .ok ⟨1, 3⟩ ∧
      isRootBusLink target = false := by
  intro target
  have hnames : Path.names target =
      ["devices", "pci0000:00", "pci_bus"].map Bytes.ofText ++
        (["pci1:+2", "0001:02:1f.7"] ++
          ["pci_bus", "0001:03"]).map Bytes.ofText := by decide +kernel
  have hhost : BusId.ofText "1:+2" = .ok ⟨1, 2⟩ := by cbv
  have hbus : BusId.ofText "0001:03" = .ok ⟨1, 3⟩ := by cbv
  have hbridge : Address.ofText "0001:02:1f.7" = .ok ⟨1, 2, 31, 7⟩ := by cbv
  refine ⟨hnames, hhost, hbridge, hbus, Bool.eq_false_iff.mpr fun hroot => ?_⟩
  have hnone := (isRootBusLink_iff_unbridged hnames ⟨_, hhost⟩
    (List.forall_mem_singleton.mpr ⟨_, hbridge⟩) ⟨_, hbus⟩).mp hroot
  contradiction

end LiveSource

end PciInventory
