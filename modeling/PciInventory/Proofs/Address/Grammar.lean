import PciInventory.Address.Text
import PciInventory.Proofs.Text.Numeral

/-!
# Written addresses

An address is read from exactly the texts `D:B:V.F` whose parts are hexadecimal
numerals of one to four, two, two and one bytes, with a device number of at
most 31 and a function number of at most 7.  No part holds a separator, so it
makes no difference at which end the search for one starts.  The written form
of an address is such a text if and only if the address is in range.
-/

namespace PciInventory

/-! ## Parts of a text -/

theorem splitFirst?_eq_some_iff {separator : Char}
    {text before after : List Char} :
    splitFirst? separator text = some (before, after) ↔
      text = before ++ separator :: after ∧ separator ∉ before := by
  induction text generalizing before after with
  | nil => simp [splitFirst?]
  | cons c rest ih =>
      by_cases hc : c = separator
      · subst c
        rw [splitFirst?, if_pos rfl]
        constructor
        · intro hsplit
          cases hsplit
          exact ⟨rfl, List.not_mem_nil⟩
        · rintro ⟨htext, hbefore⟩
          cases before with
          | nil =>
              rw [List.nil_append, List.cons.injEq] at htext
              rw [htext.2]
          | cons first before =>
              rw [List.cons_append, List.cons.injEq] at htext
              rw [htext.1] at hbefore
              exact (hbefore List.mem_cons_self).elim
      · rw [splitFirst?, if_neg hc]
        simp only [Option.map_eq_some_iff, Prod.exists, Prod.mk.injEq]
        constructor
        · rintro ⟨front, back, hsplit, rfl, rfl⟩
          obtain ⟨rfl, hfront⟩ := ih.mp hsplit
          refine ⟨rfl, ?_⟩
          rw [List.mem_cons, not_or]
          exact ⟨Ne.symm hc, hfront⟩
        · rintro ⟨htext, hbefore⟩
          cases before with
          | nil =>
              rw [List.nil_append, List.cons.injEq] at htext
              exact (hc htext.1).elim
          | cons first before =>
              rw [List.cons_append, List.cons.injEq] at htext
              obtain ⟨rfl, rfl⟩ := htext
              rw [List.mem_cons, not_or] at hbefore
              exact ⟨before, after, ih.mpr ⟨rfl, hbefore.2⟩, rfl, rfl⟩

theorem splitLast?_eq_some_iff {separator : Char}
    {text before after : List Char} :
    splitLast? separator text = some (before, after) ↔
      text = before ++ separator :: after ∧ separator ∉ after := by
  unfold splitLast?
  simp only [Option.map_eq_some_iff, Prod.exists, Prod.mk.injEq]
  constructor
  · rintro ⟨back, front, hsplit, rfl, rfl⟩
    obtain ⟨htext, hback⟩ := splitFirst?_eq_some_iff.mp hsplit
    rw [List.reverse_eq_iff] at htext
    refine ⟨?_, by rwa [List.mem_reverse]⟩
    rw [htext]
    simp
  · rintro ⟨rfl, hafter⟩
    refine ⟨after.reverse, before.reverse, ?_, by simp, by simp⟩
    apply splitFirst?_eq_some_iff.mpr
    refine ⟨by simp, by rwa [List.mem_reverse]⟩

theorem splitFirst?_join {separator : Char} {before : List Char}
    (hbefore : separator ∉ before) (after : List Char) :
    splitFirst? separator (before ++ separator :: after) =
      some (before, after) :=
  splitFirst?_eq_some_iff.mpr ⟨rfl, hbefore⟩

theorem splitLast?_join {separator : Char} {after : List Char}
    (before : List Char) (hafter : separator ∉ after) :
    splitLast? separator (before ++ separator :: after) =
      some (before, after) :=
  splitLast?_eq_some_iff.mpr ⟨rfl, hafter⟩

/-- A hexadecimal numeral of `least` to `most` bytes. -/
def IsField (least most : Nat) (text : String) (value : Nat) : Prop :=
  least ≤ text.utf8ByteSize ∧ text.utf8ByteSize ≤ most ∧
    Numeral.Denotes 16 text.toList value

theorem isField_iff {least most value : Nat} {text : String} :
    IsField least most text value ↔
      (least ≤ text.toList.length ∧ text.toList.length ≤ most) ∧
        Numeral.Denotes 16 text.toList value := by
  unfold IsField
  constructor
  · rintro ⟨hleast, hmost, htext⟩
    rw [htext.utf8ByteSize_eq] at hleast hmost
    exact ⟨⟨hleast, hmost⟩, htext⟩
  · rintro ⟨⟨hleast, hmost⟩, htext⟩
    rw [htext.utf8ByteSize_eq]
    exact ⟨hleast, hmost, htext⟩

theorem IsField.notMem {least most value : Nat} {text : String} {c : Char}
    (hfield : IsField least most text value) (hsign : c ≠ '+')
    (hnone : Numeral.digit? c = none) : c ∉ text.toList :=
  hfield.2.2.notMem hsign hnone

/-- A printed numeral has as many bytes as asked for unless its value needs
more. -/
theorem isField_hex_iff {least width value other : Nat}
    (hleast : least ≤ width) (hwidth : 0 < width) :
    IsField least width (Numeral.hex width value) other ↔
      other = value ∧ value < 16 ^ width := by
  have hdenotes := Numeral.denotes_hexDigits width value
  have hlength := Numeral.le_length_hexDigits width value
  rw [isField_iff, Numeral.hex, String.toList_ofList,
    Numeral.length_hexDigits_le_iff hwidth]
  constructor
  · rintro ⟨⟨_, hlt⟩, hother⟩
    exact ⟨hother.unique hdenotes, hlt⟩
  · rintro ⟨rfl, hlt⟩
    exact ⟨⟨by omega, hlt⟩, hdenotes⟩

/-! ## Reading -/

theorem BusId.parse?_join {domain number : String}
    (hdomain : ':' ∉ domain.toList) {id : BusId} :
    parse? (domain.toList ++ ':' :: number.toList) = some id ↔
      IsField 1 4 domain id.domain.toNat ∧
        IsField 2 2 number id.number.toNat := by
  simp only [parse?, splitFirst?_join hdomain, isField_iff,
    Option.bind_eq_bind, Option.bind_some, Option.bind_eq_some_iff,
    Option.guard_eq_some', Option.pure_def, Option.some.injEq]
  constructor
  · rintro ⟨_, hlength, domainValue, hdomainRead, numberValue, hnumberRead,
      rfl⟩
    obtain ⟨hdomain, hdomainLt⟩ := Numeral.read?_eq_some_iff.mp hdomainRead
    obtain ⟨hnumber, hnumberLt⟩ := Numeral.read?_eq_some_iff.mp hnumberRead
    rw [UInt16.toNat_ofNat_of_lt' hdomainLt,
      UInt8.toNat_ofNat_of_lt' hnumberLt]
    exact ⟨⟨⟨hlength.1, hlength.2.1⟩, hdomain⟩, by omega, hnumber⟩
  · rintro ⟨⟨hlength, hdomain⟩, hlengthNumber, hnumber⟩
    exact ⟨(), by omega, id.domain.toNat,
      Numeral.read?_eq_some_iff.mpr ⟨hdomain, id.domain.toNat_lt⟩,
      id.number.toNat,
      Numeral.read?_eq_some_iff.mpr ⟨hnumber, id.number.toNat_lt⟩,
      by simp⟩

theorem BusId.exists_join_of_parse? {text : List Char} {id : BusId}
    (hparse : parse? text = some id) :
    ∃ domain number : String, ':' ∉ domain.toList ∧
      text = domain.toList ++ ':' :: number.toList := by
  simp only [parse?, Option.bind_eq_bind, Option.bind_eq_some_iff] at hparse
  obtain ⟨⟨domain, number⟩, hsplit, _⟩ := hparse
  obtain ⟨htext, hdomain⟩ := splitFirst?_eq_some_iff.mp hsplit
  refine ⟨String.ofList domain, String.ofList number, ?_, ?_⟩
  · rwa [String.toList_ofList]
  · rwa [String.toList_ofList, String.toList_ofList]

theorem Address.parse?_join {domain bus device function : String}
    (hdomain : ':' ∉ domain.toList) (hdevice : ':' ∉ device.toList)
    (hpoint : '.' ∉ device.toList) (hfunction : ':' ∉ function.toList)
    {address : Address} :
    parse? ((domain.toList ++ ':' :: bus.toList) ++ ':' ::
        (device.toList ++ '.' :: function.toList)) = some address ↔
      address.InRange ∧ IsField 1 4 domain address.domain.toNat ∧
        IsField 2 2 bus address.bus.toNat ∧
        IsField 2 2 device address.device.toNat ∧
        IsField 1 1 function address.function.toNat := by
  have hslot : ':' ∉ device.toList ++ '.' :: function.toList := by
    simp [hdevice, hfunction]
  have hbus := @BusId.parse?_join domain bus hdomain
  simp only [parse?, splitLast?_join _ hslot, splitFirst?_join hpoint,
    Option.bind_eq_bind, Option.bind_some, Option.bind_eq_some_iff,
    Option.guard_eq_some', Option.pure_def, Option.some.injEq, hbus]
  simp only [isField_iff]
  constructor
  · rintro ⟨id, ⟨hdomain, hbus⟩, _, hlength, deviceValue, hdeviceRead,
      functionValue, hfunctionRead, rfl⟩
    obtain ⟨hdevice, hdeviceLt⟩ := Numeral.read?_eq_some_iff.mp hdeviceRead
    obtain ⟨hfunction, hfunctionLt⟩ :=
      Numeral.read?_eq_some_iff.mp hfunctionRead
    have hdeviceValue : (UInt8.ofNat deviceValue).toNat = deviceValue :=
      UInt8.toNat_ofNat_of_lt' (Nat.lt_trans hdeviceLt (by decide))
    have hfunctionValue : (UInt8.ofNat functionValue).toNat = functionValue :=
      UInt8.toNat_ofNat_of_lt' (Nat.lt_trans hfunctionLt (by decide))
    refine ⟨?_, hdomain, hbus, ?_, ?_⟩
    · unfold InRange
      rw [hdeviceValue, hfunctionValue]
      omega
    · rw [hdeviceValue]
      exact ⟨by omega, hdevice⟩
    · rw [hfunctionValue]
      exact ⟨by omega, hfunction⟩
  · rintro ⟨hrange, hdomain, hbus, ⟨hdeviceLength, hdevice⟩,
      hfunctionLength, hfunction⟩
    obtain ⟨hdeviceLe, hfunctionLe⟩ := hrange
    exact ⟨⟨address.domain, address.bus⟩, ⟨hdomain, hbus⟩, (), by omega,
      address.device.toNat,
      Numeral.read?_eq_some_iff.mpr ⟨hdevice, by omega⟩,
      address.function.toNat,
      Numeral.read?_eq_some_iff.mpr ⟨hfunction, by omega⟩, by simp⟩

namespace Address

theorem exists_join_of_parse? {text : List Char} {address : Address}
    (hparse : parse? text = some address) :
    ∃ domain bus device function : String, ':' ∉ domain.toList ∧
      ':' ∉ device.toList ∧ '.' ∉ device.toList ∧ ':' ∉ function.toList ∧
      text = (domain.toList ++ ':' :: bus.toList) ++ ':' ::
        (device.toList ++ '.' :: function.toList) := by
  simp only [parse?, Option.bind_eq_bind, Option.bind_eq_some_iff] at hparse
  obtain ⟨⟨busText, slot⟩, hsplit, id, hbus, ⟨device, function⟩, hpoint, _⟩ :=
    hparse
  obtain ⟨rfl, hslot⟩ := splitLast?_eq_some_iff.mp hsplit
  obtain ⟨rfl, hdevice⟩ := splitFirst?_eq_some_iff.mp hpoint
  obtain ⟨domain, bus, hdomain, rfl⟩ := BusId.exists_join_of_parse? hbus
  rw [List.mem_append, List.mem_cons, not_or, not_or] at hslot
  refine ⟨domain, bus, String.ofList device, String.ofList function, ?_⟩
  simp only [String.toList_ofList]
  exact ⟨hdomain, hslot.1, hdevice, hslot.2.2, trivial⟩

/-- The text is `D:B:V.F`, its parts denoting the numbers of the address. -/
def Spelled (text : String) (address : Address) : Prop :=
  ∃ domain bus device function : String,
    text = domain ++ ":" ++ bus ++ ":" ++ device ++ "." ++ function ∧
      address.InRange ∧ IsField 1 4 domain address.domain.toNat ∧
      IsField 2 2 bus address.bus.toNat ∧
      IsField 2 2 device address.device.toNat ∧
      IsField 1 1 function address.function.toNat

theorem Spelled.inRange {text : String} {address : Address}
    (hspelled : Spelled text address) : address.InRange := by
  obtain ⟨_, _, _, _, _, hrange, _⟩ := hspelled
  exact hrange

theorem toList_join (domain bus device function : String) :
    (domain ++ ":" ++ bus ++ ":" ++ device ++ "." ++ function).toList =
      (domain.toList ++ ':' :: bus.toList) ++ ':' ::
        (device.toList ++ '.' :: function.toList) := by
  simp [String.toList_append]

theorem parse?_eq_some_iff {text : String} {address : Address} :
    parse? text.toList = some address ↔ Spelled text address := by
  constructor
  · intro hparse
    obtain ⟨domain, bus, device, function, hdomain, hdevice, hpoint,
      hfunction, htext⟩ := exists_join_of_parse? hparse
    rw [htext, parse?_join hdomain hdevice hpoint hfunction] at hparse
    rw [← toList_join, String.toList_inj] at htext
    exact ⟨domain, bus, device, function, htext, hparse⟩
  · rintro ⟨domain, bus, device, function, rfl, hfields⟩
    have ⟨_, hdomain, _, hdevice, hfunction⟩ := hfields
    rw [toList_join, parse?_join
      (hdomain.notMem (by decide) (by decide))
      (hdevice.notMem (by decide) (by decide))
      (hdevice.notMem (by decide) (by decide))
      (hfunction.notMem (by decide) (by decide))]
    exact hfields

theorem ofText_eq_ok_iff {text : String} {address : Address} :
    ofText text = .ok address ↔ Spelled text address := by
  rw [← parse?_eq_some_iff, ofText]
  cases parse? text.toList with
  | none => simp
  | some found => simp

theorem ofText_eq_error_iff {text : String} {error : ScanError} :
    ofText text = .error error ↔
      (¬∃ address, Spelled text address) ∧
        error = .malformed "device address" text := by
  simp only [← parse?_eq_some_iff]
  rw [ofText]
  cases parse? text.toList with
  | none => simp [eq_comm]
  | some found => simp

/-! ## Writing -/

theorem text_eq_join (address : Address) :
    address.text = Numeral.hex 4 address.domain.toNat ++ ":" ++
      Numeral.hex 2 address.bus.toNat ++ ":" ++
      Numeral.hex 2 address.device.toNat ++ "." ++
      Numeral.hex 1 address.function.toNat := rfl

/-- The written form reads back, unless the address is out of range. -/
theorem spelled_text_iff {address other : Address} :
    Spelled address.text other ↔ other = address ∧ address.InRange := by
  have hcolon := @Numeral.notMem_hex ':' (by decide) (by decide)
  have hpoint := @Numeral.notMem_hex '.' (by decide) (by decide)
  rw [← parse?_eq_some_iff, text_eq_join, toList_join,
    parse?_join (hcolon _ _) (hcolon _ _) (hpoint _ _) (hcolon _ _)]
  simp only [isField_hex_iff, Nat.one_le_ofNat, Nat.ofNat_pos, Nat.le_refl,
    Nat.one_pos]
  constructor
  · rintro ⟨hrange, ⟨hdomain, _⟩, ⟨hbus, _⟩, ⟨hdevice, _⟩, hfunction, _⟩
    have hsame : other = address := by
      cases other
      cases address
      simp only [UInt16.toNat_inj, UInt8.toNat_inj]
        at hdomain hbus hdevice hfunction
      simp only [mk.injEq]
      exact ⟨hdomain, hbus, hdevice, hfunction⟩
    rw [hsame] at hrange
    exact ⟨hsame, hrange⟩
  · rintro ⟨rfl, hrange⟩
    have ⟨_, hfunction⟩ := hrange
    exact ⟨hrange, ⟨rfl, other.domain.toNat_lt⟩, ⟨rfl, other.bus.toNat_lt⟩,
      ⟨rfl, other.device.toNat_lt⟩, rfl, by omega⟩

/-- Reading a text gives the address that it spells, and fails on every text
that spells none.  The written form of an address spells it if and only if it
is in range; otherwise it spells none. -/
theorem ofText_iff_spelled :
    (∀ text address, ofText text = .ok address ↔ Spelled text address) ∧
      (∀ text error, ofText text = .error error ↔
        (¬∃ address, Spelled text address) ∧
          error = .malformed "device address" text) ∧
      ∀ address, ofText address.text =
        if address.InRange then .ok address
        else .error (.malformed "device address" address.text) := by
  refine ⟨fun _ _ => ofText_eq_ok_iff, fun _ _ => ofText_eq_error_iff, ?_⟩
  intro address
  split
  next hrange =>
    exact ofText_eq_ok_iff.mpr (spelled_text_iff.mpr ⟨rfl, hrange⟩)
  next hrange =>
    refine ofText_eq_error_iff.mpr ⟨?_, rfl⟩
    rintro ⟨other, hspelled⟩
    exact hrange (spelled_text_iff.mp hspelled).2

end Address

end PciInventory
