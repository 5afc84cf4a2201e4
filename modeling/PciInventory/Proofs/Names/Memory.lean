import PciInventory.Names.Query

/-!
# What a resolver remembers

The memory of a resolver is a function of the lookups made so far: a vendor is
remembered once it was asked for, a device once it was asked for after its
vendor, and what is remembered is what a search would find again.  One lookup
preserves this whatever it asks for, so an answer does not depend on the
history beyond the lookups that it presupposes.
-/

namespace PciInventory.Names

/-- The lookups that have to be made before this one, in this order. -/
def Query.prerequisites : Query → List Query
  | .vendor _ => []
  | .device maker _ => [.vendor maker]
  | .subsystem maker chip _ _ => [.vendor maker, .device maker chip]
  | .deviceClass _ => []

def deviceFound? (database : Bytes) (vendor device : UInt16) :
    Option DeviceEntry :=
  (findVendor database vendor).bind fun entry =>
    findDevice database entry.devicesAt device

/-- What the searches find for a query, without any memory. -/
def searched (database : Bytes) : Query → Answer
  | .vendor vendor =>
      .name (((findVendor database vendor).map VendorEntry.name).getD "")
  | .device vendor device =>
      .name (((deviceFound? database vendor device).map
        DeviceEntry.name).getD "")
  | .subsystem vendor device subsystemVendor subsystemDevice =>
      .name (((deviceFound? database vendor device).map fun entry =>
        findSubsystem database entry.subsystemsAt subsystemVendor
          subsystemDevice).getD "")
  | .deviceClass code =>
      .classNames (((classBlock? database).map fun position =>
        findClass database position (UInt8.ofNat (code / 0x10000))
          (UInt8.ofNat (code / 0x100)) (UInt8.ofNat code)).getD
            ClassNames.unknown)

theorem pair_sublist_concat_iff {first second query : Query}
    {earlier : List Query} :
    [first, second].Sublist (earlier ++ [query]) ↔
      [first, second].Sublist earlier ∨
        first ∈ earlier ∧ query = second := by
  have hfirst : [first].Sublist earlier.reverse ↔ first ∈ earlier := by
    rw [List.singleton_sublist, List.mem_reverse]
  rw [← List.reverse_sublist, List.reverse_append, List.reverse_singleton,
    List.singleton_append, List.sublist_cons_iff, List.reverse_sublist,
    ← hfirst]
  constructor
  · intro hsublist
    rcases hsublist with hold | ⟨rest, hsplit, hrest⟩
    · exact Or.inl hold
    · cases hsplit
      exact Or.inr ⟨hrest, rfl⟩
  · intro hsublist
    rcases hsublist with hold | ⟨hrest, rfl⟩
    · exact Or.inl hold
    · exact Or.inr ⟨[first], rfl, hrest⟩

theorem lookup_cons_of_ne {Value : Type} {key other : UInt16}
    (hne : other ≠ key) (value : Value)
    (entries : List (UInt16 × Value)) :
    ((key, value) :: entries).lookup other = entries.lookup other := by
  have hbeq : (other == key) = false := beq_eq_false_iff_ne.mpr hne
  rw [List.lookup_cons, hbeq]

/-! ## One lookup -/

namespace Resolver

def withVendor (resolver : Resolver) (vendor : UInt16)
    (found : Option KnownVendor) : Resolver :=
  { resolver with vendors := (vendor, found) :: resolver.vendors }

variable {resolver : Resolver} {vendor device other : UInt16}

theorem lookup_withVendor_self (found : Option KnownVendor) :
    (resolver.withVendor vendor found).vendors.lookup vendor =
      some found :=
  List.lookup_cons_self

theorem lookup_withVendor_of_ne (hne : other ≠ vendor)
    (found : Option KnownVendor) :
    (resolver.withVendor vendor found).vendors.lookup other =
      resolver.vendors.lookup other :=
  lookup_cons_of_ne hne found resolver.vendors

theorem knownVendor?_withVendor_self (found : Option KnownVendor) :
    (resolver.withVendor vendor found).knownVendor? vendor = found := by
  rw [knownVendor?, lookup_withVendor_self]
  rfl

theorem knownVendor?_withVendor_of_ne (hne : other ≠ vendor)
    (found : Option KnownVendor) :
    (resolver.withVendor vendor found).knownVendor? other =
      resolver.knownVendor? other := by
  rw [knownVendor?, lookup_withVendor_of_ne hne]
  rfl

theorem vendorName_of_some {found : Option KnownVendor}
    (hlookup : resolver.vendors.lookup vendor = some found) :
    resolver.vendorName vendor = (nameOfVendor found, resolver) := by
  rw [vendorName, hlookup]

theorem vendorName_of_none
    (hlookup : resolver.vendors.lookup vendor = none) :
    resolver.vendorName vendor =
      let found := (findVendor resolver.database vendor).map fun entry =>
        ⟨entry, []⟩
      (nameOfVendor found, resolver.withVendor vendor found) := by
  rw [vendorName, hlookup]
  rfl

theorem deviceName_of_unknown
    (hvendor : resolver.knownVendor? vendor = none) :
    resolver.deviceName vendor device = ("", resolver) := by
  rw [deviceName, hvendor]

theorem deviceName_of_some {known : KnownVendor}
    {found : Option DeviceEntry}
    (hvendor : resolver.knownVendor? vendor = some known)
    (hlookup : known.devices.lookup device = some found) :
    resolver.deviceName vendor device =
      (nameOfDevice found, resolver) := by
  simp only [deviceName, hvendor, hlookup]

theorem deviceName_of_none {known : KnownVendor}
    (hvendor : resolver.knownVendor? vendor = some known)
    (hlookup : known.devices.lookup device = none) :
    resolver.deviceName vendor device =
      let found :=
        findDevice resolver.database known.entry.devicesAt device
      (nameOfDevice found,
        resolver.withVendor vendor
          (some ⟨known.entry, (device, found) :: known.devices⟩)) := by
  simp only [deviceName, hvendor, hlookup]
  rfl

theorem classNames_eq (resolver : Resolver) (code : Nat) :
    resolver.classNames code =
      let block := resolver.classBlock.getD (classBlock? resolver.database)
      ((block.map fun position =>
          findClass resolver.database position
            (UInt8.ofNat (code / 0x10000)) (UInt8.ofNat (code / 0x100))
            (UInt8.ofNat code)).getD ClassNames.unknown,
        { resolver with classBlock := some block }) := by
  unfold classNames
  cases resolver.classBlock with
  | none =>
      rw [Option.getD_none]
      cases classBlock? resolver.database <;> rfl
  | some block => cases block <;> rfl

end Resolver

/-! ## The memory -/

/-- The memory after the lookups `earlier`. -/
structure Remembers (database : Bytes) (earlier : List Query)
    (resolver : Resolver) : Prop where
  content : resolver.database = database
  vendors : ∀ vendor,
    (resolver.vendors.lookup vendor).map (Option.map KnownVendor.entry) =
      if .vendor vendor ∈ earlier then some (findVendor database vendor)
      else none
  devices : ∀ vendor known, resolver.knownVendor? vendor = some known →
    ∀ device, known.devices.lookup device =
      if [.vendor vendor, .device vendor device].Sublist earlier then
        some (findDevice database known.entry.devicesAt device)
      else none
  classes : ∀ block, resolver.classBlock = some block →
    block = classBlock? database

namespace Remembers

variable {database : Bytes} {earlier : List Query} {resolver : Resolver}

theorem initial (database : Bytes) :
    Remembers database [] (Resolver.ofDatabase database) := by
  constructor
  · rfl
  · simp [Resolver.ofDatabase]
  · intro vendor known hknown
    simp [Resolver.ofDatabase, Resolver.knownVendor?] at hknown
  · intro block hblock
    simp [Resolver.ofDatabase] at hblock

theorem lookup_eq_none_iff (hmemory : Remembers database earlier resolver)
    {vendor : UInt16} :
    resolver.vendors.lookup vendor = none ↔ .vendor vendor ∉ earlier := by
  have hvendor := hmemory.vendors vendor
  split at hvendor
  next hasked =>
    obtain ⟨found, hfound, _⟩ := Option.map_eq_some_iff.mp hvendor
    simp [hfound, hasked]
  next hnot =>
    rw [Option.map_eq_none_iff] at hvendor
    simp [hvendor, hnot]

/-- A vendor that was asked for is known as far as a search finds it. -/
theorem map_knownVendor? (hmemory : Remembers database earlier resolver)
    {vendor : UInt16} (hasked : .vendor vendor ∈ earlier) :
    (resolver.knownVendor? vendor).map KnownVendor.entry =
      findVendor database vendor := by
  have hvendor := hmemory.vendors vendor
  rw [if_pos hasked] at hvendor
  obtain ⟨found, hfound, hentry⟩ := Option.map_eq_some_iff.mp hvendor
  rw [Resolver.knownVendor?, hfound]
  exact hentry

theorem knownVendor?_eq_none (hmemory : Remembers database earlier resolver)
    {vendor : UInt16} (hnot : .vendor vendor ∉ earlier) :
    resolver.knownVendor? vendor = none := by
  rw [Resolver.knownVendor?, hmemory.lookup_eq_none_iff.mpr hnot]
  rfl

theorem asked_of_knownVendor?
    (hmemory : Remembers database earlier resolver) {vendor : UInt16}
    {known : KnownVendor}
    (hknown : resolver.knownVendor? vendor = some known) :
    .vendor vendor ∈ earlier := by
  by_cases hasked : .vendor vendor ∈ earlier
  · exact hasked
  · rw [hmemory.knownVendor?_eq_none hasked] at hknown
    contradiction

/-- A lookup that leaves the resolver alone and is no new vendor or device. -/
theorem concat_of_unchanged (hmemory : Remembers database earlier resolver)
    {query : Query}
    (hvendor : ∀ vendor, query = .vendor vendor → query ∈ earlier)
    (hdevice : ∀ vendor device, query = .device vendor device →
      resolver.knownVendor? vendor ≠ none →
      [.vendor vendor, query].Sublist earlier) :
    Remembers database (earlier ++ [query]) resolver := by
  constructor
  · exact hmemory.content
  · intro vendor
    have hiff : .vendor vendor ∈ earlier ++ [query] ↔
        .vendor vendor ∈ earlier := by
      rw [List.mem_append, List.mem_singleton]
      constructor
      · intro hasked
        rcases hasked with hold | hlast
        · exact hold
        · exact hlast ▸ hvendor vendor hlast.symm
      · exact Or.inl
    rw [hmemory.vendors vendor]
    simp only [hiff]
  · intro vendor known hknown device
    have hiff :
        [.vendor vendor, .device vendor device].Sublist
            (earlier ++ [query]) ↔
          [.vendor vendor, .device vendor device].Sublist earlier := by
      rw [pair_sublist_concat_iff]
      constructor
      · intro hasked
        rcases hasked with hold | ⟨_, hlast⟩
        · exact hold
        · rw [← hlast]
          exact hdevice vendor device hlast (by simp [hknown])
      · exact Or.inl
    rw [hmemory.devices vendor known hknown device]
    simp only [hiff]
  · exact hmemory.classes

theorem vendorName (hmemory : Remembers database earlier resolver)
    (vendor : UInt16) :
    Remembers database (earlier ++ [.vendor vendor])
      (resolver.vendorName vendor).2 := by
  cases hlookup : resolver.vendors.lookup vendor with
  | some found =>
      rw [Resolver.vendorName_of_some hlookup]
      apply hmemory.concat_of_unchanged
      · intro other hother
        by_cases hasked : .vendor vendor ∈ earlier
        · exact hasked
        · rw [hmemory.lookup_eq_none_iff.mpr hasked] at hlookup
          contradiction
      · intro other device hdevice
        contradiction
  | none =>
      rw [Resolver.vendorName_of_none hlookup]
      have hnot := hmemory.lookup_eq_none_iff.mp hlookup
      constructor
      · exact hmemory.content
      · intro other
        by_cases hother : other = vendor
        · subst other
          rw [Resolver.lookup_withVendor_self, hmemory.content]
          simp [Function.comp_def]
        · have hmem : .vendor other ∈ earlier ++ [.vendor vendor] ↔
              .vendor other ∈ earlier := by simp [hother]
          rw [Resolver.lookup_withVendor_of_ne hother]
          simp only [hmem]
          exact hmemory.vendors other
      · intro other known hknown device
        have hsublist :
            [.vendor other, .device other device].Sublist
                (earlier ++ [.vendor vendor]) ↔
              [.vendor other, .device other device].Sublist earlier := by
          simp [pair_sublist_concat_iff]
        simp only [hsublist]
        by_cases hother : other = vendor
        · subst other
          have hnever : ¬[.vendor vendor, .device vendor device].Sublist
              earlier :=
            fun hasked => hnot (hasked.subset List.mem_cons_self)
          rw [Resolver.knownVendor?_withVendor_self,
            Option.map_eq_some_iff] at hknown
          obtain ⟨entry, _, rfl⟩ := hknown
          rw [if_neg hnever]
          rfl
        · rw [Resolver.knownVendor?_withVendor_of_ne hother] at hknown
          exact hmemory.devices other known hknown device
      · exact hmemory.classes

theorem deviceName (hmemory : Remembers database earlier resolver)
    (vendor device : UInt16) :
    Remembers database (earlier ++ [.device vendor device])
      (resolver.deviceName vendor device).2 := by
  cases hvendor : resolver.knownVendor? vendor with
  | none =>
      rw [Resolver.deviceName_of_unknown hvendor]
      apply hmemory.concat_of_unchanged
      · intro other hother
        contradiction
      · intro other chip hquery hother
        cases hquery
        exact (hother hvendor).elim
  | some known =>
      have hdevices := hmemory.devices vendor known hvendor
      cases hlookup : known.devices.lookup device with
      | some found =>
          rw [Resolver.deviceName_of_some hvendor hlookup]
          apply hmemory.concat_of_unchanged
          · intro other hother
            contradiction
          · intro other chip hquery _
            cases hquery
            by_cases hasked :
                [.vendor vendor, .device vendor device].Sublist earlier
            · exact hasked
            · have hnone := hdevices device
              rw [if_neg hasked, hlookup] at hnone
              contradiction
      | none =>
          rw [Resolver.deviceName_of_none hvendor hlookup]
          have hasked := hmemory.asked_of_knownVendor? hvendor
          constructor
          · exact hmemory.content
          · intro other
            have hmem : .vendor other ∈
                  earlier ++ [.device vendor device] ↔
                .vendor other ∈ earlier := by simp
            simp only [hmem]
            by_cases hother : other = vendor
            · subst other
              have hfound := hmemory.map_knownVendor? hasked
              rw [hvendor] at hfound
              rw [Resolver.lookup_withVendor_self, if_pos hasked]
              exact congrArg some hfound
            · rw [Resolver.lookup_withVendor_of_ne hother]
              exact hmemory.vendors other
          · intro other later hlater chip
            simp only [pair_sublist_concat_iff]
            by_cases hother : other = vendor
            · subst other
              rw [Resolver.knownVendor?_withVendor_self] at hlater
              cases hlater
              by_cases hchip : chip = device
              · subst chip
                simp [List.lookup_cons_self, hasked, hmemory.content]
              · have hne : Query.device vendor device ≠
                    .device vendor chip := by
                  simpa using Ne.symm hchip
                rw [lookup_cons_of_ne hchip, hdevices chip]
                simp [hne]
            · have hne : Query.device vendor device ≠
                  .device other chip := by
                intro heq
                cases heq
                exact hother rfl
              rw [Resolver.knownVendor?_withVendor_of_ne hother] at hlater
              rw [hmemory.devices other later hlater chip]
              simp [hne]
          · exact hmemory.classes

theorem classBlock_eq (hmemory : Remembers database earlier resolver) :
    resolver.classBlock.getD (classBlock? resolver.database) =
      classBlock? database := by
  cases hblock : resolver.classBlock with
  | none => rw [Option.getD_none, hmemory.content]
  | some block =>
      rw [Option.getD_some]
      exact hmemory.classes block hblock

theorem classNames (hmemory : Remembers database earlier resolver)
    (code : Nat) :
    Remembers database (earlier ++ [.deviceClass code])
      (resolver.classNames code).2 := by
  have hkept : Remembers database (earlier ++ [.deviceClass code])
      resolver := by
    apply hmemory.concat_of_unchanged
    · intro vendor hvendor
      contradiction
    · intro vendor device hdevice
      contradiction
  rw [Resolver.classNames_eq]
  refine ⟨hkept.content, hkept.vendors, hkept.devices, ?_⟩
  intro block hblock
  rw [← Option.some.inj hblock]
  exact hmemory.classBlock_eq

/-- One lookup preserves the memory. -/
theorem ask (hmemory : Remembers database earlier resolver)
    (query : Query) :
    Remembers database (earlier ++ [query]) (resolver.ask query).2 := by
  cases query with
  | vendor vendor => exact hmemory.vendorName vendor
  | device vendor device => exact hmemory.deviceName vendor device
  | subsystem vendor device subsystemVendor subsystemDevice =>
      apply hmemory.concat_of_unchanged
      · intro other hother
        contradiction
      · intro other chip hquery
        contradiction
  | deviceClass code => exact hmemory.classNames code

theorem askAll (hmemory : Remembers database earlier resolver)
    (queries : List Query) :
    Remembers database (earlier ++ queries) (resolver.askAll queries).2 := by
  induction queries generalizing earlier resolver with
  | nil =>
      rw [List.append_nil]
      exact hmemory
  | cons query rest ih =>
      have hrest := ih (hmemory.ask query)
      rw [List.append_assoc] at hrest
      exact hrest

end Remembers

end PciInventory.Names
