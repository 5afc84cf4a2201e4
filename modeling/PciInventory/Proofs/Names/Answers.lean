import PciInventory.Proofs.Names.Memory

/-!
# Answers and their history

After any history an answer is what the searches find, if the lookups that it
presupposes were made in their order, and empty otherwise.  A fresh resolver
that makes just those lookups gives the same answer, so remembering changes
nothing but the work done.
-/

namespace PciInventory.Names

theorem nameOfVendor_eq (found : Option KnownVendor) :
    Resolver.nameOfVendor found =
      ((found.map KnownVendor.entry).map VendorEntry.name).getD "" := by
  cases found with
  | none => rfl
  | some known => rfl

theorem nameOfDevice_eq (found : Option DeviceEntry) :
    Resolver.nameOfDevice found =
      (found.map DeviceEntry.name).getD "" := by
  cases found with
  | none => rfl
  | some entry => rfl

namespace Remembers

variable {database : Bytes} {earlier : List Query} {resolver : Resolver}

theorem knownVendor?_cases (hmemory : Remembers database earlier resolver)
    {vendor : UInt16} (hasked : .vendor vendor ∈ earlier) :
    (findVendor database vendor = none ∧
        resolver.knownVendor? vendor = none) ∨
      ∃ known, findVendor database vendor = some known.entry ∧
        resolver.knownVendor? vendor = some known := by
  have hfound := hmemory.map_knownVendor? hasked
  cases hknown : resolver.knownVendor? vendor with
  | none =>
      rw [hknown] at hfound
      exact Or.inl ⟨hfound.symm, rfl⟩
  | some known =>
      rw [hknown] at hfound
      exact Or.inr ⟨known, hfound.symm, rfl⟩

theorem vendor_answer (hmemory : Remembers database earlier resolver)
    (vendor : UInt16) :
    (resolver.vendorName vendor).1 =
      ((findVendor database vendor).map VendorEntry.name).getD "" := by
  cases hlookup : resolver.vendors.lookup vendor with
  | none =>
      rw [Resolver.vendorName_of_none hlookup, hmemory.content]
      simp [nameOfVendor_eq, Function.comp_def]
  | some found =>
      have hasked : .vendor vendor ∈ earlier := by
        by_cases hasked : .vendor vendor ∈ earlier
        · exact hasked
        · rw [hmemory.lookup_eq_none_iff.mpr hasked] at hlookup
          contradiction
      have hfound := hmemory.map_knownVendor? hasked
      rw [Resolver.knownVendor?, hlookup] at hfound
      rw [Resolver.vendorName_of_some hlookup, nameOfVendor_eq, ← hfound]
      rfl

theorem device_answer (hmemory : Remembers database earlier resolver)
    {vendor : UInt16} (hasked : .vendor vendor ∈ earlier)
    (device : UInt16) :
    (resolver.deviceName vendor device).1 =
      ((deviceFound? database vendor device).map
        DeviceEntry.name).getD "" := by
  unfold deviceFound?
  rcases hmemory.knownVendor?_cases hasked with
    ⟨hfound, hvendor⟩ | ⟨known, hfound, hvendor⟩
  · rw [Resolver.deviceName_of_unknown hvendor, hfound]
    rfl
  · have hdevice := hmemory.devices vendor known hvendor device
    rw [hfound, Option.bind_some]
    cases hlookup : known.devices.lookup device with
    | none =>
        rw [Resolver.deviceName_of_none hvendor hlookup, hmemory.content]
        exact nameOfDevice_eq _
    | some found =>
        rw [hlookup] at hdevice
        split at hdevice
        next =>
          rw [Resolver.deviceName_of_some hvendor hlookup,
            Option.some.inj hdevice, nameOfDevice_eq]
        next => contradiction

/-- A device is known once it was asked for after its vendor. -/
theorem knownDevice?_eq (hmemory : Remembers database earlier resolver)
    (vendor device : UInt16) :
    resolver.knownDevice? vendor device =
      if [.vendor vendor, .device vendor device].Sublist earlier then
        deviceFound? database vendor device
      else none := by
  unfold Resolver.knownDevice? deviceFound?
  by_cases hasked : .vendor vendor ∈ earlier
  · rcases hmemory.knownVendor?_cases hasked with
      ⟨hfound, hvendor⟩ | ⟨known, hfound, hvendor⟩
    · rw [hfound, hvendor]
      simp
    · have hdevice := hmemory.devices vendor known hvendor device
      rw [hfound, hvendor]
      simp only [hdevice, Option.bind_some]
      split <;> rfl
  · have hnever :
        ¬[.vendor vendor, .device vendor device].Sublist earlier :=
      fun hboth => hasked (hboth.subset List.mem_cons_self)
    rw [hmemory.knownVendor?_eq_none hasked, if_neg hnever]

/-- The answer to any query, after any history. -/
theorem answer (hmemory : Remembers database earlier resolver)
    (query : Query) :
    (resolver.ask query).1 =
      if query.prerequisites.Sublist earlier then searched database query
      else .name "" := by
  cases query with
  | vendor vendor =>
      rw [Query.prerequisites, if_pos (List.nil_sublist earlier)]
      exact congrArg Answer.name (hmemory.vendor_answer vendor)
  | device vendor device =>
      by_cases hasked : .vendor vendor ∈ earlier
      · rw [Query.prerequisites,
          if_pos (List.singleton_sublist.mpr hasked)]
        exact congrArg Answer.name (hmemory.device_answer hasked device)
      · have hnever : ¬[.vendor vendor].Sublist earlier :=
          fun hvendor => hasked (List.singleton_sublist.mp hvendor)
        have hvendor := hmemory.knownVendor?_eq_none hasked
        have hempty : (resolver.deviceName vendor device).1 = "" := by
          rw [Resolver.deviceName_of_unknown hvendor]
        rw [Query.prerequisites, if_neg hnever]
        exact congrArg Answer.name hempty
  | subsystem vendor device subsystemVendor subsystemDevice =>
      have hdevice := hmemory.knownDevice?_eq vendor device
      have hname : resolver.subsystemName vendor device subsystemVendor
          subsystemDevice =
          ((resolver.knownDevice? vendor device).map fun entry =>
            findSubsystem database entry.subsystemsAt subsystemVendor
              subsystemDevice).getD "" := by
        rw [Resolver.subsystemName, hmemory.content]
        cases resolver.knownDevice? vendor device with
        | none => rfl
        | some entry => rfl
      by_cases hasked : (Query.subsystem vendor device subsystemVendor
          subsystemDevice).prerequisites.Sublist earlier
      · have hknown := hdevice.trans (if_pos hasked)
        rw [if_pos hasked]
        simp only [Resolver.ask, hname, hknown, searched]
      · have hunknown := hdevice.trans (if_neg hasked)
        rw [if_neg hasked]
        simp only [Resolver.ask, hname, hunknown, Option.map_none,
          Option.getD_none]
  | deviceClass code =>
      rw [Query.prerequisites, if_pos (List.nil_sublist earlier)]
      have hblock := hmemory.classBlock_eq
      simp only [Resolver.ask, Resolver.classNames_eq, hblock, searched]
      rw [hmemory.content]

end Remembers

/-! ## Runs -/

theorem askAll_append (resolver : Resolver) (first second : List Query) :
    resolver.askAll (first ++ second) =
      ((resolver.askAll first).1 ++
          ((resolver.askAll first).2.askAll second).1,
        ((resolver.askAll first).2.askAll second).2) := by
  induction first generalizing resolver with
  | nil => rfl
  | cons query rest ih =>
      rw [List.cons_append, Resolver.askAll_cons, Resolver.askAll_cons, ih]
      rfl

theorem askAll_length (resolver : Resolver) (queries : List Query) :
    (resolver.askAll queries).1.length = queries.length := by
  induction queries generalizing resolver with
  | nil => rfl
  | cons query rest ih =>
      rw [Resolver.askAll_cons, List.length_cons, ih, List.length_cons]

/-- The answer given within a run, by what was asked before it. -/
theorem getElem?_askAll (database : Bytes) (earlier : List Query)
    (query : Query) (later : List Query) :
    ((Resolver.ofDatabase database).askAll
        (earlier ++ query :: later)).1[earlier.length]? =
      some (if query.prerequisites.Sublist earlier then
        searched database query
      else .name "") := by
  have hmemory := (Remembers.initial database).askAll earlier
  have hlength := askAll_length (Resolver.ofDatabase database) earlier
  rw [List.nil_append] at hmemory
  rw [askAll_append, Resolver.askAll_cons,
    List.getElem?_append_right (Nat.le_of_eq hlength), hlength,
    Nat.sub_self, List.getElem?_cons_zero, hmemory.answer]

theorem getLast?_askAll_prerequisites (database : Bytes) (query : Query) :
    ((Resolver.ofDatabase database).askAll
        (query.prerequisites ++ [query])).1.getLast? =
      some (searched database query) := by
  have hlast := getElem?_askAll database query.prerequisites query []
  have hlength := askAll_length (Resolver.ofDatabase database)
    (query.prerequisites ++ [query])
  rw [if_pos (List.Sublist.refl _)] at hlast
  rw [List.length_append, List.length_singleton] at hlength
  rw [List.getLast?_eq_getElem?, hlength, Nat.add_sub_cancel]
  exact hlast

/-- An answer is empty unless the lookups it presupposes were made before it in
their order; then it is the last answer of a fresh resolver that makes those
lookups and this one.  Vendors and classes presuppose nothing. -/
theorem answer_eq_fresh_answer (database : Bytes) (earlier : List Query)
    (query : Query) (later : List Query) :
    ((Resolver.ofDatabase database).askAll
        (earlier ++ query :: later)).1[earlier.length]? =
      if query.prerequisites.Sublist earlier then
        ((Resolver.ofDatabase database).askAll
          (query.prerequisites ++ [query])).1.getLast?
      else some (.name "") := by
  rw [getElem?_askAll, getLast?_askAll_prerequisites]
  split <;> rfl

end PciInventory.Names
