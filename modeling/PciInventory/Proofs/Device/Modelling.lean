import PciInventory.Proofs.Device.Attempts
import PciInventory.Proofs.Names.Answers

/-!
# What a device is modelled from

A device is a function of its record and the name database.  Its resolver has a
memory, but the lookups for one device ask for everything that their answers
presuppose, so the memory before them does not matter.  Hence the devices that a
list of records gives are given again by their own records.
-/

namespace PciInventory

namespace Names

/-- A resolver over a database, whatever it was asked for so far. -/
def Resolver.IsOver (database : Bytes) (resolver : Resolver) : Prop :=
  ∃ earlier, Remembers database earlier resolver

/-- Each query presupposes only queries that come before it, be it in the list
or in `asked`. -/
def Closed (asked : List Query) : List Query → Prop
  | [] => True
  | query :: rest =>
      query.prerequisites.Sublist asked ∧ Closed (asked ++ [query]) rest

theorem Remembers.answers_of_closed {database : Bytes}
    {earlier asked queries : List Query} {resolver : Resolver}
    (hmemory : Remembers database earlier resolver)
    (hasked : asked.Sublist earlier) (hclosed : Closed asked queries) :
    (resolver.askAll queries).1 = queries.map (searched database) := by
  induction queries generalizing earlier asked resolver with
  | nil => rfl
  | cons query rest ih =>
      obtain ⟨hquery, hrest⟩ := hclosed
      rw [Resolver.askAll_cons, hmemory.answer,
        if_pos (hquery.trans hasked), List.map_cons,
        ih (hmemory.ask query) (hasked.append_right [query]) hrest]

namespace Resolver.IsOver

variable {database : Bytes} {resolver : Resolver}

theorem ofDatabase (database : Bytes) :
    (Resolver.ofDatabase database).IsOver database :=
  ⟨[], Remembers.initial database⟩

theorem askAll (hover : resolver.IsOver database) (queries : List Query) :
    (resolver.askAll queries).2.IsOver database := by
  rcases hover with ⟨earlier, hmemory⟩
  exact ⟨earlier ++ queries, hmemory.askAll queries⟩

theorem answers (hover : resolver.IsOver database) {queries : List Query}
    (hclosed : Closed [] queries) :
    (resolver.askAll queries).1 = queries.map (searched database) := by
  rcases hover with ⟨earlier, hmemory⟩
  exact hmemory.answers_of_closed (List.nil_sublist earlier) hclosed

end Resolver.IsOver

end Names

/-! ## Names -/

namespace DeviceNames

open Names

variable {database : Bytes} {resolver other : Resolver} {config : ConfigSpace}
  {subsystem : Option SubsystemIds}

/-- The lookups for one device. -/
def queries (config : ConfigSpace) (subsystem : Option SubsystemIds) :
    List Query :=
  let vendorId := config.vendorId?.getD 0xffff
  let deviceId := config.deviceId?.getD 0xffff
  [.vendor vendorId, .device vendorId deviceId] ++
    (config.classCode?.map Query.deviceClass).toList ++
    match subsystem with
    | some ids =>
        [.subsystem vendorId deviceId ids.vendor ids.device,
          .vendor ids.vendor]
    | none => []

theorem queries_closed (config : ConfigSpace)
    (subsystem : Option SubsystemIds) : Closed [] (queries config subsystem) := by
  unfold queries
  cases config.classCode? <;> cases subsystem <;>
    simp [Closed, Query.prerequisites]

theorem resolver_resolve (config : ConfigSpace)
    (subsystem : Option SubsystemIds) (resolver : Resolver) :
    (resolve config subsystem resolver).2 =
      (resolver.askAll (queries config subsystem)).2 := by
  unfold resolve queries
  cases config.classCode? <;> cases subsystem <;> rfl

/-- The names are put together from the answers alone. -/
theorem names_resolve_congr
    (hanswers : (resolver.askAll (queries config subsystem)).1 =
      (other.askAll (queries config subsystem)).1) :
    (resolve config subsystem resolver).1 =
      (resolve config subsystem other).1 := by
  revert hanswers
  unfold queries resolve
  cases config.classCode? <;> cases subsystem <;> intro hanswers <;>
    simp_all [Resolver.ask]

theorem names_resolve_eq (hover : resolver.IsOver database)
    (hother : other.IsOver database) :
    (resolve config subsystem resolver).1 =
      (resolve config subsystem other).1 := by
  apply names_resolve_congr
  rw [hover.answers (queries_closed config subsystem),
    hother.answers (queries_closed config subsystem)]

theorem resolve_eq (hover : resolver.IsOver database)
    (config : ConfigSpace) (subsystem : Option SubsystemIds) :
    ∃ next : Resolver, next.IsOver database ∧
      resolve config subsystem resolver =
        ((resolve config subsystem (Resolver.ofDatabase database)).1,
          next) := by
  refine ⟨(resolver.askAll (queries config subsystem)).2,
    hover.askAll _, ?_⟩
  exact Prod.ext
    (names_resolve_eq hover (Resolver.IsOver.ofDatabase database))
    (resolver_resolve config subsystem resolver)

end DeviceNames

/-! ## Devices -/

/-- What a record and the database determine: the interpretation of the record,
and the names that a resolver without any memory gives. -/
structure Device.ModelledOver (database : Bytes) (device : Device) :
    Prop where
  interpret_eq :
    Device.interpret device.record = .ok (device.kind, device.capabilities)
  names_eq :
    device.names =
      (DeviceNames.resolve device.config device.subsystemIds?
        (Names.Resolver.ofDatabase database)).1

section Modelled

variable {database : Bytes} {resolver : Names.Resolver}

theorem Device.build_eq_ok {record : DeviceRecord} {device : Device}
    {next : Names.Resolver} (hover : resolver.IsOver database)
    (hbuilt : Device.build record resolver = .ok (device, next)) :
    device.record = record ∧ device.ModelledOver database ∧
      next.IsOver database := by
  unfold build at hbuilt
  cases hinterpret : interpret record with
  | error error =>
      rw [hinterpret] at hbuilt
      contradiction
  | ok meaning =>
      rcases meaning with ⟨kind, capabilities⟩
      obtain ⟨later, hlater, hnames⟩ :=
        DeviceNames.resolve_eq hover ⟨record.config⟩
          (subsystemIdsOf? ⟨record.config⟩ kind capabilities)
      rw [hinterpret] at hbuilt
      simp only [Except.map, hnames, Except.ok.injEq, Prod.mk.injEq]
        at hbuilt
      obtain ⟨rfl, rfl⟩ := hbuilt
      exact ⟨rfl, ⟨hinterpret, rfl⟩, hlater⟩

theorem Device.ModelledOver.exists_build {device : Device}
    (hmodelled : device.ModelledOver database)
    (hover : resolver.IsOver database) :
    ∃ next : Names.Resolver, next.IsOver database ∧
      Device.build device.record resolver = .ok (device, next) := by
  obtain ⟨next, hnext, hnames⟩ :=
    DeviceNames.resolve_eq hover device.config device.subsystemIds?
  refine ⟨next, hnext, ?_⟩
  rw [← hmodelled.names_eq] at hnames
  have hagain :
      DeviceNames.resolve ⟨device.record.config⟩
          (subsystemIdsOf? ⟨device.record.config⟩ device.kind
            device.capabilities) resolver =
        (device.names, next) := hnames
  unfold Device.build
  rw [hmodelled.interpret_eq]
  simp only [Except.map, hagain]

/-- Every device of a list of records is modelled from one of them. -/
theorem Device.built_modelled {records : List DeviceRecord}
    (hover : resolver.IsOver database) :
    ∀ device ∈ built records resolver,
      device.record ∈ records ∧ device.ModelledOver database := by
  induction records generalizing resolver with
  | nil => exact List.forall_mem_nil _
  | cons record rest ih =>
      intro device hdevice
      cases hbuilt : build record resolver with
      | ok first =>
          obtain ⟨hrecord, hmodelled, hnext⟩ := build_eq_ok hover hbuilt
          rw [built_cons_ok hbuilt] at hdevice
          rcases List.mem_cons.mp hdevice with rfl | hrest
          · exact ⟨hrecord ▸ List.mem_cons_self, hmodelled⟩
          · obtain ⟨hmem, hothers⟩ := ih hnext device hrest
            exact ⟨List.mem_cons_of_mem record hmem, hothers⟩
      | error error =>
          rw [built_cons_error hbuilt] at hdevice
          obtain ⟨hmem, hothers⟩ := ih hover device hdevice
          exact ⟨List.mem_cons_of_mem record hmem, hothers⟩

/-- The records of modelled devices give these devices again, and no warning. -/
theorem Modelled.ofRecords_records {devices : List Device}
    (hmodelled : ∀ device ∈ devices, device.ModelledOver database)
    (hover : resolver.IsOver database) :
    ∃ next : Names.Resolver,
      Modelled.ofRecords (devices.map Device.record) resolver =
        ⟨.ok devices, [], next⟩ := by
  induction devices generalizing resolver with
  | nil => exact ⟨resolver, rfl⟩
  | cons device rest ih =>
      obtain ⟨hdevice, hrest⟩ := List.forall_mem_cons.mp hmodelled
      obtain ⟨later, hlater, hbuilt⟩ := hdevice.exists_build hover
      obtain ⟨next, hothers⟩ := ih hrest hlater
      refine ⟨next, ?_⟩
      rw [List.map_cons, Modelled.ofRecords, hbuilt]
      simp only [hothers]
      rfl

end Modelled

end PciInventory
