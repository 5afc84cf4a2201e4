import Mathlib.Data.List.Defs
import PciInventory.Proofs.Capability.Listing
import PciInventory.Topology.Basic

/-!
# Records that are refused

The records of a scan are built one after the other, each with the resolver
that the one before it left.  A record is refused for its header or for one of
its capability chains, and either costs no more than its own device.  So
modelling records always gives a list of devices, and only the buses can make
a topology fail.
-/

namespace PciInventory

/-! ## One record -/

theorem Capability.costsOneDevice_of_compatibleChain {address : Address}
    {config : ConfigSpace} {error : ScanError}
    (hchain : CompatibleChain address config (.error error)) :
    error.CostsOneDevice := by
  obtain ⟨index, _, hstop⟩ := hchain
  cases hstop with
  | repeated => trivial
  | outside => trivial

theorem Capability.costsOneDevice_of_extendedChain {address : Address}
    {config : ConfigSpace} {error : ScanError}
    (hchain : ExtendedChain address config (.error error)) :
    error.CostsOneDevice := by
  obtain ⟨index, _, hstop⟩ := hchain
  cases hstop <;> trivial

namespace Device

variable {record : DeviceRecord} {rest : List DeviceRecord}
  {resolver next : Names.Resolver} {device : Device} {error : ScanError}

theorem costsOneDevice_of_interpret
    (hrefused : interpret record = .error error) : error.CostsOneDevice := by
  unfold interpret at hrefused
  simp only at hrefused
  split at hrefused
  next =>
    cases hrefused
    trivial
  next =>
    split at hrefused
    next =>
      cases hrefused
      trivial
    next kind hkind =>
      have hlisting :=
        Capability.listing_all record.address ⟨record.config⟩
      cases hall : Capability.all record.address ⟨record.config⟩ with
      | ok capabilities =>
          rw [hall] at hrefused
          contradiction
      | error fault =>
          rw [hall] at hrefused hlisting
          cases hrefused
          cases hlisting with
          | compatibleFault _ hfirst =>
              exact Capability.costsOneDevice_of_compatibleChain hfirst
          | extendedFault _ _ _ hsecond =>
              exact Capability.costsOneDevice_of_extendedChain hsecond

theorem build_eq_error_iff :
    build record resolver = .error error ↔
      interpret record = .error error := by
  unfold build
  cases interpret record with
  | error fault => simp only [Except.map, Except.error.injEq]
  | ok meaning => exact ⟨nofun, nofun⟩

theorem exists_build_of_interpret {kind : DeviceKind}
    {capabilities : List Capability}
    (hinterpret : interpret record = .ok (kind, capabilities))
    (resolver : Names.Resolver) :
    ∃ names next, build record resolver =
      .ok (⟨record, kind, capabilities, names⟩, next) := by
  rw [build, hinterpret]
  exact ⟨_, _, rfl⟩

theorem costsOneDevice_of_build
    (hrefused : build record resolver = .error error) :
    error.CostsOneDevice :=
  costsOneDevice_of_interpret (build_eq_error_iff.mp hrefused)

/-! ## All records -/

/-- What one record is built to.  The resolver goes on to the next record; a
refused record leaves it alone. -/
def attempt (record : DeviceRecord) :
    StateM Names.Resolver (Except ScanError Device) := fun resolver =>
  match build record resolver with
  | .ok (device, resolver) => (.ok device, resolver)
  | .error error => (.error error, resolver)

/-- The outcomes of all records, built one after the other. -/
def attempts (records : List DeviceRecord) (resolver : Names.Resolver) :
    List (Except ScanError Device) × Names.Resolver :=
  (records.mapM attempt).run resolver

def skipped (record : DeviceRecord) :
    Except ScanError Device → Option Warning
  | .ok _ => none
  | .error error => some (.skippedDevice record.address error)

/-- The devices of the records that are not refused. -/
def built (records : List DeviceRecord) (resolver : Names.Resolver) :
    List Device :=
  (attempts records resolver).1.filterMap Except.toOption

theorem attempts_cons (record : DeviceRecord) (rest : List DeviceRecord)
    (resolver : Names.Resolver) :
    attempts (record :: rest) resolver =
      let first := attempt record resolver
      let others := attempts rest first.2
      (first.1 :: others.1, others.2) := by
  unfold attempts
  rw [List.mapM_cons]
  rfl

theorem attempts_cons_ok
    (hbuilt : build record resolver = .ok (device, next)) :
    attempts (record :: rest) resolver =
      (.ok device :: (attempts rest next).1, (attempts rest next).2) := by
  have hattempt : attempt record resolver = (.ok device, next) := by
    simp only [attempt, hbuilt]
  rw [attempts_cons, hattempt]

theorem attempts_cons_error
    (hrefused : build record resolver = .error error) :
    attempts (record :: rest) resolver =
      (.error error :: (attempts rest resolver).1,
        (attempts rest resolver).2) := by
  have hattempt : attempt record resolver = (.error error, resolver) := by
    simp only [attempt, hrefused]
  rw [attempts_cons, hattempt]

theorem built_cons_ok
    (hbuilt : build record resolver = .ok (device, next)) :
    built (record :: rest) resolver = device :: built rest next := by
  rw [built, attempts_cons_ok hbuilt]
  rfl

theorem built_cons_error
    (hrefused : build record resolver = .error error) :
    built (record :: rest) resolver = built rest resolver := by
  rw [built, attempts_cons_error hrefused]
  rfl

theorem costsOneDevice_of_mem_attempts {records : List DeviceRecord}
    (hmem : .error error ∈ (attempts records resolver).1) :
    error.CostsOneDevice := by
  induction records generalizing resolver with
  | nil => exact (List.not_mem_nil hmem).elim
  | cons record rest ih =>
      cases hbuilt : build record resolver with
      | ok built =>
          rw [attempts_cons_ok hbuilt] at hmem
          rcases List.mem_cons.mp hmem with hfirst | hrest
          · contradiction
          · exact ih hrest
      | error fault =>
          rw [attempts_cons_error hbuilt] at hmem
          rcases List.mem_cons.mp hmem with hfirst | hrest
          · cases hfirst
            exact costsOneDevice_of_build hbuilt
          · exact ih hrest

end Device

/-! ## Modelling -/

/-- Modelling never ends at a record: each is built or skipped. -/
theorem Modelled.ofRecords_eq_attempts (records : List DeviceRecord)
    (resolver : Names.Resolver) :
    ofRecords records resolver =
      let attempts := Device.attempts records resolver
      { outcome := .ok (Device.built records resolver)
        warnings :=
          (List.zipWith Device.skipped records attempts.1).reduceOption
        resolver := attempts.2 } := by
  induction records generalizing resolver with
  | nil => rfl
  | cons record rest ih =>
      rw [ofRecords]
      cases hbuilt : Device.build record resolver with
      | ok built =>
          simp only [ih, Device.attempts_cons_ok hbuilt,
            Device.built_cons_ok hbuilt]
          rfl
      | error error =>
          simp only [ih, Device.attempts_cons_error hbuilt,
            Device.built_cons_error hbuilt,
            if_pos (Device.costsOneDevice_of_build hbuilt)]
          rfl

namespace Topology

theorem outcome_ofRecords (records : List DeviceRecord)
    (buses : List BusRecord) (resolver : Names.Resolver) :
    (ofRecords records buses resolver).outcome =
      assemble (sortDevices (Device.built records resolver)) buses := by
  unfold ofRecords
  rw [Modelled.ofRecords_eq_attempts]
  rfl

end Topology

end PciInventory
