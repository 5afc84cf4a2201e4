import PciInventory.Proofs.Render.Changed

/-!
# What does not depend on names

The name database gives a device its names and nothing else.  Two topologies of
the same records, built over any two databases, are therefore the same apart from
names, with the same devices skipped, the same failure and the same walk.  A
numeric view reads no name, so it shows both of them alike.
-/

namespace PciInventory

/-- Nothing is found. -/
def DeviceNames.unknown : DeviceNames :=
  ⟨"", "", .unknown, "", ""⟩

/-- The device with all that its record says, and without names. -/
def Device.unnamed (device : Device) : Device :=
  { device with names := .unknown }

def Topology.unnamed (topology : Topology) : Topology :=
  topology.mapDevices Device.unnamed

/-! ## Building -/

/-- Devices are the same apart from names over any two resolvers. -/
theorem Device.built_map_unnamed (records : List DeviceRecord)
    (resolver other : Names.Resolver) :
    (built records resolver).map unnamed =
      (built records other).map unnamed := by
  induction records generalizing resolver other with
  | nil => rfl
  | cons record rest ih =>
      cases hinterpret : interpret record with
      | error error =>
          rw [built_cons_error (build_eq_error_iff.mpr hinterpret),
            built_cons_error (build_eq_error_iff.mpr hinterpret)]
          exact ih resolver other
      | ok meaning =>
          obtain ⟨first, next, hfirst⟩ :=
            exists_build_of_interpret hinterpret resolver
          obtain ⟨second, later, hsecond⟩ :=
            exists_build_of_interpret hinterpret other
          rw [built_cons_ok hfirst, built_cons_ok hsecond]
          exact congrArg (_ :: ·) (ih next later)

/-- The same records are skipped, whatever the resolver. -/
theorem Modelled.warnings_ofRecords_eq (records : List DeviceRecord)
    (resolver other : Names.Resolver) :
    (ofRecords records resolver).warnings =
      (ofRecords records other).warnings := by
  induction records generalizing resolver other with
  | nil => rfl
  | cons record rest ih =>
      unfold ofRecords Device.build
      cases Device.interpret record with
      | error error =>
          simp only [Except.map]
          split
          next => exact congrArg (_ :: ·) (ih resolver other)
          next => rfl
      | ok meaning => exact ih _ _

namespace Topology

/-- The outcome apart from names is what the devices apart from names give. -/
theorem outcome_map_unnamed (records : List DeviceRecord)
    (buses : List BusRecord) (resolver : Names.Resolver) :
    (ofRecords records buses resolver).outcome.map unnamed =
      assemble
        (sortDevices ((Device.built records resolver).map Device.unnamed))
        buses := by
  have haddress (devices : List Device) : ∀ device ∈ devices,
      device.unnamed.address = device.address := fun _ _ => rfl
  rw [outcome_ofRecords, sortDevices_map (haddress _),
    assemble_map (haddress _)]
  rfl

theorem keepsLinks_unnamed (topology : Topology) :
    topology.KeepsLinks Device.unnamed :=
  fun _ _ => ⟨rfl, rfl⟩

theorem walk_unnamed (topology : Topology) :
    topology.unnamed.walk = topology.walk :=
  walk_map topology.keepsLinks_unnamed

end Topology

/-! ## Showing -/

namespace Render

variable {view : View}

theorem deviceLine_unnamed (hnumeric : view.numeric = true)
    (device : Device) :
    deviceLine device.unnamed view = deviceLine device view := by
  unfold deviceLine identity
  rw [if_pos hnumeric, if_pos hnumeric]
  rfl

theorem subsystemDetails_unnamed (hnumeric : view.numeric = true)
    (device : Device) :
    subsystemDetails device.unnamed view = subsystemDetails device view := by
  have hids : device.unnamed.subsystemIds? = device.subsystemIds? := rfl
  unfold subsystemDetails
  rw [hids, hnumeric]
  rfl

theorem details_unnamed (hnumeric : view.numeric = true)
    (device : Device) :
    details device.unnamed view = details device view := by
  unfold details
  rw [subsystemDetails_unnamed hnumeric]
  rfl

theorem block_unnamed (hnumeric : view.numeric = true) (device : Device)
    (indent : String) :
    block indent view device.unnamed = block indent view device := by
  unfold block
  rw [deviceLine_unnamed hnumeric, details_unnamed hnumeric]

theorem shown_unnamed (hnumeric : view.numeric = true)
    (topology : Topology) (asTree : Bool) :
    shown topology.unnamed view asTree = shown topology view asTree :=
  shown_map topology.keepsLinks_unnamed
    (fun device _ indent => block_unnamed hnumeric device indent) asTree

end Render

namespace Topology

variable {α : Type} {observe : Topology → α}

/-- What can be told without names is told alike over any two resolvers. -/
theorem outcome_map_eq_of_unnamed
    (hobserve : ∀ topology : Topology,
      observe topology.unnamed = observe topology)
    (records : List DeviceRecord) (buses : List BusRecord)
    (resolver other : Names.Resolver) :
    (ofRecords records buses resolver).outcome.map observe =
      (ofRecords records buses other).outcome.map observe := by
  have hfactor (outcome : Except ScanError Topology) :
      outcome.map observe = (outcome.map unnamed).map observe := by
    cases outcome with
    | error error => rfl
    | ok topology => exact congrArg Except.ok (hobserve topology).symm
  rw [hfactor, hfactor (ofRecords records buses other).outcome,
    outcome_map_unnamed, outcome_map_unnamed,
    Device.built_map_unnamed records resolver other]

/-- Over any two name databases, whatever was asked of them before, the same
records and buses give the same failure, or topologies that are the same apart
from names.  The same records are skipped for the same reasons, both topologies
have the same walk, and a numeric view shows the same text and gives the same
warnings, as a listing and as a tree, with details and without. -/
theorem outcome_apart_from_names (records : List DeviceRecord)
    (buses : List BusRecord) (resolver other : Names.Resolver) :
    let built := ofRecords records buses resolver
    let rebuilt := ofRecords records buses other
    built.warnings = rebuilt.warnings ∧
      built.outcome.map unnamed = rebuilt.outcome.map unnamed ∧
      built.outcome.map walk = rebuilt.outcome.map walk ∧
      ∀ verbose asTree,
        (built.outcome.map fun topology =>
            Render.shown topology ⟨true, verbose⟩ asTree) =
          rebuilt.outcome.map fun topology =>
            Render.shown topology ⟨true, verbose⟩ asTree := by
  intro built rebuilt
  refine ⟨Modelled.warnings_ofRecords_eq records resolver other, ?_, ?_, ?_⟩
  · apply outcome_map_eq_of_unnamed
    intro topology
    simp [unnamed, mapDevices, Device.unnamed]
  · exact outcome_map_eq_of_unnamed walk_unnamed records buses resolver other
  · intro verbose asTree
    apply outcome_map_eq_of_unnamed
    intro topology
    exact Render.shown_unnamed rfl topology asTree

end Topology

end PciInventory
