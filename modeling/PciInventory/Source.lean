import PciInventory.Topology.Basic

/-!
# Data sources

A source lists devices and buses, and may be able to save a topology.  Asking
it can change its state, for instance by loading a file.  A scan asks for the
devices first and for the buses only once the devices are modelled.
-/

namespace PciInventory

/-- A source of records with states `σ`. -/
structure DataSource (σ : Type) where
  listDevices : σ → Except ScanError (List DeviceRecord) × σ
  listBuses : σ → Except ScanError (List BusRecord) × σ
  save : σ → Topology → Except ScanError Unit × σ

namespace DataSource

def cannotSave : Except ScanError Unit :=
  .error (.unsupported "this data source cannot save a topology")

def readOnly {σ : Type}
    (listDevices : σ → Except ScanError (List DeviceRecord) × σ)
    (listBuses : σ → Except ScanError (List BusRecord) × σ) : DataSource σ :=
  { listDevices, listBuses, save := fun state _ => (cannotSave, state) }

end DataSource

namespace Topology

def scan {σ : Type} (source : DataSource σ) (state : σ)
    (resolver : Names.Resolver) : Build × σ :=
  match source.listDevices state with
  | (.error error, state) => (⟨.error error, [], resolver⟩, state)
  | (.ok devices, state) =>
      let modelled := Modelled.ofRecords devices resolver
      match modelled.outcome with
      | .error error =>
          (⟨.error error, modelled.warnings, modelled.resolver⟩, state)
      | .ok devices =>
          match source.listBuses state with
          | (.error error, state) =>
              (⟨.error error, modelled.warnings, modelled.resolver⟩, state)
          | (.ok buses, state) =>
              (⟨assemble (sortDevices devices) buses, modelled.warnings,
                modelled.resolver⟩, state)

end Topology

end PciInventory
