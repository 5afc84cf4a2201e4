import PciInventory.Proofs.Render.Changed
import PciInventory.Proofs.Snapshot.Replay

/-!
# What is shown of a stored topology

A snapshot keeps the addresses of a topology, so the walk of the stored topology
is the same and every device has the same place in it.  It keeps everything that
names a device as well; what may be lost is only shown in a verbose view.
-/

namespace PciInventory

theorem Topology.keepsLinks_stored {topology : Topology}
    (hrange : ∀ device ∈ topology.devices, device.address.InRange) :
    topology.KeepsLinks Device.stored :=
  fun device hdevice => ⟨Device.stored_address (hrange device hdevice), rfl⟩

namespace Render

variable {topology : Topology} {view : View}

/-- In this view the devices of a topology are shown as they are stored. -/
def ShowsStored (topology : Topology) (view : View) : Prop :=
  ∀ device ∈ topology.devices,
    device.address.InRange ∧ (view.verbose → device.stored = device)

theorem block_stored {device : Device} (indent : String)
    (hrange : device.address.InRange)
    (hverbose : view.verbose → device.stored = device) :
    block indent view device.stored = block indent view device := by
  by_cases hview : view.verbose
  · rw [hverbose hview]
  · have hline : deviceLine device.stored view = deviceLine device view := by
      unfold deviceLine
      rw [Device.stored_address hrange]
      rfl
    unfold block
    rw [if_neg hview, if_neg hview, hline]

/-- A view that needs nothing that is lost shows the stored topology as it shows
the original one. -/
theorem shown_stored (hshows : ShowsStored topology view) (asTree : Bool) :
    shown topology.stored view asTree = shown topology view asTree := by
  have hlinks : topology.KeepsLinks Device.stored :=
    Topology.keepsLinks_stored fun device hdevice => (hshows device hdevice).1
  have hkeeps : KeepsBlocks view Device.stored topology.devices :=
    fun device hdevice indent =>
      block_stored indent (hshows device hdevice).1 (hshows device hdevice).2
  exact shown_map hlinks hkeeps asTree

end Render

end PciInventory
