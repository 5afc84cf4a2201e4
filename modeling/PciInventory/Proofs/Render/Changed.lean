import PciInventory.Proofs.Topology.Changed
import PciInventory.Render

/-!
# What is shown of changed devices

A listing is made of the blocks of its devices, and a tree of these blocks and
the headers of the walk.  If a change of devices keeps what the walk reads of
them, and the block of each device in some view, it changes nothing that is shown
of the topology in this view.
-/

namespace PciInventory.Render

variable {topology : Topology} {view : View} {change : Device → Device}

/-- The change keeps the blocks of these devices in this view. -/
def KeepsBlocks (view : View) (change : Device → Device)
    (devices : List Device) : Prop :=
  ∀ device ∈ devices, ∀ indent,
    block indent view (change device) = block indent view device

theorem flatMap_block_map {devices : List Device}
    (hkeeps : KeepsBlocks view change devices) (indent : String) :
    (devices.map change).flatMap (block indent view) =
      devices.flatMap (block indent view) := by
  rw [List.flatMap_map]
  exact List.flatMap_congr fun device hdevice => hkeeps device hdevice indent

theorem busLines_map (hkeeps : KeepsBlocks view change topology.devices)
    (visit : Visit) :
    busLines (topology.mapDevices change) view visit =
      busLines topology view visit := by
  have hbus : (topology.mapDevices change).bus? visit.bus =
      topology.bus? visit.bus := rfl
  unfold busLines
  rw [hbus]
  cases topology.bus? visit.bus with
  | none => rfl
  | some bus =>
      have hdevices : KeepsBlocks view change (topology.devicesOn bus) :=
        fun device hdevice =>
          hkeeps device (Topology.mem_devices_of_mem_devicesOn hdevice)
      simp only [Topology.devicesOn_map, flatMap_block_map hdevices]

theorem unlisted_map (topology : Topology) (change : Device → Device)
    (visits : List Visit) :
    unlisted (topology.mapDevices change) visits =
      (unlisted topology visits).map change := by
  have hlisted : listedPositions (topology.mapDevices change) visits =
      listedPositions topology visits := rfl
  unfold unlisted
  rw [hlisted]
  unfold Topology.mapDevices
  simp only [List.zipIdx_map, List.filter_map, List.map_map]
  rfl

theorem mem_devices_of_mem_unlisted {visits : List Visit} {device : Device}
    (hdevice : device ∈ unlisted topology visits) :
    device ∈ topology.devices := by
  obtain ⟨entry, hentry, rfl⟩ := List.mem_map.mp hdevice
  exact List.fst_mem_of_mem_zipIdx (List.mem_filter.mp hentry).1

theorem unlistedLines_map
    (hkeeps : KeepsBlocks view change topology.devices)
    (visits : List Visit) :
    unlistedLines view (unlisted (topology.mapDevices change) visits) =
      unlistedLines view (unlisted topology visits) := by
  have hdevices : KeepsBlocks view change (unlisted topology visits) :=
    fun device hdevice => hkeeps device (mem_devices_of_mem_unlisted hdevice)
  have hblocks := flatMap_block_map hdevices "  "
  rw [unlisted_map]
  cases hunlisted : unlisted topology visits with
  | nil => rfl
  | cons device rest =>
      rw [hunlisted] at hblocks
      exact congrArg ("[unlisted buses]" :: ·) hblocks

section Shown

variable (hlinks : topology.KeepsLinks change)
  (hkeeps : KeepsBlocks view change topology.devices)

include hlinks hkeeps

theorem tree_map :
    tree (topology.mapDevices change) view = tree topology view := by
  have hvisits : (topology.mapDevices change).visits = topology.visits := by
    unfold Topology.visits
    rw [Topology.walk_map hlinks]
  unfold tree
  simp only [hvisits, unlistedLines_map hkeeps]
  congr 1
  exact List.flatMap_congr fun visit _ => busLines_map hkeeps visit

theorem shown_map (asTree : Bool) :
    shown (topology.mapDevices change) view asTree =
      shown topology view asTree := by
  have hwarnings : (topology.mapDevices change).walkWarnings =
      topology.walkWarnings := by
    unfold Topology.walkWarnings
    rw [Topology.walk_map hlinks]
  have hlisting : listing (topology.mapDevices change) view =
      listing topology view := flatMap_block_map hkeeps ""
  unfold shown
  rw [tree_map hlinks hkeeps, hwarnings, hlisting]

end Shown

end PciInventory.Render
