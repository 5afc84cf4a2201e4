import PciInventory.Proofs.Topology.Walk

/-!
# Devices changed in place

A topology places its devices by their addresses, and its walk reads nothing of
a device but its address and the bus behind it.  A change of devices that keeps
addresses therefore changes neither their order nor the bus map, and one that
keeps the buses behind them as well does not change the walk.
-/

namespace PciInventory.Topology

/-- The topology with each device changed where it is. -/
def mapDevices (change : Device → Device) (topology : Topology) : Topology :=
  { topology with devices := topology.devices.map change }

/-! ## Building -/

section Building

variable {devices : List Device} {change : Device → Device}

theorem sortDevices_map
    (haddress : ∀ device ∈ devices,
      (change device).address = device.address) :
    sortDevices (devices.map change) = (sortDevices devices).map change := by
  unfold sortDevices
  rw [List.map_mergeSort]
  intro first hfirst second hsecond
  rw [haddress first hfirst, haddress second hsecond]

theorem membersOf_map
    (haddress : ∀ device ∈ devices,
      (change device).address = device.address) (id : BusId) :
    membersOf (devices.map change) id = membersOf devices id := by
  unfold membersOf
  rw [List.zipIdx_map, List.filter_map, List.map_map]
  congr 1
  apply List.filter_congr
  intro entry hentry
  have hdevice : entry.1 ∈ devices := List.fst_mem_of_mem_zipIdx hentry
  simp [haddress entry.1 hdevice]

theorem addBuses_map
    (haddress : ∀ device ∈ devices,
      (change device).address = device.address) (buses : List Bus)
    (records : List BusRecord) :
    addBuses (devices.map change) buses records =
      addBuses devices buses records := by
  induction records generalizing buses with
  | nil => rfl
  | cons record rest ih => simp only [addBuses, membersOf_map haddress, ih]

theorem assemble_map
    (haddress : ∀ device ∈ devices,
      (change device).address = device.address)
    (records : List BusRecord) :
    assemble (devices.map change) records =
      (assemble devices records).map (mapDevices change) := by
  unfold assemble
  rw [addBuses_map haddress]
  cases addBuses devices [] records <;> rfl

end Building

/-! ## Walking -/

variable {topology : Topology} {change : Device → Device}

theorem devicesOn_map (topology : Topology) (change : Device → Device)
    (bus : Bus) :
    (topology.mapDevices change).devicesOn bus =
      (topology.devicesOn bus).map change := by
  unfold devicesOn mapDevices
  rw [List.map_filterMap]
  simp only [List.getElem?_map]

theorem mem_devices_of_mem_devicesOn {bus : Bus} {device : Device}
    (hdevice : device ∈ topology.devicesOn bus) :
    device ∈ topology.devices := by
  obtain ⟨position, _, hposition⟩ := List.mem_filterMap.mp hdevice
  exact List.mem_of_getElem? hposition

/-- The change keeps what the walk reads of a device. -/
def KeepsLinks (topology : Topology) (change : Device → Device) : Prop :=
  ∀ device ∈ topology.devices,
    (change device).address = device.address ∧
      (change device).secondaryBus? = device.secondaryBus?

section KeepsLinks

variable (hkeeps : topology.KeepsLinks change)

include hkeeps

theorem children_map (bus : Bus) :
    (topology.mapDevices change).children bus =
      (topology.children bus).map fun link => (change link.1, link.2) := by
  unfold children
  rw [devicesOn_map, List.filterMap_map, List.map_filterMap]
  apply List.filterMap_congr
  intro device hdevice
  have hsecondary : (change device).secondaryBus? = device.secondaryBus? :=
    (hkeeps device (mem_devices_of_mem_devicesOn hdevice)).2
  have hbus : ∀ id, (topology.mapDevices change).bus? id =
      topology.bus? id := fun _ => rfl
  simp only [Function.comp_apply, hsecondary, hbus]
  cases device.secondaryBus? with
  | none => rfl
  | some secondary =>
      cases hchild : topology.bus? ⟨bus.id.domain, secondary⟩ <;>
        simp [hchild]

theorem linksFrom_map (visit : Visit) (bus : Bus) :
    (topology.mapDevices change).linksFrom visit bus =
      topology.linksFrom visit bus := by
  unfold linksFrom
  rw [children_map hkeeps, List.map_map]
  apply List.map_congr_left
  intro link hlink
  have hmem : link.1 ∈ topology.devicesOn bus :=
    (children_sublist topology bus).subset (List.mem_map_of_mem hlink)
  have haddress : (change link.1).address = link.1.address :=
    (hkeeps _ (mem_devices_of_mem_devicesOn hmem)).1
  simp only [Function.comp_apply, haddress]

theorem linksBelow_map (visit : Visit) :
    (topology.mapDevices change).linksBelow visit =
      topology.linksBelow visit := by
  have hbus : (topology.mapDevices change).bus? visit.bus =
      topology.bus? visit.bus := rfl
  unfold linksBelow
  rw [hbus]
  cases topology.bus? visit.bus with
  | none => rfl
  | some bus => exact linksFrom_map hkeeps visit bus

theorem walkFrom_map (visited : List BusId) (stack : List Visit) :
    (topology.mapDevices change).walkFrom visited stack =
      topology.walkFrom visited stack := by
  induction visited, stack using topology.walkFrom_induction with
  | nil visited => rw [walkFrom_nil, walkFrom_nil]
  | seen visited visit stack hseen ih =>
      rw [walkFrom_seen hseen, walkFrom_seen hseen, ih]
  | fresh visited visit stack hfresh ih =>
      rw [walkFrom_fresh hfresh, walkFrom_fresh hfresh,
        linksBelow_map hkeeps, ih]

theorem walkStarts_map (visited : List BusId) (starts : List Bus) :
    (topology.mapDevices change).walkStarts visited starts =
      topology.walkStarts visited starts := by
  induction starts generalizing visited with
  | nil => rfl
  | cons start rest ih =>
      unfold walkStarts
      simp only [walkFrom_map hkeeps, ih]

theorem walk_map : (topology.mapDevices change).walk = topology.walk :=
  walkStarts_map hkeeps [] topology.starts

end KeepsLinks

end PciInventory.Topology
