import PciInventory.Device
import PciInventory.Warning

/-!
# Topologies

A topology is what one scan shows: the devices in address order and the buses
in key order, each bus with the positions of its devices in the device list.
A record that is no device is left out with a warning, and a bus reported twice
makes the topology fail.
-/

namespace PciInventory

structure Bus where
  id : BusId
  isRoot : Bool
  /-- Positions in the device list of the topology, ascending. -/
  members : List Nat
deriving DecidableEq

structure Topology where
  devices : List Device
  buses : List Bus
deriving DecidableEq

namespace Bus

def record (bus : Bus) : BusRecord :=
  ⟨bus.id, bus.isRoot⟩

/-- `bus` put among `buses`, which are ascending, behind those that do not come
after it. -/
def insert (bus : Bus) : List Bus → List Bus
  | [] => [bus]
  | other :: rest =>
      if bus.id.rank < other.id.rank then bus :: other :: rest
      else other :: insert bus rest

end Bus

/-- The outcome of modelling a list of records: the devices in the order of
their records or the error that ended the modelling, a warning for each record
skipped, and the resolver after all name lookups. -/
structure Modelled where
  outcome : Except ScanError (List Device)
  warnings : List Warning
  resolver : Names.Resolver

namespace Modelled

/-- A record is skipped if its error costs one device.  Any other error
would end the modelling, but no record has one
(`Device.costsOneDevice_of_build`). -/
def ofRecords : List DeviceRecord → Names.Resolver → Modelled
  | [], resolver => ⟨.ok [], [], resolver⟩
  | record :: rest, resolver =>
      match Device.build record resolver with
      | .ok (device, resolver) =>
          let others := ofRecords rest resolver
          { others with outcome := others.outcome.map (device :: ·) }
      | .error error =>
          if error.CostsOneDevice then
            let others := ofRecords rest resolver
            { others with
              warnings :=
                .skippedDevice record.address error :: others.warnings }
          else ⟨.error error, [], resolver⟩

end Modelled

namespace Topology

/-- The devices in address order; devices of one address stay in the order they
were reported in. -/
def sortDevices (devices : List Device) : List Device :=
  devices.mergeSort fun first second =>
    first.address.rank ≤ second.address.rank

def membersOf (devices : List Device) (id : BusId) : List Nat :=
  (devices.zipIdx.filter fun entry => entry.1.address.busId = id).map
    fun entry => entry.2

/-- The reported buses added to `buses`; the first one that is there already
fails. -/
def addBuses (devices : List Device) :
    List Bus → List BusRecord → Except ScanError (List Bus)
  | buses, [] => .ok buses
  | buses, record :: rest =>
      if buses.any fun bus => bus.id = record.id then
        .error (.duplicateBus record.id)
      else
        let bus : Bus :=
          ⟨record.id, record.isRoot, membersOf devices record.id⟩
        addBuses devices (bus.insert buses) rest

/-- The topology of devices in address order and reported buses. -/
def assemble (devices : List Device) (records : List BusRecord) :
    Except ScanError Topology :=
  (addBuses devices [] records).map fun buses => ⟨devices, buses⟩

/-- A topology or the reason why there is none, with the warnings given on the
way and the resolver after all name lookups. -/
structure Build where
  outcome : Except ScanError Topology
  warnings : List Warning
  resolver : Names.Resolver

def ofRecords (devices : List DeviceRecord) (buses : List BusRecord)
    (resolver : Names.Resolver) : Build :=
  let modelled := Modelled.ofRecords devices resolver
  { outcome := do assemble (sortDevices (← modelled.outcome)) buses
    warnings := modelled.warnings
    resolver := modelled.resolver }

/-- Halves the `size` positions from `base` on down to the last one whose rank
is at most `rank`. -/
def lastNotAbove (ranks : List Nat) (rank base : Nat) : (size : Nat) → Nat
  | 0 => base
  | 1 => base
  | size + 2 =>
      let half := (size + 2) / 2
      let middle := base + half
      let base :=
        match ranks[middle]? with
        | some other => if rank < other then base else middle
        | none => base
      lastNotAbove ranks rank base (size + 2 - half)
termination_by size => size
decreasing_by omega

/-- The device at an address, by binary search. -/
def device? (topology : Topology) (address : Address) : Option Device :=
  let ranks := topology.devices.map fun device => device.address.rank
  let position := lastNotAbove ranks address.rank 0 ranks.length
  match topology.devices[position]? with
  | some device => if device.address = address then some device else none
  | none => none

def bus? (topology : Topology) (id : BusId) : Option Bus :=
  topology.buses.find? fun bus => bus.id = id

def busRecords (topology : Topology) : List BusRecord :=
  topology.buses.map Bus.record

def deviceRecords (topology : Topology) : List DeviceRecord :=
  topology.devices.map Device.record

def devicesOn (topology : Topology) (bus : Bus) : List Device :=
  bus.members.filterMap fun position => topology.devices[position]?

def roots (topology : Topology) : List Bus :=
  topology.buses.filter Bus.isRoot

/-- The bridges on a bus, each with the reported bus right behind it. -/
def children (topology : Topology) (bus : Bus) : List (Device × Bus) :=
  (topology.devicesOn bus).filterMap fun device => do
    let secondary ← device.secondaryBus?
    let child ← topology.bus? ⟨bus.id.domain, secondary⟩
    return (device, child)

end Topology

end PciInventory
