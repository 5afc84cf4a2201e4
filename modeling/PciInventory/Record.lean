import PciInventory.Address
import PciInventory.Resource

/-!
# What a data source reports

Everything known about a function or a bus before it is interpreted.  These
records are what a snapshot keeps.
-/

namespace PciInventory

structure DeviceRecord where
  address : Address
  config : Bytes
  resources : List Resource
  driver : Option String
  numaNode : Option UInt16
  iommuGroup : Option UInt16
deriving DecidableEq

structure BusRecord where
  id : BusId
  isRoot : Bool
deriving DecidableEq

end PciInventory
