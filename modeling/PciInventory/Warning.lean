import PciInventory.ScanError

/-!
# Warnings

Conditions that cost a part of the picture and do not stop the program.
-/

namespace PciInventory

inductive Warning where
  | skippedDevice (address : Address) (error : ScanError)
  | ignoredLink (bus : BusId) (bridge : Option Address)
  | noDatabase
  | unreadableDatabase (path : Bytes) (cause : IoError)
deriving DecidableEq

namespace Warning

def bridgeText : Option Address → String
  | some bridge => "Some(\"" ++ bridge.text ++ "\")"
  | none => "None"

def message : Warning → String
  | .skippedDevice address error =>
      s!"skipping {address.text}: {error.message}"
  | .ignoredLink bus bridge =>
      s!"bus {bus.text} reached twice (via {bridgeText bridge}); ignoring link"
  | .noDatabase => "no PCI name database found; showing numeric IDs"
  | .unreadableDatabase path cause =>
      s!"cannot read name database {Utf8.display path}: {cause.message}"

end Warning

end PciInventory
