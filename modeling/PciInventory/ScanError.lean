import PciInventory.Address
import PciInventory.OsError
import PciInventory.Text.Utf8

/-!
# What can go wrong in a scan or a snapshot

Each error is a cause, worded in `message`.  `causes` lists the further causes
that a report shows below the message; an error wrapped by another keeps its
own message and causes.
-/

namespace PciInventory

inductive SnapshotError where
  | io (cause : IoError)
  | outOfMemory (length : Nat)
  | invalidMagic
  | sizeMismatch (declared actual : Nat)
  | emptyTable (table : String)
  | corrupt (reason : String)
  | tooLarge (part : String)
  | targetExists (path : Bytes)
  | utf8 (fault : Utf8.Fault)
deriving DecidableEq

namespace SnapshotError

def message : SnapshotError → String
  | .io cause => s!"io error: {cause.message}"
  | .outOfMemory length => s!"out of memory allocating {length} bytes"
  | .invalidMagic => "invalid snapshot magic"
  | .sizeMismatch declared actual =>
      s!"snapshot size mismatch (header says {declared} bytes, " ++
        s!"file has {actual} bytes)"
  | .emptyTable table => s!"snapshot has an empty {table} table"
  | .corrupt reason => s!"corrupt snapshot: {reason}"
  | .tooLarge part => s!"{part} does not fit the snapshot format"
  | .targetExists path => s!"{Utf8.display path} already exists"
  | .utf8 fault => s!"utf-8 decoding failed: {fault.message}"

def causes : SnapshotError → List String
  | .io cause => [cause.message]
  | .utf8 fault => [fault.message]
  | _ => []

end SnapshotError

inductive ScanError where
  | unavailable (path : Bytes) (cause : IoError)
  | io (path : Bytes) (cause : IoError)
  | malformed (what detail : String)
  | shortRead (path : Bytes) (expected found : Nat)
  | unsupported (operation : String)
  | duplicateBus (bus : BusId)
  | capabilityLoop (address : Address) (offset : Nat)
  | snapshot (error : SnapshotError)
deriving DecidableEq

namespace ScanError

def message : ScanError → String
  | .unavailable path cause =>
      s!"{Utf8.display path}: source unavailable: {cause.message}"
  | .io path cause => s!"{Utf8.display path}: {cause.message}"
  | .malformed what detail => s!"malformed {what}: {detail}"
  | .shortRead path expected found =>
      s!"{Utf8.display path}: short read (expected {expected} bytes, " ++
        s!"found {found})"
  | .unsupported operation => s!"unsupported operation: {operation}"
  | .duplicateBus bus => s!"duplicate bus {bus.text}"
  | .capabilityLoop address offset =>
      s!"{address.text}: capability chain revisits offset " ++
        Numeral.markedHex 5 offset
  | .snapshot error => error.message

def causes : ScanError → List String
  | .unavailable _ cause => [cause.message]
  | .io _ cause => [cause.message]
  | .snapshot error => error.causes
  | _ => []

/-- The errors that cost one device.  Any other error ends the scan. -/
def CostsOneDevice : ScanError → Prop
  | .malformed _ _ => True
  | .capabilityLoop _ _ => True
  | _ => False

instance : DecidablePred CostsOneDevice
  | .malformed _ _ | .capabilityLoop _ _ => isTrue trivial
  | .unavailable _ _ | .io _ _ | .shortRead _ _ _ | .unsupported _
  | .duplicateBus _ | .snapshot _ => isFalse id

end ScanError

end PciInventory
