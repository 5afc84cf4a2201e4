import PciInventory.Settings

/-!
# Failures of a run

A failure says what the program was about to do, followed by the causes from
the outermost to the innermost.  The report indents the causes, and numbers
them if there is more than one.
-/

namespace PciInventory.CommandLine

inductive Failure where
  | settings (error : SettingsError)
  | load (path : Bytes) (error : SnapshotError)
  | replay (path : Bytes) (error : ScanError)
  | scan (root : Bytes) (error : ScanError)
  | save (path : Bytes) (error : ScanError)
deriving DecidableEq

namespace Failure

def context : Failure → String
  | .settings _ => "invalid configuration"
  | .load path _ => s!"failed to load snapshot {Utf8.display path}"
  | .replay path _ => s!"failed to replay snapshot {Utf8.display path}"
  | .scan root _ => s!"failed to scan PCI devices under {Utf8.display root}"
  | .save path _ => s!"failed to save snapshot {Utf8.display path}"

def causes : Failure → List String
  | .settings error => [error.message]
  | .load _ error => error.message :: error.causes
  | .replay _ error => error.message :: error.causes
  | .scan _ error => error.message :: error.causes
  | .save _ error => error.message :: error.causes

/-- A text with `indent` put before each line but the first. -/
def hanging (indent text : String) : String :=
  String.join (text.toList.map fun c =>
    if c = '\n' then "\n" ++ indent else c.toString)

def numbered (index : Nat) : List String → String
  | [] => ""
  | cause :: rest =>
      "\n    " ++ Numeral.decimal index ++ ": " ++
        hanging "       " cause ++ numbered (index + 1) rest

def causesText : List String → String
  | [] => ""
  | [cause] => "\n\nCaused by:\n    " ++ hanging "    " cause
  | causes => "\n\nCaused by:" ++ numbered 0 causes

def report (failure : Failure) : String :=
  "Error: " ++ failure.context ++ causesText failure.causes ++ "\n"

end Failure

end PciInventory.CommandLine
