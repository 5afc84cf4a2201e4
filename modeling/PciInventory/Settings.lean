import PciInventory.LiveSource

/-!
# Settings from the environment

Two variables name the system to scan and the name database.  A variable that
is set has to be text and must not be empty.  Without a database of its own,
the program takes the first that is installed in a usual place.
-/

namespace PciInventory

abbrev Environment := List (String × Bytes)

structure Settings where
  /-- The directory that holds the bus and device directories. -/
  root : Bytes
  database : Option Bytes
deriving DecidableEq

inductive SettingsError where
  | invalid (variableName : String)
deriving DecidableEq

namespace SettingsError

def message : SettingsError → String
  | .invalid variableName => s!"invalid value for env var {variableName}"

end SettingsError

namespace Settings

def rootVariable : String := "PCITOP_SYSFS_ROOT"
def databaseVariable : String := "PCITOP_PCI_IDS"

/-- Where a name database is usually installed, in the order they are tried. -/
def databasePlaces : List String :=
  ["/usr/share/hwdata/pci.ids", "/usr/share/misc/pci.ids",
    "/usr/share/pci.ids"]

def readVariable (environment : Environment) (name : String) :
    Except SettingsError (Option Bytes) :=
  match environment.lookup name with
  | none => .ok none
  | some value =>
      if value.isEmpty || (Utf8.decode? value).isNone then
        .error (.invalid name)
      else
        .ok (some value)

def installedDatabase? (tree : FileTree) : Option Bytes :=
  (databasePlaces.map Bytes.ofText).find? tree.isFile

def ofEnvironment (tree : FileTree) (environment : Environment) :
    Except SettingsError Settings := do
  let root ← readVariable environment rootVariable
  let database ← readVariable environment databaseVariable
  return ⟨root.getD LiveSource.defaultRoot,
    database.or (installedDatabase? tree)⟩

end Settings

end PciInventory
