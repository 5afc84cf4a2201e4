import PciInventory.Address.Text
import PciInventory.FileTree.Basic
import PciInventory.Source
import PciInventory.Text.Blank
import PciInventory.Text.Quoted

/-!
# Scanning a running system

The kernel shows its buses as links under `class/pci_bus` and its devices as
directories under `bus/pci/devices`.  A device directory holds the raw
configuration space, a file with one line for each resource, and optionally the
NUMA node and links named `driver` and `iommu_group`.  What is optional and
unreadable counts as unknown; anything else that cannot be read fails the scan.

Buses and devices are sorted, so the order in which a directory gives its
entries matters in two cases only: it decides which of several failures is
reported, and how entries of one bus id or of one address follow each other.
-/

namespace PciInventory.LiveSource

def defaultRoot : Bytes :=
  Bytes.ofText "/sys"

def busDirectory (root : Bytes) : Bytes :=
  Path.join (Path.join root (Bytes.ofText "class")) (Bytes.ofText "pci_bus")

def deviceDirectory (root : Bytes) : Bytes :=
  Path.join (Path.join (Path.join root (Bytes.ofText "bus"))
    (Bytes.ofText "pci")) (Bytes.ofText "devices")

/-- The names on the way to a link's target that are text. -/
def targetNames (target : Bytes) : List String :=
  (Path.names target).filterMap Utf8.decode?

/-- The last of `names` before the last `pci_bus`. -/
def hostSegment? (names : List String) : Option String :=
  match names.reverse.dropWhile fun name => name ≠ "pci_bus" with
  | _ :: host :: _ => some host
  | _ => none

/-- The bus id in the name of a host bridge, `pci` followed by the id. -/
def hostBus? (name : String) : Option BusId :=
  match name.toList with
  | 'p' :: 'c' :: 'i' :: id => BusId.parse? id
  | _ => none

/-- Whether a bus link leads to a bus right behind a host bridge.  Such a target
is `…/pci0000:00/pci_bus/0000:00`; behind a bridge, the bridge's own segment
comes before `pci_bus`. -/
def isRootBusLink (target : Bytes) : Bool :=
  match hostSegment? (targetNames target) with
  | some host => (hostBus? host).isSome
  | none => false

/-- One hexadecimal field, with or without the mark `0x`. -/
def parseField? (field : List Char) : Option UInt64 :=
  let digits :=
    match field with
    | '0' :: 'x' :: digits => digits
    | '0' :: 'X' :: digits => digits
    | digits => digits
  (Numeral.read? 16 UInt64.size digits).map UInt64.ofNat

def parseResource? (line : List Char) : Option Resource :=
  match Blank.fields line with
  | [start, finish, flags] => do
      return ⟨← parseField? start, ← parseField? finish, ← parseField? flags⟩
  | _ => none

/-- The resources in a file's lines.  Blank lines mean nothing; the first other
line that is no resource fails. -/
def parseResources (path : Bytes) :
    List (List Char) → Except ScanError (List Resource)
  | [] => .ok []
  | line :: rest =>
      if (Blank.trim line).isEmpty then
        parseResources path rest
      else
        match parseResource? line with
        | some resource =>
            (parseResources path rest).map fun others => resource :: others
        | none =>
            .error (.malformed "resource line"
              (Utf8.display path ++ ": " ++ Quoted.text line))

/-- The configuration space is the whole file, whatever its size.  A file that
ends before the size reported for it is refused; the files of a tree hold what
they report, those of a running kernel may not. -/
def readConfig (tree : FileTree) (path : Bytes) : Except ScanError Bytes :=
  match tree.openAt path with
  | .error error => .error (.unavailable path error)
  | .ok opened =>
      match opened.read with
      | .error error => .error (.io path error)
      | .ok content =>
          if content.length < opened.size then
            .error (.shortRead path opened.size content.length)
          else .ok content

def readResources (tree : FileTree) (path : Bytes) :
    Except ScanError (List Resource) :=
  match tree.readText path with
  | .error error => .error (.unavailable path error)
  | .ok text => parseResources path (Blank.lines text.toList)

/-- The name at the end of a link's target, such as the driver behind
`driver`. -/
def linkName? (tree : FileTree) (path : Bytes) : Option String :=
  match tree.readLink path with
  | .ok target => (Path.fileName? target).map Utf8.display
  | .error _ => none

def readWord? (text : List Char) : Option UInt16 :=
  (Numeral.read? 10 UInt16.size text).map UInt16.ofNat

/-- The NUMA node, unless it is unknown, which the kernel shows as `-1`. -/
def readNumaNode? (tree : FileTree) (path : Bytes) : Option UInt16 :=
  match tree.readText path with
  | .ok text => readWord? (Blank.trim text.toList)
  | .error _ => none

def readDevice (tree : FileTree) (address : Address) (directory : Bytes) :
    Except ScanError DeviceRecord := do
  let within (name : String) := Path.join directory (Bytes.ofText name)
  let config ← readConfig tree (within "config")
  let resources ← readResources tree (within "resource")
  return {
    address
    config
    resources
    driver := linkName? tree (within "driver")
    numaNode := readNumaNode? tree (within "numa_node")
    iommuGroup :=
      (linkName? tree (within "iommu_group")).bind fun name =>
        readWord? name.toList }

/-- The bus shown by a directory entry, which has to be a link. -/
def readBus (tree : FileTree) (directory name : Bytes) :
    Except ScanError BusRecord := do
  let path := Path.join directory name
  match tree.entryAt .named path with
  | .error error => .error (.io path error)
  | .ok (_, .link target) =>
      let id ← BusId.ofText (Utf8.display name)
      return ⟨id, isRootBusLink target⟩
  | .ok _ =>
      .error (.malformed "bus namespace"
        (Utf8.display path ++ " is not a symlink"))

def sortBuses (buses : List BusRecord) : List BusRecord :=
  buses.mergeSort fun first second => first.id.rank ≤ second.id.rank

def sortRecords (devices : List DeviceRecord) : List DeviceRecord :=
  devices.mergeSort fun first second =>
    first.address.rank ≤ second.address.rank

def buses (tree : FileTree) (root : Bytes) :
    Except ScanError (List BusRecord) :=
  let directory := busDirectory root
  match tree.list directory with
  | .error error => .error (.unavailable directory error)
  | .ok names => (names.mapM (readBus tree directory)).map sortBuses

def devices (tree : FileTree) (root : Bytes) :
    Except ScanError (List DeviceRecord) :=
  let directory := deviceDirectory root
  match tree.list directory with
  | .error error => .error (.unavailable directory error)
  | .ok names =>
      let read (name : Bytes) : Except ScanError DeviceRecord := do
        let address ← Address.ofText (Utf8.display name)
        readDevice tree address (Path.join directory name)
      (names.mapM read).map sortRecords

/-- The system below `root` as a data source.  It looks at the tree each time it
is asked, and cannot save. -/
def source (root : Bytes) : DataSource FileTree :=
  DataSource.readOnly (fun tree => (devices tree root, tree))
    (fun tree => (buses tree root, tree))

end PciInventory.LiveSource
