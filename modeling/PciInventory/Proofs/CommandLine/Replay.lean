import PciInventory.Proofs.CommandLine.Run
import PciInventory.Proofs.LiveSource.Addresses
import PciInventory.Proofs.Render.Stored

/-!
# Replaying a saved scan

A run that scans a system and saves it leaves a tree in which a second run can
load the snapshot.  With the same names the second run builds what the snapshot
keeps of the topology.  Addresses of a running system are always kept, so the
second run prints what the first one printed, unless a verbose view shows a
number that stands for an unknown one in a snapshot.
-/

namespace PciInventory.CommandLine

variable {tree saved : FileTree} {environment : Environment}
  {created now : UInt64}

theorem exists_records_of_system {root : Bytes}
    {resolver : Names.Resolver} {shown : Topology}
    (hshown : (scanLive tree root resolver).1 = .ok shown) :
    ∃ records buses, LiveSource.devices tree root = .ok records ∧
      LiveSource.buses tree root = .ok buses ∧
      (Topology.ofRecords records buses resolver).outcome = .ok shown := by
  obtain ⟨records, buses, after, _, hrecords, hbuses, hbuilt⟩ :=
    Topology.exists_records_of_scan (ok_of_mapError hshown)
  have hsame : tree = after := congrArg Prod.snd hrecords
  subst hsame
  exact ⟨records, buses, congrArg Prod.fst hrecords,
    congrArg Prod.fst hbuses, hbuilt⟩

theorem exists_records_of_scanLive {root database : Bytes}
    {resolver : Names.Resolver} {shown : Topology}
    (hover : resolver.IsOver database)
    (hshown : (scanLive tree root resolver).1 = .ok shown) :
    ∃ records, LiveSource.devices tree root = .ok records ∧
      shown.BuiltOver database ∧
      ∀ device ∈ shown.devices, device.record ∈ records := by
  obtain ⟨records, _, hrecords, _, hbuilt⟩ := exists_records_of_system hshown
  exact ⟨records, hrecords, Topology.builtOver_of_ofRecords hover hbuilt⟩

theorem replay_eq_stored {path database : Bytes} {shown : Topology}
    {resolver : Names.Resolver} (hbuilt : shown.BuiltOver database)
    (hrange : ∀ device ∈ shown.devices, device.address.InRange)
    (hsave :
      (SnapshotSource.ofPath path).save tree shown created = .ok saved)
    (hover : resolver.IsOver database) :
    (replay saved path now resolver).1 = .ok shown.stored := by
  unfold replay
  rw [SnapshotSource.exists_openAt_of_save hsave]
  simp only [SnapshotSource.scan_loaded,
    ((hbuilt.stored hrange).ofRecords_records hover).1]
  rfl

section

variable {root path : Bytes} {database : Option Bytes}
  {asTree verbose numeric : Bool} {shown : Topology}

theorem Succeeds.scanned
    (hsuccess : Succeeds tree environment created
      ⟨some root, database, none, some path, asTree, verbose, numeric⟩
      shown saved) :
    ∃ records, LiveSource.devices tree root = .ok records ∧
      shown.BuiltOver (namesRead tree environment numeric database) ∧
      (∀ device ∈ shown.devices, device.record ∈ records) ∧
      ∀ device ∈ shown.devices, device.address.InRange := by
  obtain ⟨settings, hsettings, hshown⟩ := hsuccess.built
  rw [namesOf_eq hsettings] at hshown
  obtain ⟨records, hrecords, hbuilt, hmem⟩ :=
    exists_records_of_scanLive (.ofDatabase _) hshown
  refine ⟨records, hrecords, hbuilt, hmem, ?_⟩
  intro device hdevice
  exact LiveSource.inRange_of_mem_devices hrecords _ (hmem device hdevice)

/-- A run over the saved scan shows what the snapshot keeps of it. -/
theorem Succeeds.replayed
    (hsuccess : Succeeds tree environment created
      ⟨some root, database, none, some path, asTree, verbose, numeric⟩
      shown saved)
    (hnames : namesRead saved environment numeric database =
      namesRead tree environment numeric database) :
    Succeeds saved environment now
      ⟨none, database, some path, none, asTree, verbose, numeric⟩
      shown.stored saved := by
  obtain ⟨records, _, hbuilt, _, hrange⟩ := hsuccess.scanned
  obtain ⟨settings, hsettings, _⟩ := hsuccess.built
  obtain ⟨later, hlater⟩ := exists_settings hsettings saved
  refine ⟨⟨later, hlater, ?_⟩, rfl⟩
  rw [namesOf_eq hlater]
  apply replay_eq_stored hbuilt hrange (ok_of_mapError hsuccess.kept)
  rw [← hnames]
  exact .ofDatabase _

/-- What a verbose view shows of a device is kept in a snapshot, unless it is a
number that stands for an unknown one there. -/
theorem Succeeds.showsStored
    (hsuccess : Succeeds tree environment created
      ⟨some root, database, none, some path, asTree, verbose, numeric⟩
      shown saved)
    (hkept : verbose = true →
      ∀ records, LiveSource.devices tree root = .ok records →
        ∀ record ∈ records,
          (∃ meaning, Device.interpret record = .ok meaning) →
            record.numaNode ≠ some 0xffff ∧
              record.iommuGroup ≠ some 0xffff) :
    Render.ShowsStored shown ⟨numeric, verbose⟩ := by
  obtain ⟨records, hrecords, hbuilt, hmem, hrange⟩ := hsuccess.scanned
  intro device hdevice
  refine ⟨hrange device hdevice, ?_⟩
  intro hverbose
  have hwords := hkept hverbose records hrecords device.record
    (hmem device hdevice) ⟨_, (hbuilt.modelled device hdevice).interpret_eq⟩
  exact Device.stored_eq ⟨hrange device hdevice, hwords.1, hwords.2⟩

end

/-- A saved scan is replayed with the same output, provided that the second run
finds the same names and, in a verbose view, no device has the NUMA node or the
IOMMU group 65535. -/
theorem saved_scan_replays {root path : Bytes} {database : Option Bytes}
    {asTree verbose numeric : Bool} {scanArguments replayArguments : List Bytes}
    (hscan : request scanArguments =
      .run ⟨some root, database, none, some path, asTree, verbose, numeric⟩)
    (hreplay : request replayArguments =
      .run ⟨none, database, some path, none, asTree, verbose, numeric⟩)
    (hcode : (run tree environment created scanArguments).code = 0)
    (hnames : numeric = false →
      databaseRead (run tree environment created scanArguments).tree
        environment database = databaseRead tree environment database)
    (hkept : verbose = true →
      ∀ records, LiveSource.devices tree root = .ok records →
        ∀ record ∈ records,
          (∃ meaning, Device.interpret record = .ok meaning) →
            record.numaNode ≠ some 0xffff ∧
              record.iommuGroup ≠ some 0xffff) :
    let scanned := run tree environment created scanArguments
    let replayed := run scanned.tree environment now replayArguments
    replayed.code = 0 ∧ replayed.output = scanned.output := by
  unfold run at hcode hnames ⊢
  rw [hscan] at hcode hnames ⊢
  rw [hreplay]
  simp only at hcode hnames ⊢
  obtain ⟨shown, saved, hsuccess⟩ := exists_succeeds hcode
  obtain ⟨_, houtput, htree⟩ := hsuccess.outcome
  rw [htree] at hnames
  rw [htree, houtput]
  have hread : namesRead saved environment numeric database =
      namesRead tree environment numeric database := by
    unfold namesRead
    cases numeric with
    | true => rfl
    | false => rw [hnames rfl]
  obtain ⟨hzero, hagain, _⟩ := (hsuccess.replayed hread).outcome
  exact ⟨hzero, hagain.trans (congrArg Prod.fst
    (Render.shown_stored (hsuccess.showsStored hkept) asTree))⟩

/-- A system of one root bus and one device, with what the file of its NUMA node
holds, and a database that names its vendor. -/
def oneDevice (numaNode : String) : FileTree :=
  let devices := ["devices", "pci", "bus", "sys"].map Bytes.ofText
  let device := Bytes.ofText "0000:00:01.0" :: devices
  let buses := ["pci_bus", "class", "sys"].map Bytes.ofText
  let directories :=
    [device, devices, devices.tail, devices.tail.tail, buses, buses.tail,
      buses.tail.tail]
  let files :=
    [(Bytes.ofText "config" :: device, .file (List.replicate 256 0)),
      (Bytes.ofText "resource" :: device, .file []),
      (Bytes.ofText "numa_node" :: device, .file (Bytes.ofText numaNode)),
      (Bytes.ofText "0000:00" :: buses,
        .link (Bytes.ofText "../../devices/pci0000:00/pci_bus/0000:00")),
      ([Bytes.ofText "ids"], .file (Bytes.ofText "0000  Maker\n"))]
  ⟨files ++ directories.map fun location => (location, .directory), []⟩

/-- The outcome of scanning the system and saving the scan. -/
def scanOf (numaNode : String) (view : List String) : Outcome :=
  run (oneDevice numaNode) [] 0
    ((["--sysfs-root", "sys", "--save", "s"] ++ view).map Bytes.ofText)

/-- The outcome of replaying it. -/
def replayOf (numaNode : String) (view : List String) : Outcome :=
  run (scanOf numaNode view).tree [] 1
    ((["--load", "s"] ++ view).map Bytes.ofText)

def namedView : List String :=
  ["--pci-ids", "ids", "-v", "--tree"]

set_option maxRecDepth 20000 in
theorem saved_scan_replays_numaNode :
    (scanOf "1\n" namedView).code = 0 ∧
      (replayOf "1\n" namedView).code = 0 ∧
      (replayOf "1\n" namedView).output =
        (scanOf "1\n" namedView).output := by
  have hcode : (scanOf "1\n" namedView).code = 0 := by cbv
  have hscan :
      request ((["--sysfs-root", "sys", "--save", "s"] ++ namedView).map
          Bytes.ofText) =
        .run ⟨some (Bytes.ofText "sys"), some (Bytes.ofText "ids"), none,
          some (Bytes.ofText "s"), true, true, false⟩ := by cbv
  have hreplay :
      request ((["--load", "s"] ++ namedView).map Bytes.ofText) =
        .run ⟨none, some (Bytes.ofText "ids"), some (Bytes.ofText "s"), none,
          true, true, false⟩ := by cbv
  have hread :
      (oneDevice "1\n").contentAt (Bytes.ofText "ids") =
        .ok (Bytes.ofText "0000  Maker\n") := by cbv
  have hdevices :
      LiveSource.devices (oneDevice "1\n") (Bytes.ofText "sys") =
        .ok [⟨⟨0, 0, 1, 0⟩, List.replicate 256 0, [], none, some 1,
          none⟩] := by cbv
  refine ⟨hcode, saved_scan_replays hscan hreplay hcode ?_ ?_⟩
  · intro _
    exact databaseRead_eq_of_extends (extends_run _ _ _ _) hread
  · intro _ records hrecords
    rw [hdevices] at hrecords
    cases hrecords
    simp

/-- The snapshot of the system with NUMA node 65535, which is not in it. -/
def lostNode : Bytes :=
  [0x78, 0x65, 0x69, 0x63, 0x70, 0, 0, 0, 0, 0, 0, 0, 0,
    0x33, 1, 0, 0, 0, 0, 0, 0, 1, 0, 0, 0, 1, 0, 0, 0,
    0x08, 0, 0, 0, 0, 0, 0, 0, 0, 0, 0xff, 0xff, 0xff, 0xff, 0, 1] ++
    List.replicate 256 0 ++ [0, 0, 0, 0, 1, 0]

set_option maxRecDepth 20000 in
/-- NUMA node 65535 is shown by the scan, which succeeds, but not by the
replay. -/
theorem saved_scan_differs_lostNode :
    (scanOf "65535\n" ["-nv"]).code = 0 ∧
      (scanOf "65535\n" ["-nv"]).output =
        "0000:00:01.0 0000: 0000:0000\n\tSubsystem: 0000:0000\n" ++
          "\tNUMA node: 65535\n" ∧
      (replayOf "65535\n" ["-nv"]).code = 0 ∧
      (replayOf "65535\n" ["-nv"]).output =
        "0000:00:01.0 0000: 0000:0000\n\tSubsystem: 0000:0000\n" ∧
      (replayOf "65535\n" ["-nv"]).output ≠
        (scanOf "65535\n" ["-nv"]).output := by
  have hscan : scanOf "65535\n" ["-nv"] =
      ⟨0, "0000:00:01.0 0000: 0000:0000\n\tSubsystem: 0000:0000\n" ++
          "\tNUMA node: 65535\n", "", [],
        (oneDevice "65535\n").insert [Bytes.ofText "s"]
          (.file lostNode)⟩ := by cbv
  have hreplay : replayOf "65535\n" ["-nv"] =
      ⟨0, "0000:00:01.0 0000: 0000:0000\n\tSubsystem: 0000:0000\n", "", [],
        (oneDevice "65535\n").insert [Bytes.ofText "s"]
          (.file lostNode)⟩ := by
    unfold replayOf
    rw [hscan]
    cbv
  rw [hreplay, hscan]
  exact ⟨rfl, rfl, rfl, rfl, by decide⟩

end PciInventory.CommandLine
