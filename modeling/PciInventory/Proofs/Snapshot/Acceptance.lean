import PciInventory.Proofs.Snapshot.Footprint

/-!
# What can be written

A record fits the format if each of its parts is within its limit.  The parts
are checked in a fixed order and the records in theirs, so for lists that cannot
be written there is one fault to report, and it is the one that is reported.
-/

namespace PciInventory

open Snapshot

namespace DeviceRecord

def HasConfigSize (record : DeviceRecord) : Prop :=
  record.config.length = 256 ∨ record.config.length = 4096

structure Fits (record : DeviceRecord) : Prop where
  config : record.HasConfigSize
  resources : record.resources.length ≤ 255
  driverLength : ∀ name, record.driver = some name →
    (Bytes.ofText name).length ≤ 254
  driverZero : ∀ name, record.driver = some name → 0 ∉ Bytes.ofText name

/-- The first limit that a record breaks, as the error it is refused with. -/
inductive Misfit (record : DeviceRecord) : SnapshotError → Prop
  | config (hconfig : ¬record.HasConfigSize) :
      Misfit record
        (.corrupt "config space is neither 256 nor 4096 bytes")
  | resources (hconfig : record.HasConfigSize)
      (hmany : 255 < record.resources.length) :
      Misfit record (.tooLarge "resource list")
  | driverLength (hconfig : record.HasConfigSize)
      (hresources : record.resources.length ≤ 255)
      {name : String} (hdriver : record.driver = some name)
      (hlong : 254 < (Bytes.ofText name).length) :
      Misfit record (.tooLarge "driver name")
  | driverZero (hconfig : record.HasConfigSize)
      (hresources : record.resources.length ≤ 255)
      {name : String} (hdriver : record.driver = some name)
      (hlength : (Bytes.ofText name).length ≤ 254)
      (hzero : 0 ∈ Bytes.ofText name) :
      Misfit record (.corrupt "driver name has an embedded NUL")

theorem Fits.not_misfit {record : DeviceRecord} {error : SnapshotError}
    (hfits : record.Fits) : ¬record.Misfit error := by
  intro hmisfit
  cases hmisfit with
  | config hconfig => exact hconfig hfits.config
  | resources _ hmany => exact Nat.not_lt.mpr hfits.resources hmany
  | driverLength _ _ hdriver hlong =>
      exact Nat.not_lt.mpr (hfits.driverLength _ hdriver) hlong
  | driverZero _ _ hdriver _ hzero =>
      exact hfits.driverZero _ hdriver hzero

theorem hasConfigSize_iff {record : DeviceRecord} :
    record.HasConfigSize ↔
      ¬(record.config.length ≠ ConfigSpace.conventionalSize ∧
        record.config.length ≠ ConfigSpace.extendedSize) := by
  unfold HasConfigSize ConfigSpace.conventionalSize
    ConfigSpace.extendedSize
  omega

end DeviceRecord

namespace Snapshot

open DeviceRecord

/-! ## One record -/

/-- Whether a record fits decides between the two outcomes of its static
block. -/
theorem StaticBlock.ofRecord_cases (record : DeviceRecord)
    (isFinal : Bool) :
    (record.Fits ∧
        ∃ block, StaticBlock.ofRecord record isFinal = .ok block) ∨
      ∃ error, record.Misfit error ∧
        StaticBlock.ofRecord record isFinal = .error error := by
  unfold StaticBlock.ofRecord
  split
  next hsize =>
    have hconfig : ¬record.HasConfigSize := by
      rw [hasConfigSize_iff]
      exact not_not_intro hsize
    exact .inr ⟨_, .config hconfig, rfl⟩
  next hsize =>
  have hconfig : record.HasConfigSize := hasConfigSize_iff.mpr hsize
  split
  next hmany => exact .inr ⟨_, .resources hconfig hmany, rfl⟩
  next hcount =>
  have hresources : record.resources.length ≤ 255 := Nat.not_lt.mp hcount
  cases hdriver : record.driver with
  | none =>
      exact .inl ⟨⟨hconfig, hresources, by simp [hdriver],
        by simp [hdriver]⟩, _, rfl⟩
  | some name =>
      simp only [driverFieldLength, maxDriverLength,
        List.contains_iff_mem]
      split
      next hlong =>
        exact .inr ⟨_, .driverLength hconfig hresources hdriver hlong, rfl⟩
      next hshort =>
      have hlength := Nat.not_lt.mp hshort
      split
      next hzero =>
        exact .inr
          ⟨_, .driverZero hconfig hresources hdriver hlength hzero, rfl⟩
      next hzero =>
        exact .inl ⟨⟨hconfig, hresources, by simpa [hdriver] using hlength,
          by simpa [hdriver] using hzero⟩, _, rfl⟩

theorem StaticBlock.ofRecord_of_misfit {record : DeviceRecord}
    {error : SnapshotError} (hmisfit : record.Misfit error)
    (isFinal : Bool) :
    StaticBlock.ofRecord record isFinal = .error error := by
  unfold StaticBlock.ofRecord
  cases hmisfit with
  | config hconfig =>
      rw [hasConfigSize_iff, Classical.not_not] at hconfig
      rw [if_pos hconfig]
  | resources hconfig hmany =>
      rw [if_neg (hasConfigSize_iff.mp hconfig), if_pos hmany]
  | driverLength hconfig hresources hdriver hlong =>
      rw [if_neg (hasConfigSize_iff.mp hconfig),
        if_neg (Nat.not_lt.mpr hresources), hdriver, driverFieldLength,
        maxDriverLength, if_pos hlong]
      rfl
  | driverZero hconfig hresources hdriver hlength hzero =>
      rw [if_neg (hasConfigSize_iff.mp hconfig),
        if_neg (Nat.not_lt.mpr hresources), hdriver, driverFieldLength,
        maxDriverLength, if_neg (Nat.not_lt.mpr hlength),
        if_pos (List.contains_iff_mem.mpr hzero)]
      rfl

/-- The fields of one byte hold the very lengths. -/
theorem StaticBlock.lengths_of_ofRecord {record : DeviceRecord}
    {isFinal : Bool} {block : StaticBlock}
    (hblock : StaticBlock.ofRecord record isFinal = .ok block) :
    block.resourceCount.toNat = record.resources.length ∧
      block.driverLength.toNat = driverSize record.driver := by
  obtain ⟨hdescribes, _⟩ := StaticBlock.ofRecord_eq_ok_iff.mp hblock
  have hdriver := encodeDriver_length hdescribes.driver
  rw [encodeDriver_length_eq] at hdriver
  exact ⟨hdescribes.resources.symm, hdriver.symm⟩

/-! ## The device table -/

/-- The first record that does not fit is refused with `error`. -/
def FirstMisfit (records : List DeviceRecord) (error : SnapshotError) :
    Prop :=
  ∃ front record rest, records = front ++ record :: rest ∧
    (∀ other ∈ front, other.Fits) ∧ record.Misfit error

theorem FirstMisfit.head {record : DeviceRecord} {error : SnapshotError}
    (hmisfit : record.Misfit error) (rest : List DeviceRecord) :
    FirstMisfit (record :: rest) error :=
  ⟨[], record, rest, rfl, by simp, hmisfit⟩

theorem FirstMisfit.cons {record : DeviceRecord}
    {rest : List DeviceRecord} {error : SnapshotError}
    (hrest : FirstMisfit rest error) (hfits : record.Fits) :
    FirstMisfit (record :: rest) error := by
  rcases hrest with ⟨front, faulty, behind, rfl, hfront, hmisfit⟩
  exact ⟨record :: front, faulty, behind, rfl,
    List.forall_mem_cons.mpr ⟨hfits, hfront⟩, hmisfit⟩

theorem encodeRecords_cases (records : List DeviceRecord) :
    ((∀ record ∈ records, record.Fits) ∧
        (encodeRecords records).2 = none) ∨
      ∃ error, FirstMisfit records error ∧
        (encodeRecords records).2 = some error := by
  induction records with
  | nil => exact .inl ⟨by simp, rfl⟩
  | cons record rest ih =>
      simp only [encodeRecords, encodeRecord]
      rcases StaticBlock.ofRecord_cases record rest.isEmpty with
        ⟨hfits, block, hblock⟩ | ⟨error, hmisfit, herror⟩
      · simp only [hblock, Except.map]
        rcases ih with ⟨hrest, hnone⟩ | ⟨error, hmisfit, hsome⟩
        · exact .inl ⟨List.forall_mem_cons.mpr ⟨hfits, hrest⟩, hnone⟩
        · exact .inr ⟨error, hmisfit.cons hfits, hsome⟩
      · simp only [herror, Except.map]
        exact .inr ⟨error, .head hmisfit rest, rfl⟩

theorem encodeRecords_of_firstMisfit {records : List DeviceRecord}
    {error : SnapshotError} (hfirst : FirstMisfit records error) :
    (encodeRecords records).2 = some error := by
  rcases hfirst with ⟨front, faulty, rest, rfl, hfits, hmisfit⟩
  induction front with
  | nil =>
      simp only [List.nil_append, encodeRecords, encodeRecord,
        StaticBlock.ofRecord_of_misfit hmisfit, Except.map]
  | cons record front ih =>
      rw [List.forall_mem_cons] at hfits
      rw [List.cons_append, encodeRecords, encodeRecord]
      rcases StaticBlock.ofRecord_cases record
          (front ++ faulty :: rest).isEmpty with
        ⟨_, block, hblock⟩ | ⟨other, hother, _⟩
      · rw [hblock]
        exact ih hfits.2
      · exact (hfits.1.not_misfit hother).elim

/-! ## The whole snapshot -/

structure Writable (devices : List DeviceRecord) (buses : List BusRecord) :
    Prop where
  devices_ne_nil : devices ≠ []
  buses_ne_nil : buses ≠ []
  fits : ∀ record ∈ devices, record.Fits

/-- The error for lists that cannot be written. -/
inductive Unwritable (devices : List DeviceRecord)
    (buses : List BusRecord) : SnapshotError → Prop
  | noDevice (hdevices : devices = []) :
      Unwritable devices buses (.emptyTable "device")
  | noBus (hdevices : devices ≠ []) (hbuses : buses = []) :
      Unwritable devices buses (.emptyTable "bus")
  | misfit (hdevices : devices ≠ []) (hbuses : buses ≠ [])
      {error : SnapshotError} (hmisfit : FirstMisfit devices error) :
      Unwritable devices buses error

theorem Writable.not_unwritable {devices : List DeviceRecord}
    {buses : List BusRecord} {error : SnapshotError}
    (hwritable : Writable devices buses) :
    ¬Unwritable devices buses error := by
  intro hunwritable
  cases hunwritable with
  | noDevice hdevices => exact hwritable.devices_ne_nil hdevices
  | noBus _ hbuses => exact hwritable.buses_ne_nil hbuses
  | misfit _ _ hmisfit =>
      rcases hmisfit with ⟨front, record, rest, rfl, _, hfaulty⟩
      exact (hwritable.fits record (by simp)).not_misfit hfaulty

section

variable {devices : List DeviceRecord} {buses : List BusRecord}

theorem writes_of_noDevice (hempty : devices = []) (created : UInt64) :
    (writes devices buses created).2 = .error (.emptyTable "device") := by
  rw [writes, if_pos (List.isEmpty_iff.mpr hempty)]

theorem writes_of_noBus (hdevice : devices ≠ []) (hempty : buses = [])
    (created : UInt64) :
    (writes devices buses created).2 = .error (.emptyTable "bus") := by
  rw [writes, if_neg (by simpa using hdevice),
    if_pos (List.isEmpty_iff.mpr hempty)]

/-- Past the checks of the tables, only a record can be refused. -/
theorem writes_of_countable (hdevice : devices ≠ []) (hbus : buses ≠ [])
    (hdevices : devices.length < 2 ^ 32) (hbuses : buses.length < 2 ^ 32)
    (created : UInt64) :
    (writes devices buses created).2 =
      match (encodeRecords devices).2 with
      | some error => .error error
      | none =>
          .ok (headerSize + (body buses (encodeRecords devices).1).length) := by
  have hdeviceCount : ¬UInt32.size ≤ devices.length := Nat.not_le.mpr hdevices
  have hbusCount : ¬UInt32.size ≤ buses.length := Nat.not_le.mpr hbuses
  rw [writes, if_neg (by simpa using hdevice), if_neg (by simpa using hbus),
    if_neg hdeviceCount, if_neg hbusCount]
  cases hrecords : (encodeRecords devices).2 with
  | none => simp only [hrecords, body]
  | some error => simp only [hrecords]

/-- For tables that can be counted, the listed writes end with a size or with
the error of lists that cannot be written. -/
theorem writes_outcome_cases (hdevices : devices.length < 2 ^ 32)
    (hbuses : buses.length < 2 ^ 32) (created : UInt64) :
    (Writable devices buses ∧
        ∃ size, (writes devices buses created).2 = .ok size) ∨
      ∃ error, Unwritable devices buses error ∧
        (writes devices buses created).2 = .error error := by
  by_cases hdevice : devices = []
  · exact .inr ⟨_, .noDevice hdevice, writes_of_noDevice hdevice created⟩
  by_cases hbus : buses = []
  · exact .inr ⟨_, .noBus hdevice hbus,
      writes_of_noBus hdevice hbus created⟩
  have hwrites := writes_of_countable hdevice hbus hdevices hbuses created
  rcases encodeRecords_cases devices with
    ⟨hfits, hnone⟩ | ⟨error, hmisfit, hsome⟩
  · rw [hnone] at hwrites
    exact .inl ⟨⟨hdevice, hbus, hfits⟩, _, hwrites⟩
  · rw [hsome] at hwrites
    exact .inr ⟨error, .misfit hdevice hbus hmisfit, hwrites⟩

theorem writes_of_unwritable (hdevices : devices.length < 2 ^ 32)
    (hbuses : buses.length < 2 ^ 32) {error : SnapshotError}
    (hunwritable : Unwritable devices buses error) (created : UInt64) :
    (writes devices buses created).2 = .error error := by
  cases hunwritable with
  | noDevice hempty => exact writes_of_noDevice hempty created
  | noBus hdevice hempty => exact writes_of_noBus hdevice hempty created
  | misfit hdevice hbus hmisfit =>
      rw [writes_of_countable hdevice hbus hdevices hbuses,
        encodeRecords_of_firstMisfit hmisfit]

/-- Two tables that can be counted are written if and only if they have entries
and all records fit.  Otherwise the first fault is reported: a table without
entries, the device table before the bus table, or the first limit broken by the
first record that breaks any.  The fields of one byte never lose anything. -/
theorem written_iff_writable (buffer : Bytes) (start : Nat)
    (created : UInt64) (hdevices : devices.length < 2 ^ 32)
    (hbuses : buses.length < 2 ^ 32) :
    ((∃ size, (writeAt buffer start devices buses created).2 = .ok size) ↔
        Writable devices buses) ∧
      (∀ error,
        (writeAt buffer start devices buses created).2 = .error error ↔
          Unwritable devices buses error) ∧
      ∀ record ∈ devices, ∀ isFinal block,
        StaticBlock.ofRecord record isFinal = .ok block →
          block.resourceCount.toNat = record.resources.length ∧
            block.driverLength.toNat = driverSize record.driver := by
  have hcases := writes_outcome_cases hdevices hbuses created
  unfold writeAt
  refine ⟨⟨?_, ?_⟩, fun error => ⟨?_, ?_⟩, ?_⟩
  · intro hwritten
    rcases hcases with ⟨hwritable, _⟩ | ⟨error, _, herror⟩
    · exact hwritable
    · rcases hwritten with ⟨size, hsize⟩
      rw [herror] at hsize
      contradiction
  · intro hwritable
    rcases hcases with ⟨_, hwritten⟩ | ⟨error, hunwritable, _⟩
    · exact hwritten
    · exact (hwritable.not_unwritable hunwritable).elim
  · intro herror
    rcases hcases with ⟨_, size, hsize⟩ | ⟨other, hunwritable, hother⟩
    · rw [hsize] at herror
      contradiction
    · rw [hother] at herror
      cases herror
      exact hunwritable
  · intro hunwritable
    exact writes_of_unwritable hdevices hbuses hunwritable created
  · intro record _ isFinal block hblock
    exact StaticBlock.lengths_of_ofRecord hblock

theorem boundRecord_fits : boundRecord.Fits := by
  constructor
  · exact .inl List.length_replicate
  · decide
  · intro name hname
    cases hname
    decide +kernel
  · intro name hname
    cases hname
    decide +kernel

/-- The second record has a bad configuration space and a bad driver name, the
third one only a bad driver name. -/
def faultyDevices : List DeviceRecord :=
  [boundRecord,
    { unboundRecord with config := [0x86], driver := some "a\x00" },
    { unboundRecord with driver := some "b\x00" }]

theorem written_iff_writable_faultyDevices :
    faultyDevices.length < 2 ^ 32 ∧
      (writeAt [] 0 faultyDevices [⟨⟨0, 0⟩, true⟩] 7).2 =
        .error
          (.corrupt "config space is neither 256 nor 4096 bytes") ∧
      (writeAt [] 0 faultyDevices [] 7).2 = .error (.emptyTable "bus") ∧
      ∃ size,
        (writeAt [] 0 [boundRecord] [⟨⟨0, 0⟩, true⟩] 7).2 = .ok size := by
  have hdevices : faultyDevices.length < 2 ^ 32 := by decide
  have hconfig : Unwritable faultyDevices [⟨⟨0, 0⟩, true⟩]
      (.corrupt "config space is neither 256 nor 4096 bytes") :=
    .misfit (by simp [faultyDevices]) (by simp)
      ⟨[boundRecord], _, _, rfl, by simpa using boundRecord_fits,
        .config (by simp [DeviceRecord.HasConfigSize])⟩
  have hnoBus : Unwritable faultyDevices [] (.emptyTable "bus") :=
    .noBus (by simp [faultyDevices]) rfl
  have hwritable : Writable [boundRecord] [⟨⟨0, 0⟩, true⟩] :=
    ⟨by simp, by simp, by simpa using boundRecord_fits⟩
  exact ⟨hdevices,
    ((written_iff_writable [] 0 7 hdevices (by decide)).2.1 _).mpr hconfig,
    ((written_iff_writable [] 0 7 hdevices (by decide)).2.1 _).mpr hnoBus,
    (written_iff_writable [] 0 7 (by decide) (by decide)).1.mpr hwritable⟩

end

end Snapshot

end PciInventory
