import Mathlib
import PciInventory.Proofs.FileTree.NewName
import PciInventory.Proofs.Snapshot.RoundTrip
import PciInventory.Snapshot.Source

/-!
# Publishing is all or nothing

A snapshot is published by operations on the disk: a file without a name is
opened in the directory, written to, and given its name.  Only the last of these
touches the tree, it comes after the whole content is there, and it fails if the
name is not free.  So wherever the operations stop, the tree is either as it was
or has the finished snapshot as its only new entry.
-/

namespace PciInventory.Snapshot

inductive Operation where
  | create (directory : Bytes)
  | write (write : Write)
  | name (path : Bytes)

/-- The tree, and the content of the open file that has no name. -/
structure Disk where
  tree : FileTree
  unnamed : Bytes

def Disk.perform (disk : Disk) : Operation → Except SnapshotError Disk
  | .create directory =>
      match disk.tree.checkDirectory directory with
      | .error error => .error (.io error)
      | .ok _ => .ok { disk with unnamed := [] }
  | .write write =>
      .ok { disk with
        unnamed := disk.unnamed.overwrite write.offset write.content }
  | .name path =>
      match disk.tree.newName path with
      | .error error => .error (namingError path error)
      | .ok location =>
          .ok { disk with
            tree := disk.tree.insert location (.file disk.unnamed) }

/-- Performs operations up to the first that fails.  What has been done by then
stays. -/
def Disk.performAll (disk : Disk) :
    List Operation → Disk × Except SnapshotError Unit
  | [] => (disk, .ok ())
  | operation :: rest =>
      match disk.perform operation with
      | .error error => (disk, .error error)
      | .ok next => next.performAll rest

/-- The operations before the name is given. -/
def preparation (path : Bytes) (made : List Write) : List Operation :=
  .create (Path.directoryOf path) :: made.map Operation.write

/-- Content that is left unfinished gets no name. -/
def publication (path : Bytes) (devices : List DeviceRecord)
    (buses : List BusRecord) (created : UInt64) : List Operation :=
  let made := writes devices buses created
  preparation path made.1 ++
    match made.2 with
    | .error _ => []
    | .ok _ => [.name path]

def Disk.publish (disk : Disk) (path : Bytes) (devices : List DeviceRecord)
    (buses : List BusRecord) (created : UInt64) :
    Disk × Except SnapshotError Nat :=
  match disk.performAll (publication path devices buses created) with
  | (disk, .error error) => (disk, .error error)
  | (disk, .ok _) => (disk, (writes devices buses created).2)

/-! ## Steps -/

theorem Disk.performAll_append (disk : Disk) (first second : List Operation) :
    disk.performAll (first ++ second) =
      match disk.performAll first with
      | (disk, .error error) => (disk, .error error)
      | (disk, .ok _) => disk.performAll second := by
  induction first generalizing disk with
  | nil => rfl
  | cons operation rest ih =>
      simp only [List.cons_append, performAll]
      cases disk.perform operation with
      | error error => rfl
      | ok next => exact ih next

theorem Disk.tree_perform {disk next : Disk} {operation : Operation}
    (hstep : disk.perform operation = .ok next)
    (hunnamed : ∀ path, operation ≠ .name path) : next.tree = disk.tree := by
  cases operation with
  | create directory =>
      simp only [perform] at hstep
      split at hstep
      next => contradiction
      next =>
          rw [← Except.ok.inj hstep]
  | write write => rw [← Except.ok.inj hstep]
  | name path => exact (hunnamed path rfl).elim

/-- Without a name nothing is seen of what is done. -/
theorem Disk.tree_performAll (disk : Disk) {operations : List Operation}
    (hunnamed : ∀ path, Operation.name path ∉ operations) :
    (disk.performAll operations).1.tree = disk.tree := by
  induction operations generalizing disk with
  | nil => rfl
  | cons operation rest ih =>
      simp only [performAll]
      cases hstep : disk.perform operation with
      | error error => rfl
      | ok next =>
          have htree : next.tree = disk.tree :=
            tree_perform hstep fun path hname =>
              hunnamed path (hname ▸ List.mem_cons_self)
          rw [← htree]
          exact ih next fun path hname =>
            hunnamed path (List.mem_cons_of_mem _ hname)

theorem Disk.performAll_writes (disk : Disk) (made : List Write) :
    disk.performAll (made.map Operation.write) =
      (⟨disk.tree, Snapshot.perform 0 disk.unnamed made⟩, .ok ()) := by
  induction made generalizing disk with
  | nil => rfl
  | cons write rest ih =>
      simp only [List.map_cons, performAll, perform]
      rw [ih, Snapshot.perform, Snapshot.perform, List.foldl_cons,
        Nat.zero_add]

theorem name_notMem_preparation (path other : Bytes) (made : List Write) :
    Operation.name other ∉ preparation path made := by
  simp [preparation]

theorem Disk.performAll_preparation {disk : Disk} {path : Bytes}
    (made : List Write) :
    disk.performAll (preparation path made) =
      match disk.tree.checkDirectory (Path.directoryOf path) with
      | .error error => (disk, .error (.io error))
      | .ok _ => (⟨disk.tree, Snapshot.perform 0 [] made⟩, .ok ()) := by
  simp only [preparation, performAll, perform]
  cases disk.tree.checkDirectory (Path.directoryOf path) with
  | error error => rfl
  | ok => exact performAll_writes _ made

/-! ## Whole runs -/

theorem length_of_writes {devices : List DeviceRecord}
    {buses : List BusRecord} {created : UInt64} {size : Nat}
    (hwritten : (writes devices buses created).2 = .ok size) :
    (perform 0 [] (writes devices buses created).1).length = size := by
  obtain ⟨table, hfills⟩ := exists_fills_of_writes hwritten
  have hcontent := hfills.writeAt_eq created [] 0
  rw [Bytes.nil_overwrite_zero] at hcontent
  obtain ⟨hbuffer, hsize⟩ := Prod.mk.inj hcontent
  rw [hwritten] at hsize
  rw [hbuffer, ← Except.ok.inj hsize]

/-- The operations do what publishing is said to do. -/
theorem Disk.publish_eq (disk : Disk) (path : Bytes)
    (devices : List DeviceRecord) (buses : List BusRecord)
    (created : UInt64) :
    ((disk.publish path devices buses created).1.tree,
        (disk.publish path devices buses created).2) =
      match Snapshot.publish disk.tree path devices buses created with
      | .error error => (disk.tree, .error error)
      | .ok (tree, size) => (tree, .ok size) := by
  have hencode : encode devices buses created =
      (writes devices buses created).2.map fun _ =>
        Snapshot.perform 0 [] (writes devices buses created).1 := rfl
  unfold publish publication Snapshot.publish
  simp only [performAll_append, performAll_preparation, hencode]
  cases disk.tree.checkDirectory (Path.directoryOf path) with
  | error error => rfl
  | ok =>
  cases hwritten : (writes devices buses created).2 with
  | error error => rfl
  | ok size =>
  simp only [performAll, perform, Except.map]
  cases disk.tree.newName path with
  | error error => rfl
  | ok location => rw [length_of_writes hwritten]

/-! ## Outcomes -/

theorem StaticBlock.ofRecord_ne_targetExists (record : DeviceRecord)
    (isFinal : Bool) (path : Bytes) :
    StaticBlock.ofRecord record isFinal ≠ .error (.targetExists path) := by
  unfold StaticBlock.ofRecord
  split
  next => simp
  next =>
  split
  next => simp
  next =>
  cases record.driver with
  | none => simp [driverFieldLength, Except.map]
  | some driver =>
      simp only [driverFieldLength]
      split
      next => simp [Except.map]
      next => split <;> simp [Except.map]

theorem encodeRecords_ne_targetExists (records : List DeviceRecord)
    (path : Bytes) :
    (encodeRecords records).2 ≠ some (.targetExists path) := by
  induction records with
  | nil => simp [encodeRecords]
  | cons record rest ih =>
      simp only [encodeRecords]
      cases hrecord : encodeRecord record rest.isEmpty with
      | ok content => exact ih
      | error error =>
          rintro ⟨⟩
          unfold encodeRecord at hrecord
          cases hblock : StaticBlock.ofRecord record rest.isEmpty with
          | ok block =>
              rw [hblock] at hrecord
              contradiction
          | error error =>
              rw [hblock] at hrecord
              cases hrecord
              exact StaticBlock.ofRecord_ne_targetExists record _ path hblock

/-- No content is refused as if its name were taken. -/
theorem encode_ne_targetExists (devices : List DeviceRecord)
    (buses : List BusRecord) (created : UInt64) (path : Bytes) :
    encode devices buses created ≠ .error (.targetExists path) := by
  have hencode : encode devices buses created =
      (writes devices buses created).2.map fun _ =>
        perform 0 [] (writes devices buses created).1 := rfl
  rw [hencode]
  unfold writes
  split
  next => simp [Except.map]
  next =>
  split
  next => simp [Except.map]
  next =>
  split
  next => simp [Except.map]
  next =>
  split
  next => simp [Except.map]
  next =>
  have hrecords := encodeRecords_ne_targetExists devices path
  cases herror : (encodeRecords devices).2 with
  | none => simp [herror, Except.map]
  | some error =>
      rw [herror] at hrecords
      simpa [herror, Except.map] using hrecords

theorem exists_name_of_publish {tree published : FileTree} {path : Bytes}
    {devices : List DeviceRecord} {buses : List BusRecord}
    {created : UInt64} {size : Nat}
    (hpublish :
      publish tree path devices buses created = .ok (published, size)) :
    ∃ location content, tree.newName path = .ok location ∧
      encode devices buses created = .ok content ∧
      published = tree.insert location (.file content) ∧
      content.length = size := by
  unfold publish at hpublish
  split at hpublish
  next => contradiction
  next =>
  split at hpublish
  next => contradiction
  next content hencode =>
  split at hpublish
  next => contradiction
  next location hname =>
  cases hpublish
  exact ⟨location, content, hname, hencode, rfl, rfl⟩

theorem exists_name_of_save {tree saved : FileTree}
    {source : SnapshotSource} {topology : Topology} {created : UInt64}
    (hsave : source.save tree topology created = .ok saved) :
    ∃ location content, tree.newName source.path = .ok location ∧
      encode topology.deviceRecords topology.busRecords created =
        .ok content ∧
      saved = tree.insert location (.file content) := by
  unfold SnapshotSource.save at hsave
  split at hsave
  next published size hpublish =>
      obtain ⟨location, content, hname, hencode, htree, _⟩ :=
        exists_name_of_publish hpublish
      cases hsave
      exact ⟨location, content, hname, hencode, htree⟩
  next => contradiction

theorem publish_eq_targetExists_iff {tree : FileTree} {path target : Bytes}
    {devices : List DeviceRecord} {buses : List BusRecord}
    {created : UInt64} :
    publish tree path devices buses created =
        .error (.targetExists target) ↔
      target = path ∧
        tree.checkDirectory (Path.directoryOf path) = .ok () ∧
        (∃ content, encode devices buses created = .ok content) ∧
        tree.newName path = .error (.os .alreadyExists) := by
  unfold publish
  cases tree.checkDirectory (Path.directoryOf path) with
  | error error => simp
  | ok =>
  cases hencode : encode devices buses created with
  | error error =>
      have hne := encode_ne_targetExists devices buses created target
      rw [hencode] at hne
      simpa using hne
  | ok content =>
  cases tree.newName path with
  | ok location => simp
  | error error =>
      by_cases herror : error = .os .alreadyExists
      · simp [namingError, herror, eq_comm]
      · simp [namingError, herror]

theorem exists_publication_eq (path : Bytes) (devices : List DeviceRecord)
    (buses : List BusRecord) (created : UInt64) :
    ∃ last,
      publication path devices buses created =
        preparation path (writes devices buses created).1 ++ last ∧
      last.length ≤ 1 := by
  refine ⟨_, rfl, ?_⟩
  split <;> simp

theorem Disk.tree_publish (disk : Disk) (path : Bytes)
    (devices : List DeviceRecord) (buses : List BusRecord)
    (created : UInt64) :
    (disk.publish path devices buses created).1.tree =
      (disk.performAll
        (publication path devices buses created)).1.tree := by
  unfold publish
  split
  next hdone => rw [hdone]
  next hdone => rw [hdone]

/-- However far publishing has come, the tree is as it was or as it will be. -/
theorem Disk.tree_take_publication (disk : Disk) (path : Bytes)
    (devices : List DeviceRecord) (buses : List BusRecord)
    (created : UInt64) (count : Nat) :
    (disk.performAll
        ((publication path devices buses created).take count)).1.tree =
      disk.tree ∨
    (disk.performAll
        ((publication path devices buses created).take count)).1.tree =
      (disk.publish path devices buses created).1.tree := by
  obtain ⟨last, hpublication, hlast⟩ :=
    exists_publication_eq path devices buses created
  rw [hpublication]
  by_cases hcount :
      count ≤ (preparation path (writes devices buses created).1).length
  · left
    rw [List.take_append_of_le_length hcount]
    apply tree_performAll
    intro other hother
    exact name_notMem_preparation path other _ (List.mem_of_mem_take hother)
  · right
    rw [List.take_of_length_le (by rw [List.length_append]; omega),
      ← hpublication, tree_publish]

/-- A snapshot is published under a name that was free, whole and readable, and
nothing else changes; or nothing changes at all.  A name is refused as taken
only by an entry that has it, and only once everything else is in order. -/
theorem published_or_unchanged {disk done : Disk} {path : Bytes}
    {devices : List DeviceRecord} {buses : List BusRecord}
    {created : UInt64} {outcome : Except SnapshotError Nat}
    (hdone : disk.publish path devices buses created = (done, outcome)) :
    (∀ size, outcome = .ok size →
      publish disk.tree path devices buses created = .ok (done.tree, size) ∧
        ∃ location content,
          disk.tree.resolve .named path = .ok (.free location) ∧
          done.tree.resolve .named path =
            .ok (.occupied location (.file content)) ∧
          done.tree.contentAt path = .ok content ∧
          content.length = size ∧
          decode content =
            .ok ⟨created, devices.map DeviceRecord.stored, buses⟩ ∧
          done.tree.current = disk.tree.current ∧
          (∀ other ≠ location,
            done.tree.find? other = disk.tree.find? other) ∧
          (disk.tree.WellFormed → done.tree.WellFormed)) ∧
      ∀ error, outcome = .error error →
        publish disk.tree path devices buses created = .error error ∧
          done.tree = disk.tree ∧
          ∀ target, error = .targetExists target →
            target = path ∧
              (∃ directory,
                disk.tree.entryAt .reached (Path.directoryOf path) =
                  .ok (directory, .directory)) ∧
              (∃ content, encode devices buses created = .ok content) ∧
              (disk.tree.WellFormed → disk.tree.Taken path) := by
  have hsame := disk.publish_eq path devices buses created
  rw [hdone] at hsame
  cases hpublish : publish disk.tree path devices buses created with
  | error error =>
      rw [hpublish] at hsame
      obtain ⟨htree, rfl⟩ := Prod.mk.inj hsame
      refine ⟨by simp, ?_⟩
      rintro _ ⟨⟩
      refine ⟨rfl, htree, ?_⟩
      rintro target rfl
      obtain ⟨rfl, hdirectory, hencode, hname⟩ :=
        publish_eq_targetExists_iff.mp hpublish
      exact ⟨rfl, FileTree.checkDirectory_eq_ok_iff.mp hdirectory, hencode,
        fun hformed =>
          ((FileTree.newName_eq_alreadyExists_iff hformed).mp hname).2⟩
  | ok made =>
      rcases made with ⟨published, size⟩
      rw [hpublish] at hsame
      obtain ⟨rfl, rfl⟩ := Prod.mk.inj hsame
      refine ⟨?_, by simp⟩
      rintro _ ⟨⟩
      obtain ⟨location, content, hname, hencode, htree, hlength⟩ :=
        exists_name_of_publish hpublish
      refine ⟨rfl, location, content, FileTree.resolve_of_newName hname, ?_⟩
      rw [htree]
      exact ⟨FileTree.resolve_insert_of_newName hname content (by simp),
        FileTree.contentAt_insert_of_newName hname content, hlength,
        decode_of_encode hencode, rfl,
        fun other hother => disk.tree.find?_insert_of_ne hother _,
        fun hformed => hformed.insert_of_newName hname content⟩

/-- All there is on the disk is a link that leads nowhere. -/
def danglingDisk : Disk :=
  ⟨⟨[([[0x73]], .link [0x78])], []⟩, []⟩

theorem danglingDisk_wellFormed : danglingDisk.tree.WellFormed := by
  intro name directory hentry
  by_cases hlocation : name :: directory = [[0x73]]
  · cases hlocation
    rfl
  · have hmissing : danglingDisk.tree.find? (name :: directory) = none := by
      unfold FileTree.find? danglingDisk
      rw [List.lookup_cons, beq_eq_false_iff_ne.mpr hlocation]
      rfl
    exact (hentry hmissing).elim

set_option maxRecDepth 20000 in
theorem published_or_unchanged_danglingLink :
    danglingDisk.publish [0x73] smallestSnapshot.devices
          smallestSnapshot.buses 5 =
        (⟨danglingDisk.tree, smallestContent⟩,
          .error (.targetExists [0x73])) ∧
      danglingDisk.tree.Taken [0x73] ∧
      danglingDisk.publish [0x74] smallestSnapshot.devices
          smallestSnapshot.buses 5 =
        (⟨danglingDisk.tree.insert [[0x74]] (.file smallestContent),
          smallestContent⟩, .ok 307) ∧
      ∃ location content,
        danglingDisk.tree.resolve .named [0x74] = .ok (.free location) ∧
        (danglingDisk.tree.insert [[0x74]]
          (.file smallestContent)).contentAt [0x74] = .ok content ∧
        content.length = 307 ∧
        decode content = .ok smallestSnapshot := by
  have hrefused :
      danglingDisk.publish [0x73] smallestSnapshot.devices
          smallestSnapshot.buses 5 =
        (⟨danglingDisk.tree, smallestContent⟩,
          .error (.targetExists [0x73])) := by cbv
  have hpublished :
      danglingDisk.publish [0x74] smallestSnapshot.devices
          smallestSnapshot.buses 5 =
        (⟨danglingDisk.tree.insert [[0x74]] (.file smallestContent),
          smallestContent⟩, .ok 307) := by cbv
  refine ⟨hrefused, ?_, hpublished, ?_⟩
  · obtain ⟨_, _, hreason⟩ := (published_or_unchanged hrefused).2 _ rfl
    exact (hreason _ rfl).2.2.2 danglingDisk_wellFormed
  · obtain ⟨_, location, content, hfree, _, hcontent, hlength, hdecode, _⟩ :=
      (published_or_unchanged hpublished).1 307 rfl
    exact ⟨location, content, hfree, hcontent, hlength, hdecode⟩

end PciInventory.Snapshot
