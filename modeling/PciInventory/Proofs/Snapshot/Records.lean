import PciInventory.Proofs.Address.Packing
import PciInventory.Proofs.Snapshot.Fields
import PciInventory.Snapshot.Reader
import PciInventory.Snapshot.Writer

/-!
# Exact readers of the device and bus tables

The static block of a device record determines the sizes of what follows it,
and the writer derives the block from the record.  A block that describes a
record therefore lets the reader of the variable part be exact as well.

The sentinel and the masked bits of a packed address are the only places where
writing loses something: records that lose nothing are kept exactly, and the
readers return no others.
-/

namespace PciInventory

open Snapshot

namespace DeviceRecord

/-- The value that a snapshot gives back for a NUMA node or an IOMMU group. -/
def storedWord (value : Option UInt16) : Option UInt16 :=
  if value = some noValue then none else value

/-- The record that a snapshot gives back: device and function number cut to
five and three bits, the sentinel taken for an unknown value. -/
def stored (record : DeviceRecord) : DeviceRecord :=
  { record with
    address := record.address.masked
    numaNode := storedWord record.numaNode
    iommuGroup := storedWord record.iommuGroup }

structure KeptExactly (record : DeviceRecord) : Prop where
  address : record.address.InRange
  numaNode : record.numaNode ≠ some noValue
  iommuGroup : record.iommuGroup ≠ some noValue

theorem storedWord_ne (value : Option UInt16) :
    storedWord value ≠ some noValue := by
  unfold storedWord
  split
  next => simp
  next hvalue => exact hvalue

theorem storedWord_eq_self_iff (value : Option UInt16) :
    storedWord value = value ↔ value ≠ some noValue := by
  constructor
  · intro hvalue
    rw [← hvalue]
    exact storedWord_ne value
  · intro hvalue
    rw [storedWord, if_neg hvalue]

theorem optionalWord_storedWord (value : Option UInt16) :
    optionalWord (storedWord value) = optionalWord value := by
  unfold storedWord
  split
  next hvalue => rw [hvalue]; rfl
  next => rfl

theorem stored_keptExactly (record : DeviceRecord) :
    record.stored.KeptExactly :=
  ⟨record.address.masked_inRange, storedWord_ne _, storedWord_ne _⟩

theorem keptExactly_of_mem_map_stored {records : List DeviceRecord} :
    ∀ record ∈ records.map stored, record.KeptExactly := by
  intro record hrecord
  obtain ⟨original, _, rfl⟩ := List.mem_map.mp hrecord
  exact original.stored_keptExactly

theorem KeptExactly.stored_eq {record : DeviceRecord}
    (hkept : record.KeptExactly) : record.stored = record := by
  have haddress := (Address.masked_eq_self_iff _).mpr hkept.address
  have hnuma := (storedWord_eq_self_iff _).mpr hkept.numaNode
  have hiommu := (storedWord_eq_self_iff _).mpr hkept.iommuGroup
  simp only [stored, haddress, hnuma, hiommu]

end DeviceRecord

namespace Snapshot

theorem eq_knownWord_iff {word : UInt16} {value : Option UInt16} :
    value = knownWord word ↔
      word = optionalWord value ∧ value ≠ some noValue := by
  unfold knownWord optionalWord
  constructor
  · intro hvalue
    split at hvalue
    next hword => simp [hvalue, hword]
    next hword => simp [hvalue, hword]
  · intro hparts
    rcases hparts with ⟨rfl, hvalue⟩
    cases value with
    | none => simp
    | some word => simpa using hvalue

/-! ## The variable part of a device record -/

theorem run_readResource_eq_ok_iff {input rest : Bytes}
    {resource : Resource} :
    readResource.run input = .ok (resource, rest) ↔
      input = encodeResource resource ++ rest := by
  unfold readResource
  simp only [Reader.run_bind_eq_ok_iff, Reader.run_word64_eq_ok_iff,
    Reader.run_pure_eq_ok_iff]
  constructor
  · intro hparts
    rcases hparts with ⟨start, _, rfl, finish, _, rfl, flags, _, rfl, rfl, rfl⟩
    simp only [encodeResource, List.append_assoc]
  · intro hinput
    subst hinput
    simp only [encodeResource, List.append_assoc]
    exact ⟨resource.start, _, rfl, resource.finish, _, rfl,
      resource.flags, _, rfl, rfl, rfl⟩

/-- A reader that repeats an exact one is exact on the encodings in a row. -/
theorem run_repeated_eq_ok_iff {α : Type} {read : Reader α}
    {encode : α → Bytes} {repeated : Nat → Reader (List α)}
    (hread : ∀ {input rest : Bytes} {value : α},
      read.run input = .ok (value, rest) ↔ input = encode value ++ rest)
    (hzero : repeated 0 = pure [])
    (hsucc : ∀ count, repeated (count + 1) = do
      let value ← read
      let others ← repeated count
      return value :: others)
    {count : Nat} {input rest : Bytes} {values : List α} :
    (repeated count).run input = .ok (values, rest) ↔
      values.length = count ∧ input = values.flatMap encode ++ rest := by
  induction count generalizing input values rest with
  | zero =>
      rw [hzero, Reader.run_pure_eq_ok_iff, List.length_eq_zero_iff]
      constructor
      · intro hparts
        rcases hparts with ⟨rfl, rfl⟩
        exact ⟨rfl, rfl⟩
      · intro hparts
        rcases hparts with ⟨rfl, rfl⟩
        exact ⟨rfl, rfl⟩
  | succ count ih =>
      rw [hsucc]
      simp only [Reader.run_bind_eq_ok_iff, hread, ih,
        Reader.run_pure_eq_ok_iff]
      constructor
      · intro hparts
        rcases hparts with ⟨value, _, rfl, others, _, ⟨rfl, rfl⟩, rfl, rfl⟩
        simp only [List.length_cons, List.flatMap_cons, List.append_assoc,
          and_self]
      · intro hparts
        rcases hparts with ⟨hlength, rfl⟩
        obtain ⟨value, others, rfl⟩ :=
          List.exists_cons_of_length_eq_add_one hlength
        refine ⟨value, _, ?_, others, _, ⟨?_, rfl⟩, rfl, rfl⟩
        · simp only [List.flatMap_cons, List.append_assoc]
        · simpa using hlength

theorem run_readResources_eq_ok_iff {count : Nat} {input rest : Bytes}
    {resources : List Resource} :
    (readResources count).run input = .ok (resources, rest) ↔
      resources.length = count ∧
        input = resources.flatMap encodeResource ++ rest :=
  run_repeated_eq_ok_iff run_readResource_eq_ok_iff rfl fun _ => rfl

theorem driverFieldLength_some_eq_ok_iff {driver : String}
    {length : UInt8} :
    driverFieldLength (some driver) = .ok length ↔
      length.toNat = (Bytes.ofText driver).length + 1 ∧
        0 ∉ Bytes.ofText driver := by
  unfold driverFieldLength
  simp only [maxDriverLength, List.contains_iff_mem]
  split
  next hlong =>
    have hlt : length.toNat < 256 := length.toNat_lt
    simp only [reduceCtorEq, false_iff, not_and]
    omega
  next hshort =>
    split
    next hzero => simp [hzero]
    next hzero =>
      have hsize : (UInt8.ofNat ((Bytes.ofText driver).length + 1)).toNat =
          (Bytes.ofText driver).length + 1 := by
        rw [UInt8.toNat_ofNat']
        omega
      rw [Except.ok.injEq, ← UInt8.toNat_inj, hsize]
      simp [hzero, eq_comm]

theorem run_readDriver_eq_ok_iff {length : UInt8} {input rest : Bytes}
    {driver : Option String} :
    (readDriver length).run input = .ok (driver, rest) ↔
      driverFieldLength driver = .ok length ∧
        input = encodeDriver driver ++ rest := by
  unfold readDriver
  split
  next hlength =>
    rw [Reader.run_pure_eq_ok_iff, hlength]
    cases driver with
    | none => simp [driverFieldLength, encodeDriver]
    | some name => simp [driverFieldLength_some_eq_ok_iff]
  next hlength =>
    simp only [Reader.run_bind_eq_ok_iff,
      Reader.run_terminated_eq_ok_iff, Reader.run_pure_eq_ok_iff]
    constructor
    · intro hparts
      rcases hparts with ⟨name, _, ⟨hname, hzero, rfl⟩, rfl, rfl⟩
      exact ⟨driverFieldLength_some_eq_ok_iff.mpr ⟨hname, hzero⟩,
        by simp [encodeDriver]⟩
    · intro hparts
      rcases hparts with ⟨hdriver, rfl⟩
      cases driver with
      | none =>
          simp only [driverFieldLength, Except.ok.injEq] at hdriver
          exact (hlength hdriver.symm).elim
      | some name =>
          obtain ⟨hname, hzero⟩ :=
            driverFieldLength_some_eq_ok_iff.mp hdriver
          exact ⟨name, rest, ⟨hname, hzero, by simp [encodeDriver]⟩,
            rfl, rfl⟩

/-! ## Device records -/

/-- What the fields of a static block say of the record behind it, apart from
its place in the table. -/
structure StaticBlock.Describes (block : StaticBlock)
    (record : DeviceRecord) : Prop where
  address : block.address = record.address.pack
  config : record.config.length = block.configLength
  resources : record.resources.length = block.resourceCount.toNat
  driver : driverFieldLength record.driver = .ok block.driverLength
  numaNode : block.numaNode = optionalWord record.numaNode
  iommuGroup : block.iommuGroup = optionalWord record.iommuGroup

theorem StaticBlock.eq_configLength_iff {block : StaticBlock}
    {length : Nat} :
    length = block.configLength ↔
      ¬(length ≠ ConfigSpace.conventionalSize ∧
          length ≠ ConfigSpace.extendedSize) ∧
        block.isExtended = decide (length = ConfigSpace.extendedSize) := by
  unfold StaticBlock.configLength ConfigSpace.conventionalSize
    ConfigSpace.extendedSize
  cases block.isExtended with
  | false =>
      rw [if_neg Bool.false_ne_true, eq_comm (a := false),
        decide_eq_false_iff_not]
      omega
  | true =>
      rw [if_pos rfl, eq_comm (a := true), decide_eq_true_iff]
      omega

theorem StaticBlock.ofRecord_eq_ok_iff {record : DeviceRecord}
    {isFinal : Bool} {block : StaticBlock} :
    StaticBlock.ofRecord record isFinal = .ok block ↔
      block.Describes record ∧ block.isFinal = isFinal := by
  unfold StaticBlock.ofRecord
  constructor
  · intro hblock
    split at hblock
    next => contradiction
    next hconfig =>
      split at hblock
      next => contradiction
      next hcount =>
        cases hdriver : driverFieldLength record.driver with
        | error error =>
            rw [hdriver] at hblock
            contradiction
        | ok driverLength =>
            rw [hdriver] at hblock
            simp only [Except.map, Except.ok.injEq] at hblock
            subst block
            refine ⟨⟨rfl, ?_, ?_, hdriver, rfl, rfl⟩, rfl⟩
            · exact StaticBlock.eq_configLength_iff.mpr ⟨hconfig, rfl⟩
            · simp only [UInt8.toNat_ofNat']
              omega
  · intro hparts
    rcases hparts with ⟨hdescribes, rfl⟩
    obtain ⟨hconfig, hextended⟩ :=
      StaticBlock.eq_configLength_iff.mp hdescribes.config
    have hcount : block.resourceCount.toNat < 256 :=
      block.resourceCount.toNat_lt
    have hresources := hdescribes.resources
    rw [if_neg hconfig, if_neg (by omega), hdescribes.driver, hresources,
      ← hextended, ← hdescribes.address, ← hdescribes.numaNode,
      ← hdescribes.iommuGroup, UInt8.ofNat_toNat]
    rfl

theorem encodeRecord_eq_ok_iff {record : DeviceRecord} {isFinal : Bool}
    {content : Bytes} :
    encodeRecord record isFinal = .ok content ↔
      ∃ block : StaticBlock, block.Describes record ∧
        block.isFinal = isFinal ∧
        content = block.encode ++ (record.resources.flatMap encodeResource ++
          (encodeDriver record.driver ++ record.config)) := by
  unfold encodeRecord
  constructor
  · intro hcontent
    cases hblock : StaticBlock.ofRecord record isFinal with
    | error error =>
        rw [hblock] at hcontent
        contradiction
    | ok block =>
        rw [hblock] at hcontent
        simp only [Except.map, Except.ok.injEq, List.append_assoc]
          at hcontent
        obtain ⟨hdescribes, hfinal⟩ :=
          StaticBlock.ofRecord_eq_ok_iff.mp hblock
        exact ⟨block, hdescribes, hfinal, hcontent.symm⟩
  · intro hparts
    rcases hparts with ⟨block, hdescribes, hfinal, rfl⟩
    rw [StaticBlock.ofRecord_eq_ok_iff.mpr ⟨hdescribes, hfinal⟩]
    simp only [Except.map, List.append_assoc]

theorem flatMap_length_of_forall {α : Type} {encode : α → Bytes}
    {size : Nat} (hsize : ∀ value, (encode value).length = size)
    (values : List α) :
    (values.flatMap encode).length = values.length * size := by
  induction values with
  | nil => simp
  | cons value rest ih =>
      rw [List.flatMap_cons, List.length_append, hsize, ih,
        List.length_cons, Nat.succ_mul, Nat.add_comm]

theorem flatMap_encodeResource_length (resources : List Resource) :
    (resources.flatMap encodeResource).length =
      resources.length * resourceSize :=
  flatMap_length_of_forall
    (fun resource => by simp [encodeResource, resourceSize]) resources

theorem encodeDriver_length {driver : Option String} {length : UInt8}
    (hdriver : driverFieldLength driver = .ok length) :
    (encodeDriver driver).length = length.toNat := by
  cases driver with
  | none =>
      simp only [driverFieldLength, Except.ok.injEq] at hdriver
      subst length
      rfl
  | some name =>
      obtain ⟨hname, _⟩ := driverFieldLength_some_eq_ok_iff.mp hdriver
      simp [encodeDriver, hname]

theorem StaticBlock.Describes.content_length {block : StaticBlock}
    {record : DeviceRecord} (hdescribes : block.Describes record) :
    (block.encode ++ (record.resources.flatMap encodeResource ++
      (encodeDriver record.driver ++ record.config))).length =
      staticSize + block.dynamicLength := by
  simp only [List.length_append, StaticBlock.encode_length,
    flatMap_encodeResource_length, hdescribes.resources,
    encodeDriver_length hdescribes.driver, hdescribes.config,
    StaticBlock.dynamicLength, Nat.add_assoc]

theorem run_readDynamic_eq_ok_iff {block : StaticBlock}
    {address : Address} {input rest : Bytes} {record : DeviceRecord}
    (haddress : block.address = address.pack) :
    (readDynamic block address).run input = .ok (record, rest) ↔
      block.Describes record ∧ record.address = address ∧
        record.numaNode ≠ some noValue ∧
        record.iommuGroup ≠ some noValue ∧
        input = record.resources.flatMap encodeResource ++
          (encodeDriver record.driver ++ (record.config ++ rest)) := by
  unfold readDynamic
  simp only [Reader.run_bind_eq_ok_iff, run_readResources_eq_ok_iff,
    run_readDriver_eq_ok_iff, Reader.run_bytes_eq_ok_iff,
    Reader.run_pure_eq_ok_iff]
  constructor
  · intro hparts
    rcases hparts with ⟨resources, _, ⟨hresources, rfl⟩,
      driver, _, ⟨hdriver, rfl⟩, config, _, ⟨hconfig, rfl⟩, rfl, rfl⟩
    obtain ⟨hnuma, hnumaKnown⟩ :=
      eq_knownWord_iff.mp (Eq.refl (knownWord block.numaNode))
    obtain ⟨hiommu, hiommuKnown⟩ :=
      eq_knownWord_iff.mp (Eq.refl (knownWord block.iommuGroup))
    exact ⟨⟨haddress, hconfig, hresources, hdriver, hnuma, hiommu⟩, rfl,
      hnumaKnown, hiommuKnown, rfl⟩
  · intro hparts
    rcases hparts with ⟨hdescribes, rfl, hnumaKnown, hiommuKnown, rfl⟩
    have hnuma : record.numaNode = knownWord block.numaNode :=
      eq_knownWord_iff.mpr ⟨hdescribes.numaNode, hnumaKnown⟩
    have hiommu : record.iommuGroup = knownWord block.iommuGroup :=
      eq_knownWord_iff.mpr ⟨hdescribes.iommuGroup, hiommuKnown⟩
    refine ⟨record.resources, _, ⟨hdescribes.resources, rfl⟩,
      record.driver, _, ⟨hdescribes.driver, rfl⟩,
      record.config, _, ⟨hdescribes.config, rfl⟩, ?_, rfl⟩
    rw [← hnuma, ← hiommu]

/-- The budget goes down by the size of the record. -/
theorem run_readRecord_eq_ok_iff {isLast : Bool} {budget left : Nat}
    {input rest : Bytes} {record : DeviceRecord} :
    (readRecord isLast budget).run input = .ok ((record, left), rest) ↔
      record.KeptExactly ∧
        ∃ content, encodeRecord record isLast = .ok content ∧
          budget = content.length + left ∧ input = content ++ rest := by
  unfold readRecord
  simp only [Reader.run_bind_eq_ok_iff, StaticBlock.run_read_eq_ok_iff]
  constructor
  · intro hparts
    rcases hparts with ⟨block, afterBlock, rfl, hrecord⟩
    split at hrecord
    next => exact (Reader.run_fail_ne_ok hrecord).elim
    next hbudget =>
      split at hrecord
      next => exact (Reader.run_fail_ne_ok hrecord).elim
      next hfinal =>
        split at hrecord
        next => exact (Reader.run_fail_ne_ok hrecord).elim
        next address haddress =>
          obtain ⟨hrange, hpack⟩ := Address.unpack?_eq_some_iff.mp haddress
          simp only [Reader.run_bind_eq_ok_iff,
            run_readDynamic_eq_ok_iff hpack, Reader.run_pure_eq_ok_iff,
            Prod.mk.injEq] at hrecord
          obtain ⟨_, _, ⟨hdescribes, rfl, hnuma, hiommu, rfl⟩,
            ⟨rfl, rfl⟩, rfl⟩ := hrecord
          refine ⟨⟨hrange, hnuma, hiommu⟩, _,
            encodeRecord_eq_ok_iff.mpr
              ⟨block, hdescribes, Classical.not_not.mp hfinal, rfl⟩, ?_, ?_⟩
          · rw [hdescribes.content_length]
            omega
          · simp only [List.append_assoc]
  · intro hparts
    rcases hparts with ⟨hkept, content, hcontent, rfl, rfl⟩
    obtain ⟨block, hdescribes, hfinal, rfl⟩ :=
      encodeRecord_eq_ok_iff.mp hcontent
    have haddress : Address.unpack? block.address = some record.address :=
      Address.unpack?_eq_some_iff.mpr ⟨hkept.address, hdescribes.address⟩
    rw [hdescribes.content_length]
    refine ⟨block, _, by simp only [List.append_assoc]; rfl, ?_⟩
    rw [if_neg (by omega), if_neg (not_not_intro hfinal), haddress]
    simp only [Reader.run_bind_eq_ok_iff,
      run_readDynamic_eq_ok_iff hdescribes.address,
      Reader.run_pure_eq_ok_iff]
    exact ⟨record, rest, ⟨hdescribes, rfl, hkept.numaNode,
      hkept.iommuGroup, rfl⟩, by rw [Nat.add_sub_cancel_left], rfl⟩

theorem encodeRecords_cons_eq_iff {record : DeviceRecord}
    {records : List DeviceRecord} {table : Bytes} :
    encodeRecords (record :: records) = (table, none) ↔
      ∃ content others, encodeRecord record records.isEmpty = .ok content ∧
        encodeRecords records = (others, none) ∧
        table = content ++ others := by
  rw [encodeRecords]
  constructor
  · intro htable
    split at htable
    next content hcontent =>
      simp only [Prod.mk.injEq] at htable
      obtain ⟨rfl, hnone⟩ := htable
      exact ⟨content, _, hcontent, Prod.ext rfl hnone, rfl⟩
    next => simp at htable
  · intro hparts
    rcases hparts with ⟨content, others, hcontent, hothers, rfl⟩
    rw [hcontent, hothers]

theorem staticSize_le_encodeRecord_length {record : DeviceRecord}
    {isFinal : Bool} {content : Bytes}
    (hcontent : encodeRecord record isFinal = .ok content) :
    staticSize ≤ content.length := by
  obtain ⟨block, hdescribes, _, rfl⟩ := encodeRecord_eq_ok_iff.mp hcontent
  rw [hdescribes.content_length]
  exact Nat.le_add_right _ _

/-- The greatest record has 255 resources, a driver name of 254 bytes and an
extended configuration space. -/
theorem encodeRecord_length_le {record : DeviceRecord}
    {isFinal : Bool} {content : Bytes}
    (hcontent : encodeRecord record isFinal = .ok content) :
    content.length ≤ 10487 := by
  obtain ⟨block, hdescribes, _, rfl⟩ := encodeRecord_eq_ok_iff.mp hcontent
  have hcount : block.resourceCount.toNat < 256 :=
    block.resourceCount.toNat_lt
  have hdriver : block.driverLength.toNat < 256 :=
    block.driverLength.toNat_lt
  have hconfig : block.configLength ≤ 4096 := by
    unfold StaticBlock.configLength
    split <;> decide
  rw [hdescribes.content_length, StaticBlock.dynamicLength]
  unfold staticSize resourceSize
  omega

theorem encodeRecords_length_bounds {records : List DeviceRecord}
    {table : Bytes} (htable : encodeRecords records = (table, none)) :
    records.length * staticSize ≤ table.length ∧
      table.length ≤ records.length * 10487 := by
  induction records generalizing table with
  | nil =>
      simp only [encodeRecords, Prod.mk.injEq, and_true] at htable
      subst table
      simp
  | cons record records ih =>
      obtain ⟨content, others, hcontent, hothers, rfl⟩ :=
        encodeRecords_cons_eq_iff.mp htable
      have hleast := staticSize_le_encodeRecord_length hcontent
      have hgreatest := encodeRecord_length_le hcontent
      obtain ⟨hlower, hupper⟩ := ih hothers
      rw [List.length_append, List.length_cons, Nat.succ_mul, Nat.succ_mul]
      omega

/-! ## Normalised records -/

theorem encodeRecord_stored (record : DeviceRecord) (isFinal : Bool) :
    encodeRecord record.stored isFinal = encodeRecord record isFinal := by
  have haddress : record.stored.address.pack = record.address.pack :=
    record.address.pack_masked
  have hnuma : optionalWord record.stored.numaNode =
      optionalWord record.numaNode :=
    DeviceRecord.optionalWord_storedWord record.numaNode
  have hiommu : optionalWord record.stored.iommuGroup =
      optionalWord record.iommuGroup :=
    DeviceRecord.optionalWord_storedWord record.iommuGroup
  unfold encodeRecord StaticBlock.ofRecord
  rw [haddress, hnuma, hiommu]
  rfl

theorem encodeRecords_map_stored (records : List DeviceRecord) :
    encodeRecords (records.map DeviceRecord.stored) =
      encodeRecords records := by
  induction records with
  | nil => rfl
  | cons record records ih =>
      have hlast : (records.map DeviceRecord.stored).isEmpty =
          records.isEmpty := List.isEmpty_map
      rw [List.map_cons, encodeRecords, encodeRecords, hlast, ih,
        encodeRecord_stored]

/-! ## The device table -/

theorem run_readRecords_eq_ok_iff {count budget : Nat}
    {input rest : Bytes} {records : List DeviceRecord} :
    (readRecords count budget).run input = .ok (records, rest) ↔
      records.length = count ∧
        (∀ record ∈ records, record.KeptExactly) ∧
        ∃ table, encodeRecords records = (table, none) ∧
          table.length ≤ budget ∧ input = table ++ rest := by
  induction count generalizing budget input records rest with
  | zero =>
      unfold readRecords
      rw [Reader.run_pure_eq_ok_iff, List.length_eq_zero_iff]
      constructor
      · intro hparts
        rcases hparts with ⟨rfl, rfl⟩
        exact ⟨rfl, by simp, [], rfl, by simp, rfl⟩
      · intro hparts
        rcases hparts with ⟨rfl, _, table, htable, _, rfl⟩
        simp only [encodeRecords, Prod.mk.injEq, and_true] at htable
        subst table
        exact ⟨rfl, rfl⟩
  | succ count ih =>
      unfold readRecords
      simp only [Reader.run_bind_eq_ok_iff, Prod.exists,
        run_readRecord_eq_ok_iff, ih, Reader.run_pure_eq_ok_iff]
      constructor
      · intro hparts
        rcases hparts with ⟨record, left, _,
          ⟨hkept, content, hcontent, rfl, rfl⟩, others, _,
          ⟨rfl, hothersKept, table, htable, hfits, rfl⟩, rfl, rfl⟩
        have hlast : decide (others.length = 0) = others.isEmpty := by
          cases others <;> rfl
        rw [hlast] at hcontent
        refine ⟨rfl, ?_, content ++ table,
          encodeRecords_cons_eq_iff.mpr
            ⟨content, table, hcontent, htable, rfl⟩, ?_, ?_⟩
        · intro other hother
          rcases List.mem_cons.mp hother with rfl | hother
          · exact hkept
          · exact hothersKept other hother
        · rw [List.length_append]
          omega
        · rw [List.append_assoc]
      · intro hparts
        rcases hparts with ⟨hlength, hkept, table, htable, hfits, rfl⟩
        obtain ⟨record, others, rfl⟩ :=
          List.exists_cons_of_length_eq_add_one hlength
        obtain ⟨content, rests, hcontent, hothers, rfl⟩ :=
          encodeRecords_cons_eq_iff.mp htable
        have hcount : others.length = count := by simpa using hlength
        have hlast : decide (count = 0) = others.isEmpty := by
          rw [← hcount]
          cases others <;> rfl
        rw [List.length_append] at hfits
        refine ⟨record, budget - content.length, rests ++ rest,
          ⟨hkept record List.mem_cons_self, content, ?_, by omega, ?_⟩,
          others, rest, ⟨hcount, ?_, rests, hothers, by omega, rfl⟩,
          rfl, rfl⟩
        · rw [hlast]
          exact hcontent
        · rw [List.append_assoc]
        · intro other hother
          exact hkept other (List.mem_cons_of_mem record hother)

/-- Tables of equally many records that begin alike are the same: the records
alone say where a table ends. -/
theorem encodeRecords_append_inj {records others : List DeviceRecord}
    {table otherTable rest otherRest : Bytes}
    (htable : encodeRecords records = (table, none))
    (hother : encodeRecords others = (otherTable, none))
    (hlength : records.length = others.length)
    (happend : table ++ rest = otherTable ++ otherRest) :
    table = otherTable ∧ rest = otherRest := by
  -- Both are read off one input, and reading is a function.
  have hread :
      (readRecords records.length (table.length + otherTable.length)).run
          (table ++ rest) =
        .ok (records.map DeviceRecord.stored, rest) :=
    run_readRecords_eq_ok_iff.mpr
      ⟨by simp, DeviceRecord.keptExactly_of_mem_map_stored, table,
        (encodeRecords_map_stored records).trans htable, by omega, rfl⟩
  have hreadOther :
      (readRecords records.length (table.length + otherTable.length)).run
          (table ++ rest) =
        .ok (others.map DeviceRecord.stored, otherRest) :=
    run_readRecords_eq_ok_iff.mpr
      ⟨by simp [hlength], DeviceRecord.keptExactly_of_mem_map_stored,
        otherTable, (encodeRecords_map_stored others).trans hother,
        by omega, happend⟩
  have hrest : rest = otherRest := by
    rw [hread, Except.ok.injEq, Prod.mk.injEq] at hreadOther
    exact hreadOther.2
  subst otherRest
  exact ⟨List.append_cancel_right happend, rfl⟩

/-! ## Bus records -/

theorem run_readBus_eq_ok_iff {input rest : Bytes} {bus : BusRecord} :
    readBus.run input = .ok (bus, rest) ↔
      input = encodeBus bus ++ rest := by
  unfold readBus
  simp only [Reader.run_bind_eq_ok_iff, Reader.run_word16_eq_ok_iff]
  constructor
  · intro hparts
    rcases hparts with ⟨domain, _, rfl, number, _, rfl, hbus⟩
    split at hbus
    next => exact (Reader.run_fail_ne_ok hbus).elim
    next hnumber =>
      have hsmall : number.toUInt8.toNat = number.toNat := by
        rw [UInt16.toNat_toUInt8]
        have hle : number.toNat ≤ 255 :=
          UInt16.le_iff_toNat_le.mp (UInt16.not_lt.mp hnumber)
        omega
      simp only [Reader.run_bind_eq_ok_iff,
        Reader.run_word16_eq_ok_iff] at hbus
      obtain ⟨root, _, rfl, hbus⟩ := hbus
      split at hbus
      next hroot =>
        obtain ⟨rfl, rfl⟩ := Reader.run_pure_eq_ok_iff.mp hbus
        simp only [encodeBus, hsmall, hroot, List.append_assoc]
        rfl
      next =>
        split at hbus
        next hroot =>
          obtain ⟨rfl, rfl⟩ := Reader.run_pure_eq_ok_iff.mp hbus
          simp only [encodeBus, hsmall, hroot, List.append_assoc]
          rfl
        next => exact (Reader.run_fail_ne_ok hbus).elim
  · intro hinput
    subst hinput
    have hbyte : bus.id.number.toNat < 256 := bus.id.number.toNat_lt
    have hnumber : ¬255 < bus.id.number.toUInt16 := by
      rw [UInt16.lt_iff_toNat_lt, UInt8.toNat_toUInt16]
      exact Nat.not_lt.mpr (Nat.le_of_lt_succ hbyte)
    simp only [encodeBus, List.append_assoc]
    refine ⟨bus.id.domain, _, rfl, bus.id.number.toUInt16, _,
      by rw [UInt8.toNat_toUInt16], ?_⟩
    rw [if_neg hnumber, UInt8.toUInt8_toUInt16]
    simp only [Reader.run_bind_eq_ok_iff, Reader.run_word16_eq_ok_iff]
    refine ⟨(flagByte bus.isRoot).toUInt16, rest,
      by rw [UInt8.toNat_toUInt16], ?_⟩
    rcases bus with ⟨⟨domain, number⟩, isRoot⟩
    cases isRoot <;> rfl

theorem flatMap_encodeBus_length (buses : List BusRecord) :
    (buses.flatMap encodeBus).length = buses.length * busSize :=
  flatMap_length_of_forall
    (fun bus => by simp [encodeBus, busSize]) buses

theorem run_readBuses_eq_ok_iff {count : Nat} {input rest : Bytes}
    {buses : List BusRecord} :
    (readBuses count).run input = .ok (buses, rest) ↔
      buses.length = count ∧ input = buses.flatMap encodeBus ++ rest :=
  run_repeated_eq_ok_iff run_readBus_eq_ok_iff rfl fun _ => rfl

end Snapshot

end PciInventory
