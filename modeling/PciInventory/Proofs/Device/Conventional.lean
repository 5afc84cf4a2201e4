import PciInventory.Proofs.Capability.Bounds
import PciInventory.Proofs.Device.Modelling

/-!
# The conventional part of a configuration space

A configuration space may be captured with its first 256 bytes alone.  The header
and all compatible capabilities begin there, so a device cut to these bytes loses
its extended capabilities and keeps all else.  There is one exception: the ids in
the subsystem capability of a bridge stand behind its first word, and if that is
the last word of the conventional space, they are read from the extended one.
-/

namespace PciInventory

/-! ## Registers -/

theorem Bytes.number?_take {bytes : Bytes} {offset width limit : Nat}
    (hinside : offset + width ≤ limit) :
    number? (bytes.take limit) offset width = number? bytes offset width := by
  have hwidth : width ≤ limit - offset := by omega
  rw [number?, number?, slice?, slice?, List.drop_take, List.take_take,
    Nat.min_eq_left hwidth]

namespace ConfigSpace

def conventional (config : ConfigSpace) : ConfigSpace :=
  ⟨config.bytes.take conventionalSize⟩

variable {config : ConfigSpace} {offset : Nat}

@[simp] theorem conventional_length :
    config.conventional.length = min 256 config.length :=
  List.length_take

theorem read8?_conventional (hinside : offset < 256) :
    config.conventional.read8? offset = config.read8? offset :=
  List.getElem?_take_of_lt hinside

theorem read16?_conventional (hinside : offset + 2 ≤ 256) :
    config.conventional.read16? offset = config.read16? offset :=
  congrArg (Option.map UInt16.ofNat) (Bytes.number?_take hinside)

theorem read16?_eq_none_iff :
    config.read16? offset = none ↔ config.length < offset + 2 := by
  simp only [read16?, Bytes.number?, Bytes.slice?, length,
    Option.map_eq_none_iff, List.length_take, List.length_drop]
  split
  next hlength =>
    simp only [reduceCtorEq, false_iff]
    omega
  next hlength =>
    simp only [true_iff]
    omega

@[simp] theorem vendorId?_conventional :
    config.conventional.vendorId? = config.vendorId? :=
  read16?_conventional (by decide)

@[simp] theorem deviceId?_conventional :
    config.conventional.deviceId? = config.deviceId? :=
  read16?_conventional (by decide)

@[simp] theorem hasCapabilityList_conventional :
    config.conventional.hasCapabilityList = config.hasCapabilityList := by
  have hstatus : config.conventional.status? = config.status? :=
    read16?_conventional (by decide)
  rw [hasCapabilityList, hasCapabilityList, hstatus]

@[simp] theorem classCode?_conventional :
    config.conventional.classCode? = config.classCode? := by
  unfold classCode?
  rw [read8?_conventional (by decide), read8?_conventional (by decide),
    read8?_conventional (by decide)]

@[simp] theorem headerLayout?_conventional :
    config.conventional.headerLayout? = config.headerLayout? := by
  unfold headerLayout?
  rw [read8?_conventional (by decide)]

@[simp] theorem subsystemIds?_conventional :
    config.conventional.subsystemIds? = config.subsystemIds? := by
  unfold subsystemIds?
  rw [read16?_conventional (by decide), read16?_conventional (by decide)]

@[simp] theorem secondaryBus?_conventional :
    config.conventional.secondaryBus? = config.secondaryBus? :=
  read8?_conventional (by decide)

end ConfigSpace

/-! ## Capabilities -/

namespace Capability

variable {address : Address} {config : ConfigSpace}

theorem byteAt_conventional {offset : Nat} (hinside : offset < 256) :
    byteAt config.conventional offset = byteAt config offset := by
  rw [byteAt, byteAt, ConfigSpace.read8?_conventional hinside]

theorem compatibleOffset_le (config : ConfigSpace) (index : Nat) :
    compatibleOffset config index ≤ 252 := by
  obtain ⟨slot, hslot, hoffset⟩ :=
    exists_slot_of_compatibleOffset config index
  omega

theorem compatibleOffset_conventional (config : ConfigSpace) :
    compatibleOffset config.conventional = compatibleOffset config := by
  funext index
  induction index with
  | zero =>
      rw [compatibleOffset, compatibleOffset,
        byteAt_conventional (by decide)]
  | succ index ih =>
      have hle := compatibleOffset_le config index
      rw [compatibleOffset, compatibleOffset, ih,
        byteAt_conventional (by omega)]

theorem compatiblePasses_conventional_iff {index : Nat} :
    CompatiblePasses config.conventional (compatibleOffset config index) ↔
      CompatiblePasses config (compatibleOffset config index) := by
  have hle := compatibleOffset_le config index
  simp only [CompatiblePasses, ConfigSpace.conventional_length]
  omega

theorem listed_conventional (index : Nat) :
    listed (compatibleOffset config) (compatibleNode config.conventional)
        index =
      listed (compatibleOffset config) (compatibleNode config) index := by
  apply List.map_congr_left
  intro k _
  have hle := compatibleOffset_le config k
  rw [compatibleNode, compatibleNode, byteAt_conventional (by omega)]

/-- The compatible chain does not leave the conventional space. -/
theorem CompatibleChain.conventional
    {result : Except ScanError (List Capability)}
    (hchain : CompatibleChain address config result) :
    CompatibleChain address config.conventional result := by
  obtain ⟨index, hfollows, hstop⟩ := hchain
  refine ⟨index, ?_, ?_⟩
  · rw [compatibleOffset_conventional]
    exact ⟨fun k hk =>
      compatiblePasses_conventional_iff.mpr (hfollows.passes k hk),
      hfollows.fresh⟩
  · have hoffset := compatibleOffset_conventional config
    cases hstop with
    | ended hnew hzero =>
        rw [← listed_conventional]
        rw [← hoffset] at hnew hzero ⊢
        exact .ended hnew hzero
    | repeated hrepeats =>
        rw [← hoffset] at hrepeats ⊢
        exact .repeated hrepeats
    | outside hnew hzero hlength =>
        rw [← hoffset] at hnew hzero hlength ⊢
        refine .outside hnew hzero ?_
        rw [ConfigSpace.conventional_length]
        omega

/-- A capability of the other kind is found only behind the compatible ones. -/
theorem all_conventional {found : List Capability}
    (hfound : all address config = .ok found) :
    ∃ first second, found = first ++ second ∧
      all address config.conventional = .ok first ∧
      (∀ capability ∈ first, Placed config .compatible 4 0xfc 2 capability) ∧
      ∀ capability ∈ second, capability.kind = .extended := by
  have hends : ∀ first, ¬LeadsToExtended config.conventional first := by
    rintro first ⟨-, hlength⟩
    rw [ConfigSpace.conventional_length] at hlength
    omega
  have hbitIff : HasListBit config.conventional ↔ HasListBit config := by
    rw [← hasCapabilityList_iff, ← hasCapabilityList_iff,
      ConfigSpace.hasCapabilityList_conventional]
  cases (all_eq_iff_listing address config _).mp hfound with
  | noList hbit =>
      exact ⟨[], [], rfl, all_of_listing (.noList (mt hbitIff.mp hbit)),
        by simp, by simp⟩
  | conventional hbit hfirst _ =>
      exact ⟨found, [], (List.append_nil found).symm,
        all_of_listing (.conventional (hbitIff.mpr hbit) hfirst.conventional
          (hends found)), hfirst.bounded.2.1, by simp⟩
  | extended hbit hfirst hleads hsecond =>
      exact ⟨_, _, rfl,
        all_of_listing (.conventional (hbitIff.mpr hbit) hfirst.conventional
          (hends _)), hfirst.bounded.2.1,
        fun capability hmem =>
          (hsecond.bounded.2.1 capability hmem).kind_eq⟩

end Capability

/-! ## Names -/

namespace DeviceNames

variable {config : ConfigSpace} {resolver : Names.Resolver}

theorem resolve_conventional (subsystem : Option SubsystemIds) :
    resolve config.conventional subsystem resolver =
      resolve config subsystem resolver := by
  simp only [resolve, ConfigSpace.vendorId?_conventional,
    ConfigSpace.deviceId?_conventional, ConfigSpace.classCode?_conventional]

/-- The subsystem is looked up last. -/
theorem resolve_subsystem (first second : Option SubsystemIds) :
    (resolve config first resolver).1.vendor =
        (resolve config second resolver).1.vendor ∧
      (resolve config first resolver).1.device =
        (resolve config second resolver).1.device ∧
      (resolve config first resolver).1.classNames =
        (resolve config second resolver).1.classNames := by
  unfold resolve
  cases config.classCode? <;> cases first <;> cases second <;>
    exact ⟨rfl, rfl, rfl⟩

end DeviceNames

/-! ## Devices -/

def DeviceRecord.conventional (record : DeviceRecord) : DeviceRecord :=
  { record with config := record.config.take ConfigSpace.conventionalSize }

namespace Device

theorem interpret_eq_ok_iff {record : DeviceRecord} {kind : DeviceKind}
    {found : List Capability} :
    interpret record = .ok (kind, found) ↔
      64 ≤ (⟨record.config⟩ : ConfigSpace).length ∧
        DeviceKind.ofLayout?
            ((⟨record.config⟩ : ConfigSpace).headerLayout?.getD 0) =
          some kind ∧
        Capability.all record.address ⟨record.config⟩ = .ok found := by
  unfold interpret
  simp only
  by_cases hshort : (⟨record.config⟩ : ConfigSpace).length <
      ConfigSpace.headerSize
  · rw [if_pos hshort]
    simp only [reduceCtorEq, false_iff]
    exact fun hmeaning => Nat.not_le.mpr hshort hmeaning.1
  · rw [if_neg hshort]
    have hlong : 64 ≤ (⟨record.config⟩ : ConfigSpace).length :=
      Nat.not_lt.mp hshort
    cases DeviceKind.ofLayout?
        ((⟨record.config⟩ : ConfigSpace).headerLayout?.getD 0) with
    | none => simp
    | some other =>
        cases Capability.all record.address ⟨record.config⟩ with
        | error error => simp [Except.map]
        | ok capabilities => simp [Except.map, hlong]

theorem interpret_conventional {record : DeviceRecord} {kind : DeviceKind}
    {found : List Capability} (hmeaning : interpret record = .ok (kind, found)) :
    ∃ first second, found = first ++ second ∧
      interpret record.conventional = .ok (kind, first) ∧
      (∀ capability ∈ first,
        Capability.Placed ⟨record.config⟩ .compatible 4 0xfc 2 capability) ∧
      ∀ capability ∈ second, capability.kind = .extended := by
  obtain ⟨hlength, hkind, hall⟩ := interpret_eq_ok_iff.mp hmeaning
  obtain ⟨first, second, hfound, hfirst, hplaced, hextended⟩ :=
    Capability.all_conventional hall
  refine ⟨first, second, hfound, interpret_eq_ok_iff.mpr ⟨?_, ?_, hfirst⟩,
    hplaced, hextended⟩
  · change 64 ≤ (ConfigSpace.conventional ⟨record.config⟩).length
    rw [ConfigSpace.conventional_length]
    omega
  · rw [← ConfigSpace.headerLayout?_conventional] at hkind
    exact hkind

/-! ## Subsystems of bridges -/

/-- The ids in the subsystem capability at an offset. -/
def subsystemIdsAt? (config : ConfigSpace) (offset : Nat) :
    Option SubsystemIds := do
  let vendor ← config.read16? (offset + 4)
  let device ← config.read16? (offset + 6)
  return ⟨vendor, device⟩

theorem subsystemIdsAt?_conventional {config : ConfigSpace} {offset : Nat}
    (hinside : offset ≤ 0xf8) :
    subsystemIdsAt? config.conventional offset =
      subsystemIdsAt? config offset := by
  unfold subsystemIdsAt?
  rw [ConfigSpace.read16?_conventional (by omega),
    ConfigSpace.read16?_conventional (by omega)]

theorem subsystemIdsAt?_conventional_lastWord (config : ConfigSpace) :
    subsystemIdsAt? config.conventional 0xfc = none := by
  have hnone : config.conventional.read16? 0x100 = none := by
    rw [ConfigSpace.read16?_eq_none_iff, ConfigSpace.conventional_length]
    omega
  unfold subsystemIdsAt?
  rw [hnone]
  rfl

theorem subsystemIdsAt?_ne_none {config : ConfigSpace} {offset : Nat}
    (hlength : offset + 8 ≤ config.length) :
    subsystemIdsAt? config offset ≠ none := by
  have hread : ∀ place ≤ offset + 6,
      ∃ value, config.read16? place = some value := by
    intro place hplace
    apply Option.ne_none_iff_exists'.mp
    rw [ne_eq, ConfigSpace.read16?_eq_none_iff]
    omega
  obtain ⟨vendor, hvendor⟩ := hread (offset + 4) (by omega)
  obtain ⟨device, hdevice⟩ := hread (offset + 6) (by omega)
  unfold subsystemIdsAt?
  rw [hvendor, hdevice]
  exact Option.some_ne_none _

/-- The capability with the ids of a bridge's subsystem. -/
def subsystemCapability? (device : Device) : Option Capability :=
  device.findCapability? .compatible Capability.subsystemVendorId

theorem subsystemIds?_of_endpoint {device : Device}
    (hkind : device.kind = .endpoint) :
    device.subsystemIds? = device.config.subsystemIds? := by
  rw [subsystemIds?, hkind]
  rfl

theorem subsystemIds?_of_bridge {device : Device}
    (hkind : device.kind = .bridge) :
    device.subsystemIds? = device.subsystemCapability?.bind fun capability =>
      subsystemIdsAt? device.config capability.offset := by
  rw [subsystemIds?, hkind]
  rfl

/-- The subsystem capability is the last word of the conventional space, so the
ids in it stand behind that space. -/
def SubsystemBeyond (device : Device) : Prop :=
  device.kind = .bridge ∧
    ∃ capability, device.subsystemCapability? = some capability ∧
      capability.offset = 0xfc

/-! ## Whole and cut devices -/

/-- The second device is the first one cut to its conventional space. -/
structure CutTo (device cut : Device) : Prop where
  record_eq : cut.record = device.record.conventional
  kind_eq : cut.kind = device.kind
  placed : ∀ capability ∈ cut.capabilities,
    Capability.Placed device.config .compatible 4 0xfc 2 capability
  extends_eq : ∃ extended,
    device.capabilities = cut.capabilities ++ extended ∧
      ∀ capability ∈ extended, capability.kind = .extended

namespace CutTo

variable {device cut : Device}

theorem config_eq (hcut : device.CutTo cut) :
    cut.config = device.config.conventional := by
  rw [config, hcut.record_eq]
  rfl

theorem subsystemCapability?_eq (hcut : device.CutTo cut) :
    cut.subsystemCapability? = device.subsystemCapability? := by
  obtain ⟨extended, hall, hextended⟩ := hcut.extends_eq
  have hnone : extended.find? (fun capability =>
      decide (capability.kind = .compatible) &&
        decide (capability.id = Capability.subsystemVendorId)) = none := by
    rw [List.find?_eq_none]
    intro capability hmem
    simp [hextended capability hmem]
  rw [subsystemCapability?, subsystemCapability?, findCapability?,
    findCapability?, hall, List.find?_append, hnone, Option.or_none]

/-- The capability of the subsystem is in a word of the conventional space. -/
theorem subsystemCapability?_placed (hcut : device.CutTo cut)
    {capability : Capability}
    (hfound : device.subsystemCapability? = some capability) :
    capability.offset ≤ 0xf8 ∨ capability.offset = 0xfc := by
  rw [← hcut.subsystemCapability?_eq] at hfound
  have hplaced := hcut.placed capability (List.mem_of_find?_eq_some hfound)
  have hle := hplaced.le_last
  have haligned := hplaced.aligned
  omega

theorem subsystemIds?_eq (hcut : device.CutTo cut)
    (hinside : ¬device.SubsystemBeyond) :
    cut.subsystemIds? = device.subsystemIds? := by
  cases hkind : device.kind with
  | endpoint =>
      rw [subsystemIds?_of_endpoint hkind,
        subsystemIds?_of_endpoint (hcut.kind_eq.trans hkind), hcut.config_eq,
        ConfigSpace.subsystemIds?_conventional]
  | bridge =>
      rw [subsystemIds?_of_bridge hkind,
        subsystemIds?_of_bridge (hcut.kind_eq.trans hkind), hcut.config_eq,
        hcut.subsystemCapability?_eq]
      cases hfound : device.subsystemCapability? with
      | none => rfl
      | some capability =>
          rcases hcut.subsystemCapability?_placed hfound with hle | hlast
          · exact subsystemIdsAt?_conventional hle
          · exact (hinside ⟨hkind, capability, hfound, hlast⟩).elim

theorem subsystemIds?_eq_none (hcut : device.CutTo cut)
    (hbeyond : device.SubsystemBeyond) : cut.subsystemIds? = none := by
  obtain ⟨hkind, capability, hfound, hlast⟩ := hbeyond
  rw [subsystemIds?_of_bridge (hcut.kind_eq.trans hkind),
    hcut.subsystemCapability?_eq, hfound, hcut.config_eq, Option.bind_some,
    hlast, subsystemIdsAt?_conventional_lastWord]

end CutTo

theorem SubsystemBeyond.subsystemIds?_ne_none {device : Device}
    (hbeyond : device.SubsystemBeyond) (hlength : 0x104 ≤ device.config.length) :
    device.subsystemIds? ≠ none := by
  obtain ⟨hkind, capability, hfound, hlast⟩ := hbeyond
  rw [subsystemIds?_of_bridge hkind, hfound, Option.bind_some, hlast]
  exact subsystemIdsAt?_ne_none hlength

theorem exists_cut {database : Bytes} {device : Device}
    (hmodelled : device.ModelledOver database) :
    ∃ cut : Device, device.CutTo cut ∧ cut.ModelledOver database := by
  obtain ⟨first, second, hall, hmeaning, hplaced, hextended⟩ :=
    interpret_conventional hmodelled.interpret_eq
  refine ⟨⟨device.record.conventional, device.kind, first,
    (DeviceNames.resolve device.config.conventional
      (subsystemIdsOf? device.config.conventional device.kind first)
      (Names.Resolver.ofDatabase database)).1⟩, ?_, ?_⟩
  · exact ⟨rfl, rfl, hplaced, second, hall, hextended⟩
  · exact ⟨hmeaning, rfl⟩

/-- What the cut device shows just as the whole one does. -/
structure ShowsLike (cut device : Device) : Prop where
  kind_eq : cut.kind = device.kind
  vendorId_eq : cut.vendorId = device.vendorId
  deviceId_eq : cut.deviceId = device.deviceId
  classCode_eq : cut.classCode = device.classCode
  vendorName_eq : cut.names.vendor = device.names.vendor
  deviceName_eq : cut.names.device = device.names.device
  classNames_eq : cut.names.classNames = device.names.classNames
  secondaryBus_eq : cut.secondaryBus? = device.secondaryBus?
  bars_eq : cut.bars = device.bars
  expansionRom_eq : cut.expansionRom? = device.expansionRom?
  windows_eq : cut.windows = device.windows
  driver_eq : cut.record.driver = device.record.driver
  numaNode_eq : cut.record.numaNode = device.record.numaNode
  iommuGroup_eq : cut.record.iommuGroup = device.record.iommuGroup

theorem CutTo.showsLike {database : Bytes} {device cut : Device}
    (hcut : device.CutTo cut) (hmodelled : device.ModelledOver database)
    (hother : cut.ModelledOver database) : cut.ShowsLike device := by
  have hconfig := hcut.config_eq
  have hkind := hcut.kind_eq
  have hrecord := hcut.record_eq
  obtain ⟨hvendor, hdevice, hclass⟩ :
      cut.names.vendor = device.names.vendor ∧
        cut.names.device = device.names.device ∧
        cut.names.classNames = device.names.classNames := by
    rw [hother.names_eq, hmodelled.names_eq, hconfig,
      DeviceNames.resolve_conventional]
    exact DeviceNames.resolve_subsystem _ _
  have hsecondary : cut.secondaryBus? = device.secondaryBus? := by
    rw [secondaryBus?, secondaryBus?, hkind, hconfig,
      ConfigSpace.secondaryBus?_conventional]
  have hclassCode : cut.classCode = device.classCode := by
    rw [classCode, classCode, hconfig, ConfigSpace.classCode?_conventional]
  exact {
    kind_eq := hkind
    vendorId_eq := by
      rw [vendorId, vendorId, hconfig, ConfigSpace.vendorId?_conventional]
    deviceId_eq := by
      rw [deviceId, deviceId, hconfig, ConfigSpace.deviceId?_conventional]
    classCode_eq := hclassCode
    vendorName_eq := hvendor
    deviceName_eq := hdevice
    classNames_eq := hclass
    secondaryBus_eq := hsecondary
    bars_eq := by rw [bars, bars, hrecord, hkind]; rfl
    expansionRom_eq := by
      rw [expansionRom?, expansionRom?, hrecord, hkind]; rfl
    windows_eq := by rw [windows, windows, hrecord, hkind]; rfl
    driver_eq := by rw [hrecord]; rfl
    numaNode_eq := by rw [hrecord]; rfl
    iommuGroup_eq := by rw [hrecord]; rfl }

/-- A cut device has the names of its subsystem ids. -/
theorem CutTo.names_eq {database : Bytes} {device cut : Device}
    (hcut : device.CutTo cut) (hmodelled : device.ModelledOver database)
    (hother : cut.ModelledOver database)
    (hsubsystem : cut.subsystemIds? = device.subsystemIds?) :
    cut.names = device.names := by
  rw [hother.names_eq, hmodelled.names_eq, hcut.config_eq,
    DeviceNames.resolve_conventional, hsubsystem]

theorem ModelledOver.subsystem_unnamed {database : Bytes} {device : Device}
    (hmodelled : device.ModelledOver database)
    (hnone : device.subsystemIds? = none) :
    device.names.subsystem = "" ∧ device.names.subsystemVendor = "" := by
  rw [hmodelled.names_eq, hnone]
  unfold DeviceNames.resolve
  cases device.config.classCode? <;> exact ⟨rfl, rfl⟩

/-- A device with an extended configuration space is still a device with the
conventional part alone.  It keeps all it shows but its extended capabilities,
unless the subsystem ids of a bridge stand behind that part: then the ids are
gone, and their names. -/
theorem build_conventional {database : Bytes}
    {resolver other next : Names.Resolver}
    (hover : resolver.IsOver database) (hother : other.IsOver database)
    {record : DeviceRecord} (hlength : record.config.length = 4096)
    {device : Device}
    (hbuilt : build record resolver = .ok (device, next)) :
    ∃ cut later, build record.conventional other = .ok (cut, later) ∧
      cut.ShowsLike device ∧
      (∃ extended, device.capabilities = cut.capabilities ++ extended ∧
        (∀ capability ∈ cut.capabilities, capability.kind = .compatible) ∧
        ∀ capability ∈ extended, capability.kind = .extended) ∧
      (¬device.SubsystemBeyond →
        cut.subsystemIds? = device.subsystemIds? ∧
          cut.names = device.names) ∧
      (device.SubsystemBeyond →
        device.subsystemIds? ≠ none ∧ cut.subsystemIds? = none ∧
          cut.names.subsystem = "" ∧ cut.names.subsystemVendor = "") := by
  obtain ⟨rfl, hmodelled, -⟩ := build_eq_ok hover hbuilt
  obtain ⟨cut, hcut, hcutModelled⟩ := exists_cut hmodelled
  obtain ⟨later, -, hcutBuilt⟩ := hcutModelled.exists_build hother
  rw [hcut.record_eq] at hcutBuilt
  obtain ⟨extended, hall, hextended⟩ := hcut.extends_eq
  refine ⟨cut, later, hcutBuilt, hcut.showsLike hmodelled hcutModelled,
    ⟨extended, hall, fun capability hmem =>
      (hcut.placed capability hmem).kind_eq, hextended⟩, ?_, ?_⟩
  · intro hinside
    have hsubsystem := hcut.subsystemIds?_eq hinside
    exact ⟨hsubsystem, hcut.names_eq hmodelled hcutModelled hsubsystem⟩
  · intro hbeyond
    have hnone := hcut.subsystemIds?_eq_none hbeyond
    have hlong : 0x104 ≤ device.config.length := by
      change 0x104 ≤ device.record.config.length
      omega
    exact ⟨hbeyond.subsystemIds?_ne_none hlong, hnone,
      hcutModelled.subsystem_unnamed hnone⟩

theorem exists_ok_of_toOption_map {Fault Result Shown : Type}
    {result : Except Fault Result} {show? : Result → Shown} {shown : Shown}
    (hshown : result.toOption.map show? = some shown) :
    ∃ found, result = .ok found ∧ show? found = shown := by
  cases result with
  | error fault => contradiction
  | ok found => exact ⟨found, rfl, Option.some.inj hshown⟩

/-- An extended configuration space of a bridge with a capability list, and these
pieces written over it. -/
def bridgeSpace (pieces : List (Nat × Bytes)) : Bytes :=
  ((0x06, [0x10]) :: (0x0a, [4, 6]) :: (0x0e, [1]) :: pieces).foldl
    (fun bytes piece => bytes.overwrite piece.1 piece.2)
    (List.replicate 4096 0)

/-- A PCI Express capability, a subsystem capability in the last two words of the
conventional space, and an extended capability. -/
def expressBridge : DeviceRecord :=
  ⟨⟨0, 0, 1, 0⟩, bridgeSpace [(0x34, [0x40]), (0x40, [0x10, 0xf8]),
    (0xf8, [0x0d, 0, 0, 0, 0x86, 0x80, 1, 0]), (0x100, [1, 0, 2, 0])],
    [⟨0xe000, 0xefff, 0x100⟩], some "pcieport", some 0, none⟩

theorem build_conventional_expressBridge :
    ∃ device cut next later,
      expressBridge.config.length = 4096 ∧
        build expressBridge .empty = .ok (device, next) ∧
        build expressBridge.conventional .empty = .ok (cut, later) ∧
        device.capabilities =
          [⟨.compatible, 0x10, 0, 0x40⟩, ⟨.compatible, 0x0d, 0, 0xf8⟩,
            ⟨.extended, 1, 2, 0x100⟩] ∧
        (∃ extended, device.capabilities = cut.capabilities ++ extended ∧
          (∀ capability ∈ cut.capabilities, capability.kind = .compatible) ∧
          ∀ capability ∈ extended, capability.kind = .extended) ∧
        cut.windows = device.windows ∧
        cut.subsystemIds? = some ⟨0x8086, 1⟩ ∧ cut.names = device.names := by
  have hlength : expressBridge.config.length = 4096 := by decide +kernel
  have hshown : (build expressBridge .empty).toOption.map (fun built =>
      (built.1.capabilities, built.1.subsystemIds?)) =
        some ([⟨.compatible, 0x10, 0, 0x40⟩, ⟨.compatible, 0x0d, 0, 0xf8⟩,
          ⟨.extended, 1, 2, 0x100⟩], some ⟨0x8086, 1⟩) := by
    decide +kernel
  obtain ⟨⟨device, next⟩, hbuilt, hshown⟩ := exists_ok_of_toOption_map hshown
  obtain ⟨hcapabilities, hsubsystem⟩ := Prod.mk.inj hshown
  obtain ⟨cut, later, hcut, hshows, hextended, hinside, -⟩ :=
    build_conventional (.ofDatabase []) (.ofDatabase []) hlength hbuilt
  have hnotBeyond : ¬device.SubsystemBeyond := by
    rintro ⟨-, capability, hfound, hlast⟩
    rw [subsystemCapability?, findCapability?, hcapabilities] at hfound
    obtain rfl := Option.some.inj hfound
    exact absurd hlast (by decide)
  obtain ⟨hids, hnames⟩ := hinside hnotBeyond
  exact ⟨device, cut, next, later, hlength, hbuilt, hcut, hcapabilities,
    hextended, hshows.windows_eq, hids.trans hsubsystem, hnames⟩

/-- A subsystem capability in the last word of the conventional space. -/
def lastWordBridge : DeviceRecord :=
  ⟨⟨0, 0, 1, 0⟩, bridgeSpace [(0x34, [0xfc]), (0xfc, [0x0d, 0]),
    (0x100, [0x86, 0x80, 1, 0])], [], none, none, none⟩

/-- The whole bridge has subsystem ids, and cut to its first 256 bytes it has
none. -/
theorem subsystemIds_differ_lastWordBridge :
    lastWordBridge.config.length = 4096 ∧
      (build lastWordBridge .empty).toOption.map (fun built =>
        built.1.subsystemIds?) = some (some ⟨0x8086, 1⟩) ∧
      (build lastWordBridge.conventional .empty).toOption.map (fun built =>
        built.1.subsystemIds?) = some none := by
  decide +kernel

end Device

end PciInventory
