import PciInventory.Proofs.Render.Lines

/-!
# Lines of details

Every detail of a device is printed as a line behind a tab.  All of them but one
are put together from numbers, fixed words and names of the database, so they
stay on that line.  The exception is the driver: its name is printed as it is
reported, and every line break in it starts a line of its own, which is only
behind a tab if the name has one there.
-/

namespace PciInventory.Render

/-! ## Detail lines -/

/-- A line behind a tab. -/
def isDetail (line : String) : Bool :=
  line.toList.head? == some '\t'

/-- An output without its detail lines. -/
def withoutDetails (output : String) : String :=
  text ((linesOf output).filter fun line => !isDetail line)

/-- The lines that a text printed as a detail adds outside the detail lines. -/
def strays (detail : String) : List String :=
  (pieces detail).tail.filter fun piece => !isDetail piece

theorem strays_of_unbroken {detail : String}
    (hdetail : '\n' ∉ detail.toList) : strays detail = [] := by
  rw [strays, pieces_eq_singleton hdetail]
  rfl

theorem strays_append {front : String} (hfront : '\n' ∉ front.toList)
    (back : String) : strays (front ++ back) = strays back := by
  rw [strays, pieces_append hfront, List.tail_modifyHead, strays]

theorem filter_pieces_detail (detail : String) :
    ((pieces ("\t" ++ detail)).filter fun line => !isDetail line) =
      strays detail := by
  rw [pieces_append (by decide), strays]
  cases pieces detail with
  | nil => rfl
  | cons first rest => simp [isDetail]

/-! ## What the details say -/

@[simp] theorem break_notMem_decimal (value : Nat) :
    '\n' ∉ (Numeral.decimal value).toList := by
  rw [Numeral.decimal, String.toList_ofList]
  intro hmem
  have hdigit : ('\n').isDigit = true :=
    Nat.isDigit_of_mem_toDigits (by decide) (by decide) hmem
  contradiction

theorem break_notMem_capabilityName (kind : CapabilityKind) (id : Nat) :
    ∀ name ∈ kind.name? id, '\n' ∉ name.toList := by
  cases kind with
  | compatible =>
      change ∀ name ∈ CapabilityKind.compatibleName? id, _
      unfold CapabilityKind.compatibleName?
      split <;> simp
  | extended =>
      change ∀ name ∈ CapabilityKind.extendedName? id, _
      unfold CapabilityKind.extendedName?
      split <;> simp

@[simp] theorem break_notMem_sizeNote (region : Region) :
    '\n' ∉ (sizeNote region).toList := by
  have hsize (length : Nat) : '\n' ∉ (size length).toList := by
    unfold size
    split
    next unit mark hunit =>
        have hmarks : ∀ entry ∈ units, '\n' ∉ entry.2.toList := by decide
        simp [hmarks _ (List.mem_of_find?_eq_some hunit)]
    next => simp
  simp [sizeNote, hsize]

section Device

variable {device : Device}

theorem break_notMem_subsystemDetails (hnames : device.names.OneLine)
    (view : View) :
    ∀ detail ∈ subsystemDetails device view, '\n' ∉ detail.toList := by
  unfold subsystemDetails
  split
  · simp
  · dsimp only
    split
    · simp
    · simp [break_notMem_nameOrId hnames.subsystemVendor.unbroken,
        break_notMem_nameOrId hnames.subsystem.unbroken]

theorem break_notMem_busDetails (device : Device) :
    ∀ detail ∈ busDetails device, '\n' ∉ detail.toList := by
  unfold busDetails
  split <;> simp

theorem break_notMem_interruptDetails (device : Device) :
    ∀ detail ∈ interruptDetails device, '\n' ∉ detail.toList := by
  have hpins (pin : UInt8) : ∀ name ∈ pinName? pin, '\n' ∉ name.toList := by
    unfold pinName?
    repeat' split
    all_goals simp
  unfold interruptDetails
  split
  next name hpin =>
      obtain ⟨pin, -, hname⟩ := Option.bind_eq_some_iff.mp hpin
      simp [hpins pin name hname]
  next => simp

theorem break_notMem_numberDetails {label : String}
    (hlabel : '\n' ∉ label.toList) (number : Option UInt16) :
    ∀ detail ∈ numberDetails label number, '\n' ∉ detail.toList := by
  unfold numberDetails
  split <;> simp [hlabel]

theorem break_notMem_barDetails (slot : BarSlot) :
    ∀ detail ∈ barDetails slot, '\n' ∉ detail.toList := by
  have hregion (region : Region) : '\n' ∉ (regionText region).toList := by
    unfold regionText
    repeat' split
    all_goals simp
  unfold barDetails
  split <;> simp [hregion]

theorem break_notMem_romDetails (device : Device) :
    ∀ detail ∈ romDetails device, '\n' ∉ detail.toList := by
  unfold romDetails
  split <;> simp

theorem break_notMem_windowDetails (window : Region) :
    '\n' ∉ (windowDetails window).toList := by
  have hlabel : '\n' ∉ (windowLabel window).toList := by
    unfold windowLabel
    split <;> simp
  simp [windowDetails, hlabel]

theorem break_notMem_capabilityDetails (capability : Capability) :
    '\n' ∉ (capabilityDetails capability).toList := by
  have hname : '\n' ∉ (capability.name?.getD "Unknown").toList := by
    cases hfound : capability.name? with
    | none => simp
    | some name => exact break_notMem_capabilityName _ _ name hfound
  unfold capabilityDetails
  cases capability.kind <;> simp [hname]

/-- The details apart from the driver. -/
def hardwareDetails (device : Device) (view : View) : List String :=
  subsystemDetails device view ++
    busDetails device ++
    interruptDetails device ++
    numberDetails "NUMA node" device.record.numaNode ++
    numberDetails "IOMMU group" device.record.iommuGroup ++
    device.bars.flatMap barDetails ++
    romDetails device ++
    device.windows.map windowDetails ++
    device.capabilities.map capabilityDetails

theorem details_eq_append (device : Device) (view : View) :
    details device view =
      hardwareDetails device view ++ driverDetails device :=
  rfl

theorem break_notMem_hardwareDetails (hnames : device.names.OneLine)
    (view : View) :
    ∀ detail ∈ hardwareDetails device view, '\n' ∉ detail.toList := by
  simp only [hardwareDetails, List.forall_mem_append, List.forall_mem_map,
    List.forall_mem_flatMap, and_assoc]
  exact ⟨break_notMem_subsystemDetails hnames view,
    break_notMem_busDetails device, break_notMem_interruptDetails device,
    break_notMem_numberDetails (by decide) _,
    break_notMem_numberDetails (by decide) _,
    fun slot _ => break_notMem_barDetails slot,
    break_notMem_romDetails device,
    fun window _ => break_notMem_windowDetails window,
    fun capability _ => break_notMem_capabilityDetails capability⟩

/-! ## Stray lines -/

/-- The lines of a verbose listing that belong to a device and are not behind a
tab, apart from the line of the device. -/
def driverStrays (device : Device) : List String :=
  (device.record.driver.map strays).getD []

theorem flatMap_strays_details (hnames : device.names.OneLine)
    (view : View) :
    (details device view).flatMap strays = driverStrays device := by
  have hhardware : (hardwareDetails device view).flatMap strays = [] := by
    rw [List.flatMap_eq_nil_iff]
    intro detail hdetail
    exact strays_of_unbroken
      (break_notMem_hardwareDetails hnames view detail hdetail)
  rw [details_eq_append, List.flatMap_append, hhardware, List.nil_append]
  unfold driverDetails driverStrays
  cases device.record.driver with
  | none => rfl
  | some driver =>
      rw [List.flatMap_singleton, strays_append (by decide)]
      rfl

theorem not_isDetail_deviceLine (device : Device) (view : View) :
    isDetail (deviceLine device view) = false := by
  obtain ⟨first, rest, hline, hblank⟩ := exists_cons_deviceLine device view
  simp only [List.mem_cons, List.not_mem_nil, or_false, not_or] at hblank
  rw [isDetail, hline]
  simpa using hblank.1

/-- What the details of a device leave of its block are its line and the lines
in the name of its driver that are not behind a tab. -/
theorem filter_block (hnames : device.names.OneLine) (numeric : Bool) :
    (((block "" ⟨numeric, true⟩ device).flatMap pieces).filter fun line =>
        !isDetail line) =
      deviceLine device ⟨numeric, false⟩ :: driverStrays device := by
  have hblock : block "" ⟨numeric, true⟩ device =
      deviceLine device ⟨numeric, false⟩ ::
        (details device ⟨numeric, true⟩).map fun detail => "\t" ++ detail := by
    simp [block]
    rfl
  rw [hblock, List.flatMap_cons,
    pieces_eq_singleton (break_notMem_deviceLine hnames _),
    List.singleton_append, List.filter_cons_of_pos
      (by simp [not_isDetail_deviceLine]), List.flatMap_map,
    List.filter_flatMap]
  simp only [filter_pieces_detail]
  rw [flatMap_strays_details hnames]

end Device

/-! ## The listing -/

section Items

variable {Item Entry : Type} (head : Item → Entry)
  (tail : Item → List Entry)

theorem length_le_flatMap_cons (items : List Item) :
    items.length ≤
      (items.flatMap fun item => head item :: tail item).length := by
  induction items with
  | nil => exact Nat.zero_le _
  | cons item rest ih =>
      rw [List.flatMap_cons, List.length_append, List.length_cons,
        List.length_cons]
      omega

theorem flatMap_cons_eq_map_iff {items : List Item} :
    (items.flatMap fun item => head item :: tail item) = items.map head ↔
      ∀ item ∈ items, tail item = [] := by
  induction items with
  | nil => simp
  | cons item rest ih =>
      rw [List.flatMap_cons, List.map_cons, List.cons_append,
        List.cons_inj_right, List.forall_mem_cons, ← ih]
      constructor
      · -- There are as many entries as items, so none is left for a tail.
        intro hlines
        have hlength := congrArg List.length hlines
        rw [List.length_append, List.length_map] at hlength
        have hrest := length_le_flatMap_cons head tail rest
        have hitem : tail item = [] :=
          List.eq_nil_of_length_eq_zero (by omega)
        rw [hitem, List.nil_append] at hlines
        exact ⟨hitem, hlines⟩
      · rintro ⟨hitem, hrest⟩
        rw [hitem, List.nil_append, hrest]

end Items

theorem driverStrays_eq_nil_iff {device : Device} :
    driverStrays device = [] ↔
      ∀ driver ∈ device.record.driver, ∀ piece ∈ (pieces driver).tail,
        isDetail piece = true := by
  unfold driverStrays
  cases device.record.driver with
  | none => simp
  | some driver => simp [strays]

theorem break_notMem_driverStrays {device : Device} :
    ∀ line ∈ driverStrays device, '\n' ∉ line.toList := by
  unfold driverStrays
  cases device.record.driver with
  | none => simp
  | some driver =>
      intro line hline
      have hpiece := (List.mem_filter.mp hline).1
      exact break_notMem_of_mem_pieces line (List.mem_of_mem_tail hpiece)

/-- A verbose listing without its detail lines has the line of each device, and
behind it what the name of its driver has behind line breaks without a tab.
This is the listing without details if and only if every line break in the name
of a driver has a tab behind it. -/
theorem withoutDetails_listing {records : List DeviceRecord}
    {buses : List BusRecord} {database : Bytes}
    {earlier : List Names.Query} {topology : Topology}
    (hbuilt :
      (Topology.ofRecords records buses
        ((Names.Resolver.ofDatabase database).askAll earlier).2).outcome =
          .ok topology) (numeric : Bool) :
    let plain := text (listing topology ⟨numeric, false⟩)
    let verbose := text (listing topology ⟨numeric, true⟩)
    verbose = text (linesOf verbose) ∧
      withoutDetails verbose =
        text (topology.devices.flatMap fun device =>
          deviceLine device ⟨numeric, false⟩ :: driverStrays device) ∧
      (withoutDetails verbose = plain ↔
        ∀ device ∈ topology.devices, ∀ driver ∈ device.record.driver,
          ∀ piece ∈ (pieces driver).tail, isDetail piece = true) := by
  have hnames := oneLine_names_of_ofRecords hbuilt
  have hleft : withoutDetails (text (listing topology ⟨numeric, true⟩)) =
      text (topology.devices.flatMap fun device =>
        deviceLine device ⟨numeric, false⟩ :: driverStrays device) := by
    rw [withoutDetails, linesOf_text, listing, List.flatMap_assoc,
      List.filter_flatMap]
    exact congrArg text (List.flatMap_congr fun device hdevice =>
      filter_block (hnames device hdevice) numeric)
  refine ⟨(text_linesOf_text _).symm, hleft, ?_⟩
  rw [hleft, text_inj_of_unbroken _ (break_notMem_listing hnames numeric),
    listing_eq_map, flatMap_cons_eq_map_iff]
  · simp only [driverStrays_eq_nil_iff]
  · intro line hline
    obtain ⟨device, hdevice, hmem⟩ := List.mem_flatMap.mp hline
    rcases List.mem_cons.mp hmem with rfl | hstray
    · exact break_notMem_deviceLine (hnames device hdevice) _
    · exact break_notMem_driverStrays line hstray

/-- An endpoint in a configuration space of zeros, with this driver. -/
def drivenCard (driver : String) : Device :=
  { record := ⟨⟨0, 0, 1, 0⟩, List.replicate 64 0, [], some driver, none,
      none⟩
    kind := .endpoint
    capabilities := []
    names := ⟨"", "", .unknown, "", ""⟩ }

theorem withoutDetails_listing_tabbedName :
    let topology : Topology := ⟨[drivenCard "a\n\tb"], []⟩
    (Topology.ofRecords [(drivenCard "a\n\tb").record] []
        ((Names.Resolver.ofDatabase []).askAll []).2).outcome =
          .ok topology ∧
      (∀ device ∈ topology.devices, ∀ driver ∈ device.record.driver,
        ∀ piece ∈ (pieces driver).tail, isDetail piece = true) ∧
      withoutDetails (text (listing topology ⟨true, true⟩)) =
        text (listing topology ⟨true, false⟩) := by
  intro topology
  have hbuilt :
      (Topology.ofRecords [(drivenCard "a\n\tb").record] []
        ((Names.Resolver.ofDatabase []).askAll []).2).outcome =
          .ok topology := by cbv
  have htabs : ∀ device ∈ topology.devices,
      ∀ driver ∈ device.record.driver, ∀ piece ∈ (pieces driver).tail,
        isDetail piece = true := by decide +kernel
  exact ⟨hbuilt, htabs,
    (withoutDetails_listing hbuilt true).2.2.mpr htabs⟩

/-- Behind the line break the name of the driver goes on as a line of its own,
as if it were the line of a device. -/
theorem withoutDetails_differs_brokenName :
    let topology : Topology := ⟨[drivenCard "a\nb"], []⟩
    let plain := text (listing topology ⟨true, false⟩)
    let verbose := text (listing topology ⟨true, true⟩)
    (Topology.ofRecords [(drivenCard "a\nb").record] [] .empty).outcome =
        .ok topology ∧
      linesOf plain = ["0000:00:01.0 0000: 0000:0000"] ∧
      linesOf verbose = ["0000:00:01.0 0000: 0000:0000",
        "\tSubsystem: 0000:0000", "\tKernel driver in use: a", "b"] ∧
      withoutDetails verbose ≠ plain := by
  decide +kernel

end PciInventory.Render
