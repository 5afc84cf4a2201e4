import PciInventory.Proofs.Render.Details
import PciInventory.Proofs.Render.Sections
import PciInventory.Proofs.Resource.Slots

/-!
# Bridge windows in print

A verbose block of a bridge has one line for each resource in the window slots
that has a space, in slot order.  A window keeps the start and the length of its
range, and its end is put together from these again.  The length stops at the
greatest word, which is too small for the range of all addresses and for no other
one, so every other range is printed with its own end and its own size.
-/

namespace PciInventory

/-! ## Windows and their ranges -/

namespace Resource

/-- The I/O or the memory flag is set. -/
def hasSpace (resource : Resource) : Bool :=
  resource.isIo || resource.isMemory

/-- The resources with a space in the window slots, in slot order. -/
def windowResources (resources : List Resource) : List Resource :=
  ([13, 14, 15].filterMap fun slot => resources[slot]?).filter hasSpace

/-- The range of all addresses. -/
def IsWhole (resource : Resource) : Prop :=
  resource.start = 0 ∧ resource.finish = 0xffffffffffffffff

/-- What a window with these flags is called. -/
def windowLabel (resource : Resource) : String :=
  if resource.isIo then "I/O"
  else if resource.isPrefetchable then "Prefetchable memory"
  else "Memory"

instance (resource : Resource) : Decidable resource.IsWhole :=
  inferInstanceAs (Decidable (_ ∧ _))

variable {resource : Resource}

theorem flags_ne_zero_of_hasSpace (hspace : resource.hasSpace = true) :
    resource.flags ≠ 0 := by
  intro hflags
  simp [hasSpace, isIo, isMemory, hasFlag, hflags] at hspace

theorem isEmpty_classify (resource : Resource) :
    resource.classify.isEmpty = !resource.hasSpace := by
  unfold classify
  split
  next hflags =>
    have hnone : resource.hasSpace = false := by
      by_contra hspace
      exact flags_ne_zero_of_hasSpace (by simpa using hspace) hflags
    rw [hnone]
    rfl
  next =>
    unfold hasSpace Region.isEmpty
    cases resource.isIo <;> cases resource.isMemory <;> rfl

theorem filterMap_windowSlots (resources : List Resource) :
    ([13, 14, 15].filterMap fun slot => resources[slot]?) =
      (resources.drop firstWindowSlot).take windowCount := by
  have hslot (offset : Nat) : resources[13 + offset]? =
      (resources.drop 13)[offset]? := List.getElem?_drop.symm
  have hslots : ([13, 14, 15].filterMap fun slot => resources[slot]?) =
      [0, 1, 2].filterMap fun offset => (resources.drop 13)[offset]? := by
    simp only [List.filterMap_cons, ← hslot]
    rfl
  rw [hslots, firstWindowSlot, windowCount]
  rcases resources.drop 13 with _ | ⟨first, _ | ⟨second, _ | ⟨third, rest⟩⟩⟩ <;>
    rfl

theorem windows_bridge (resources : List Resource) :
    windows resources .bridge = (windowResources resources).map classify := by
  rw [windowResources, filterMap_windowSlots, windows, List.filter_map]
  congr 1
  apply List.filter_congr
  intro resource _
  simp [isEmpty_classify]

/-- Only the range of all addresses has a size that is no word. -/
theorem span_lt_of_not_isWhole (hwhole : ¬resource.IsWhole) :
    resource.finish.toNat - resource.start.toNat + 1 < UInt64.size := by
  have hsize : UInt64.size = 2 ^ 64 := rfl
  have hfinish : resource.finish.toNat < UInt64.size :=
    resource.finish.toNat_lt
  by_contra hlarge
  apply hwhole
  have hstart : resource.start.toNat = (0 : UInt64).toNat := by
    rw [UInt64.toNat_zero]
    omega
  have hlast : resource.finish.toNat =
      (0xffffffffffffffff : UInt64).toNat := by
    change resource.finish.toNat = UInt64.size - 1
    omega
  exact ⟨UInt64.toNat_inj.mp hstart, UInt64.toNat_inj.mp hlast⟩

theorem toNat_length_classify (hspace : resource.hasSpace = true)
    (hrange : resource.HasRange) :
    resource.classify.length.toNat =
      min (resource.finish.toNat - resource.start.toNat + 1)
        (UInt64.size - 1) :=
  (describes_classify resource).length_eq (flags_ne_zero_of_hasSpace hspace)
    hrange

end Resource

namespace Render

/-- The end of a range comes back from its start and its length. -/
theorem lastAddress_classify {resource : Resource}
    (hspace : resource.hasSpace = true) (hrange : resource.HasRange)
    (hwhole : ¬resource.IsWhole) :
    lastAddress resource.classify = resource.finish.toNat := by
  have hspan := Resource.span_lt_of_not_isWhole hwhole
  have horder : resource.start.toNat ≤ resource.finish.toNat := hrange.1
  have hfinish : resource.finish.toNat < UInt64.size :=
    resource.finish.toNat_lt
  rw [lastAddress, Resource.classify_address,
    Resource.toNat_length_classify hspace hrange]
  omega

/-! ## Sizes -/

/-- The units of printed sizes. -/
def sizeUnits : List (Nat × String) :=
  [(1, ""), (2 ^ 10, "K"), (2 ^ 20, "M"), (2 ^ 30, "G"), (2 ^ 40, "T")]

/-- The text is a number of units that together have this many bytes. -/
def Expands (text : String) (bytes : Nat) : Prop :=
  ∃ count, ∃ unit ∈ sizeUnits,
    text = Numeral.decimal count ++ unit.2 ∧ count * unit.1 = bytes

theorem expands_size (length : Nat) : Expands (size length) length := by
  unfold size
  split
  next unit mark hunit =>
    have hmem : (unit, mark) ∈ sizeUnits := by
      have hsub : units ⊆ sizeUnits := by decide
      exact hsub (List.mem_of_find?_eq_some hunit)
    have hdivides := List.find?_some hunit
    simp only [Bool.and_eq_true, decide_eq_true_eq] at hdivides
    exact ⟨length / unit, _, hmem, rfl,
      Nat.div_mul_cancel (Nat.dvd_of_mod_eq_zero hdivides.2)⟩
  next =>
    exact ⟨length, (1, ""), by decide, by simp, Nat.mul_one length⟩

/-! ## Lines of windows -/

def windowLabels : List String :=
  ["I/O", "Prefetchable memory", "Memory"]

/-- The detail is worded as that of a window. -/
def isWindowDetail (detail : String) : Bool :=
  windowLabels.any fun label =>
    (label ++ " behind bridge: ").toList.isPrefixOf detail.toList

/-- The line has the detail of a window behind a tab, and nothing but spaces in
front of that. -/
def isWindowLine (line : String) : Bool :=
  match line.toList.dropWhile fun character => character == ' ' with
  | '\t' :: detail => isWindowDetail (String.ofList detail)
  | _ => false

/-- No label begins like a text with these first two characters. -/
theorem isWindowDetail_append (front : String)
    (hlength : 2 ≤ front.toList.length)
    (hfront : ∀ label ∈ windowLabels,
      label.toList.take 2 ≠ front.toList.take 2) (back : String) :
    isWindowDetail (front ++ back) = false := by
  have hlabels : ∀ label ∈ windowLabels, 2 ≤ label.toList.length := by
    decide
  rw [isWindowDetail, List.any_eq_false]
  intro label hlabel hbegins
  obtain ⟨rest, hrest⟩ := List.isPrefixOf_iff_prefix.mp hbegins
  apply hfront label hlabel
  have htake := congrArg (List.take 2) hrest
  simpa [List.take_append_of_le_length, hlength, hlabels label hlabel]
    using htake

theorem isWindowDetail_windowDetails (window : Region) :
    isWindowDetail (windowDetails window) = true := by
  have hlabel : windowLabel window ∈ windowLabels := by
    unfold windowLabel
    split <;> decide
  rw [isWindowDetail, List.any_eq_true]
  refine ⟨windowLabel window, hlabel, List.isPrefixOf_iff_prefix.mpr ?_⟩
  simp [windowDetails]

theorem not_isWindowDetail_subsystemDetails (device : Device) (view : View) :
    ∀ detail ∈ subsystemDetails device view,
      isWindowDetail detail = false := by
  have hfront := isWindowDetail_append "Subsystem: " (by decide) (by decide)
  unfold subsystemDetails
  split
  · simp
  · dsimp only
    split <;> simp [String.append_assoc, hfront]

theorem not_isWindowDetail_busDetails (device : Device) :
    ∀ detail ∈ busDetails device, isWindowDetail detail = false := by
  have hfront := isWindowDetail_append "Bus: primary=" (by decide)
    (by decide)
  unfold busDetails
  split <;> simp [String.append_assoc, hfront]

theorem not_isWindowDetail_interruptDetails (device : Device) :
    ∀ detail ∈ interruptDetails device, isWindowDetail detail = false := by
  have hfront := isWindowDetail_append "Interrupt: pin "
    (by decide) (by decide)
  unfold interruptDetails
  split <;> simp [String.append_assoc, hfront]

theorem not_isWindowDetail_numberDetails (label : String)
    (hlength : 2 ≤ label.toList.length)
    (hlabel : ∀ other ∈ windowLabels,
      other.toList.take 2 ≠ label.toList.take 2) (number : Option UInt16) :
    ∀ detail ∈ numberDetails label number, isWindowDetail detail = false := by
  have hfront := isWindowDetail_append label hlength hlabel
  unfold numberDetails
  split <;> simp [String.append_assoc, hfront]

theorem not_isWindowDetail_barDetails (slot : BarSlot) :
    ∀ detail ∈ barDetails slot, isWindowDetail detail = false := by
  have hfront := isWindowDetail_append "Region " (by decide) (by decide)
  unfold barDetails
  split <;> simp [String.append_assoc, hfront]

theorem not_isWindowDetail_romDetails (device : Device) :
    ∀ detail ∈ romDetails device, isWindowDetail detail = false := by
  have hfront := isWindowDetail_append "Expansion ROM at "
    (by decide) (by decide)
  unfold romDetails
  split <;> simp [String.append_assoc, hfront]

theorem not_isWindowDetail_capabilityDetails (capability : Capability) :
    isWindowDetail (capabilityDetails capability) = false := by
  unfold capabilityDetails
  rw [String.append_assoc, String.append_assoc]
  exact isWindowDetail_append "Capabilities: [" (by decide) (by decide) _

theorem filter_hardwareDetails (device : Device) (view : View) :
    (hardwareDetails device view).filter isWindowDetail =
      device.windows.map windowDetails := by
  have hnone {details : List String}
      (hdetails : ∀ detail ∈ details, isWindowDetail detail = false) :
      details.filter isWindowDetail = [] :=
    List.filter_eq_nil_iff.mpr fun detail hdetail => by
      simp [hdetails detail hdetail]
  have hwindows : (device.windows.map windowDetails).filter isWindowDetail =
      device.windows.map windowDetails := by
    rw [List.filter_eq_self, List.forall_mem_map]
    exact fun window _ => isWindowDetail_windowDetails window
  simp only [hardwareDetails, List.filter_append, hwindows,
    hnone (not_isWindowDetail_subsystemDetails device view),
    hnone (not_isWindowDetail_busDetails device),
    hnone (not_isWindowDetail_interruptDetails device),
    hnone (not_isWindowDetail_numberDetails "NUMA node"
      (by decide) (by decide) device.record.numaNode),
    hnone (not_isWindowDetail_numberDetails "IOMMU group"
      (by decide) (by decide) device.record.iommuGroup),
    hnone (List.forall_mem_flatMap.mpr fun slot (_ : slot ∈ device.bars) =>
      not_isWindowDetail_barDetails slot),
    hnone (not_isWindowDetail_romDetails device),
    hnone (List.forall_mem_map.mpr
      fun capability (_ : capability ∈ device.capabilities) =>
        not_isWindowDetail_capabilityDetails capability),
    List.nil_append, List.append_nil]

/-! ## Blocks -/

/-- A text of spaces. -/
def IsIndent (indent : String) : Prop :=
  ∀ character ∈ indent.toList, character = ' '

theorem isIndent_indentation (depth : Nat) :
    IsIndent (indentation depth) := by
  simp [IsIndent, indentation]

theorem IsIndent.append {first second : String} (hfirst : IsIndent first)
    (hsecond : IsIndent second) : IsIndent (first ++ second) := by
  rw [IsIndent, String.toList_append, List.forall_mem_append]
  exact ⟨hfirst, hsecond⟩

theorem IsIndent.dropWhile_append {indent : String}
    (hindent : IsIndent indent) (rest : String) :
    (indent ++ rest).toList.dropWhile (fun character => character == ' ') =
      rest.toList.dropWhile fun character => character == ' ' := by
  rw [String.toList_append]
  exact List.dropWhile_append_of_pos fun character hcharacter => by
    simp [hindent character hcharacter]

/-- The window lines in the name of a driver. -/
def driverWindowLines (device : Device) : List String :=
  (device.record.driver.map fun driver =>
    (pieces driver).tail.filter isWindowLine).getD []

section Block

variable {device : Device} {indent : String}

theorem isWindowLine_detail (hindent : IsIndent indent) (detail : String) :
    isWindowLine (indent ++ "\t" ++ detail) = isWindowDetail detail := by
  rw [isWindowLine, String.append_assoc, hindent.dropWhile_append]
  simp

theorem not_isWindowLine_deviceLine (hindent : IsIndent indent)
    (device : Device) (view : View) :
    isWindowLine (indent ++ deviceLine device view) = false := by
  obtain ⟨first, rest, hline, hblank⟩ := exists_cons_deviceLine device view
  simp only [List.mem_cons, List.not_mem_nil, or_false, not_or] at hblank
  rw [isWindowLine, hindent.dropWhile_append, hline]
  simp [hblank]

theorem break_notMem_indented (hindent : IsIndent indent) {line : String}
    (hline : '\n' ∉ line.toList) : '\n' ∉ (indent ++ line).toList := by
  rw [String.toList_append, List.mem_append, not_or]
  exact ⟨fun hbreak => by simpa using hindent _ hbreak, hline⟩

/-- Behind the front of its detail the name of a driver can only have window
lines of its own. -/
theorem filter_driverDetails (hindent : IsIndent indent) (device : Device) :
    ((driverDetails device).flatMap fun detail =>
        pieces (indent ++ "\t" ++ detail)).filter isWindowLine =
      driverWindowLines device := by
  unfold driverDetails driverWindowLines
  cases device.record.driver with
  | none => rfl
  | some driver =>
      have hfront :
          '\n' ∉ (indent ++ "\t" ++ "Kernel driver in use: ").toList := by
        rw [String.append_assoc]
        exact break_notMem_indented hindent (by decide)
      have hhead (first : String) :
          isWindowLine (indent ++ "\t" ++ "Kernel driver in use: " ++ first) =
            false := by
        rw [String.append_assoc, isWindowLine_detail hindent]
        exact isWindowDetail_append "Kernel driver in use: " (by decide)
          (by decide) first
      rw [List.flatMap_singleton, ← String.append_assoc,
        pieces_append hfront, Option.map_some, Option.getD_some]
      cases pieces driver with
      | nil => rfl
      | cons first rest =>
          rw [List.modifyHead_cons, List.tail_cons, List.filter_cons_of_neg]
          rw [hhead]
          decide

theorem filter_block_windowLines (hnames : device.names.OneLine)
    (hindent : IsIndent indent) (numeric : Bool) :
    (linesOf (text (block indent ⟨numeric, true⟩ device))).filter
        isWindowLine =
      (device.windows.map fun window =>
        indent ++ "\t" ++ windowDetails window) ++
          driverWindowLines device := by
  have hline : '\n' ∉ (indent ++ deviceLine device ⟨numeric, true⟩).toList :=
    break_notMem_indented hindent (break_notMem_deviceLine hnames _)
  have hhardware :
      (hardwareDetails device ⟨numeric, true⟩).flatMap
          (fun detail => pieces (indent ++ "\t" ++ detail)) =
        (hardwareDetails device ⟨numeric, true⟩).map
          fun detail => indent ++ "\t" ++ detail := by
    rw [List.map_eq_flatMap]
    apply List.flatMap_congr
    intro detail hdetail
    apply pieces_eq_singleton
    rw [String.append_assoc]
    apply break_notMem_indented hindent
    simpa using break_notMem_hardwareDetails hnames _ detail hdetail
  have hdetails : isWindowLine ∘ (fun detail => indent ++ "\t" ++ detail) =
      isWindowDetail :=
    funext (isWindowLine_detail hindent)
  rw [linesOf_text, block, if_pos rfl, List.flatMap_cons,
    pieces_eq_singleton hline, List.singleton_append,
    List.filter_cons_of_neg
      (by simp [not_isWindowLine_deviceLine hindent]),
    List.flatMap_map, details_eq_append, List.flatMap_append, hhardware,
    List.filter_append, filter_driverDetails hindent, List.filter_map,
    hdetails, filter_hardwareDetails, List.map_map]
  rfl

end Block

/-! ## Blocks in print -/

theorem exists_text_of_infix {part lines : List String}
    (hwithin : part <:+: lines) :
    ∃ before after, text lines = text before ++ text part ++ text after := by
  obtain ⟨before, after, rfl⟩ := hwithin
  exact ⟨before, after, by rw [text_append, text_append]⟩

theorem infix_flatMap {Item Entry : Type} {items : List Item} {item : Item}
    (hitem : item ∈ items) (entries : Item → List Entry) :
    entries item <:+: items.flatMap entries := by
  rw [List.flatMap_def]
  exact List.infix_of_mem_flatten (List.mem_map_of_mem hitem)

theorem Section.block_infix_lines {part : Section} {device : Device}
    (hdevice : device ∈ part.devices) (view : View) :
    block part.indent view device <:+: part.lines view := by
  rw [block_eq_map, Section.lines]
  exact (infix_flatMap hdevice fun device =>
    (block "" view device).map fun line => part.indent ++ line).trans
      (List.suffix_cons _ _).isInfix

theorem exists_block_infix_tree {topology : Topology}
    (hmap : Topology.BusMap topology.devices topology.buses)
    (hkeys : (topology.buses.map Bus.id).Nodup) {device : Device}
    (hdevice : device ∈ topology.devices) (view : View) :
    ∃ indent, IsIndent indent ∧
      block indent view device <:+: tree topology view := by
  have hsections := (sections_devices_perm hkeys).mem_iff.mpr hdevice
  rw [← Section.flatMap_devices_unlisted (topology.devices.filter _),
    ← List.flatMap_append, List.mem_flatMap] at hsections
  obtain ⟨part, hpart, hmember⟩ := hsections
  have hspaces : IsIndent "  " := by simp [IsIndent]
  refine ⟨part.indent, ?_, ?_⟩
  · rcases List.mem_append.mp hpart with hvisited | hunlisted
    · obtain ⟨visited, -, rfl⟩ := List.mem_map.mp hvisited
      exact (isIndent_indentation _).append hspaces
    · unfold Section.unlisted at hunlisted
      split at hunlisted
      next => contradiction
      next =>
        rw [List.mem_singleton.mp hunlisted]
        exact hspaces
  · rw [tree_eq_flatMap hmap]
    exact (Section.block_infix_lines hmember view).trans
      (infix_flatMap hpart (Section.lines view))

/-- Listing and tree show every device in a block behind spaces. -/
theorem exists_block_shown {topology : Topology}
    (hmap : Topology.BusMap topology.devices topology.buses)
    (hkeys : (topology.buses.map Bus.id).Nodup) {device : Device}
    (hdevice : device ∈ topology.devices) (view : View) (asTree : Bool) :
    ∃ indent before after, IsIndent indent ∧
      (shown topology view asTree).1 =
        text before ++ text (block indent view device) ++ text after := by
  cases asTree with
  | true =>
      obtain ⟨indent, hindent, hwithin⟩ :=
        exists_block_infix_tree hmap hkeys hdevice view
      obtain ⟨before, after, hshown⟩ := exists_text_of_infix hwithin
      exact ⟨indent, before, after, hindent, hshown⟩
  | false =>
      have hempty : IsIndent "" := by simp [IsIndent]
      obtain ⟨before, after, hshown⟩ :=
        exists_text_of_infix (infix_flatMap hdevice (block "" view))
      exact ⟨"", before, after, hempty, hshown⟩

/-! ## Windows in print -/

/-- The line is that of a window with these bounds and this size. -/
def ReportsWindow (indent label : String) (first last bytes : Nat)
    (line : String) : Prop :=
  ∃ size, Expands size bytes ∧
    line = indent ++ "\t" ++ label ++ " behind bridge: " ++
      Numeral.hex 8 first ++ "-" ++ Numeral.hex 8 last ++
      " [size=" ++ size ++ "]"

/-- The line is that of the range of a resource.  Of the range of all addresses
it has the start, and the greatest word as its size. -/
structure ShowsRange (indent : String) (resource : Resource)
    (line : String) : Prop where
  proper : ¬resource.IsWhole →
    ReportsWindow indent resource.windowLabel resource.start.toNat
      resource.finish.toNat
      (resource.finish.toNat - resource.start.toNat + 1) line
  whole : resource.IsWhole → ∃ last,
    ReportsWindow indent resource.windowLabel resource.start.toNat last
      (UInt64.size - 1) line

section Range

variable {resource : Resource}

theorem windowLabel_classify (hspace : resource.hasSpace = true) :
    windowLabel resource.classify = resource.windowLabel := by
  have hflags := Resource.flags_ne_zero_of_hasSpace hspace
  rw [Resource.hasSpace, Bool.or_eq_true] at hspace
  unfold windowLabel Resource.classify Resource.windowLabel
  rw [if_neg hflags]
  cases hio : resource.isIo with
  | true => simp
  | false =>
      have hmemory : resource.isMemory = true := by simpa [hio] using hspace
      cases resource.isPrefetchable <;> simp [hmemory]

theorem reportsWindow_windowDetails (indent : String)
    (hspace : resource.hasSpace = true) :
    ReportsWindow indent resource.windowLabel resource.start.toNat
      (lastAddress resource.classify) resource.classify.length.toNat
      (indent ++ "\t" ++ windowDetails resource.classify) := by
  refine ⟨_, expands_size _, ?_⟩
  have hnote : " " ++ sizeNote resource.classify =
      " [size=" ++ size resource.classify.length.toNat ++ "]" := by
    simp [sizeNote, ← String.append_assoc]
  rw [windowDetails, windowLabel_classify hspace, Resource.classify_address]
  simp only [String.append_assoc] at hnote ⊢
  rw [hnote]

theorem showsRange_windowDetails (indent : String)
    (hspace : resource.hasSpace = true) (hrange : resource.HasRange) :
    ShowsRange indent resource
      (indent ++ "\t" ++ windowDetails resource.classify) := by
  have hreports := reportsWindow_windowDetails indent hspace
  rw [Resource.toNat_length_classify hspace hrange] at hreports
  constructor
  · intro hproper
    have hspan := Resource.span_lt_of_not_isWhole hproper
    rw [lastAddress_classify hspace hrange hproper,
      Nat.min_eq_left (by omega)] at hreports
    exact hreports
  · rintro ⟨hstart, hfinish⟩
    rw [hstart, hfinish] at hreports
    rw [hstart]
    exact ⟨_, hreports⟩

end Range

/-- A verbose listing or tree shows a bridge in a block with one line for each
resource of its window slots that has a space, in slot order, and behind them
those that the name of its driver has.  The line of a resource with a range has
the bounds and the size of this range, unless it is that of all addresses. -/
theorem windowLines_of_bridge {records : List DeviceRecord}
    {buses : List BusRecord} {database : Bytes}
    {earlier : List Names.Query} {topology : Topology} {device : Device}
    (hbuilt :
      (Topology.ofRecords records buses
        ((Names.Resolver.ofDatabase database).askAll earlier).2).outcome =
          .ok topology)
    (hdevice : device ∈ topology.devices) (hkind : device.kind = .bridge)
    (numeric asTree : Bool) :
    ∃ indent before after lines, IsIndent indent ∧
      (shown topology ⟨numeric, true⟩ asTree).1 =
        text before ++ text (block indent ⟨numeric, true⟩ device) ++
          text after ∧
      (linesOf (text (block indent ⟨numeric, true⟩ device))).filter
          isWindowLine = lines ++ driverWindowLines device ∧
      List.Forall₂ (fun resource line =>
          resource.HasRange → ShowsRange indent resource line)
        (Resource.windowResources device.record.resources) lines := by
  obtain ⟨-, hmap⟩ := Topology.sorted_and_busMap_of_ofRecords hbuilt
  obtain ⟨indent, before, after, hindent, hshown⟩ :=
    exists_block_shown hmap (Topology.keys_nodup_of_ofRecords hbuilt)
      hdevice ⟨numeric, true⟩ asTree
  have hnames := oneLine_names_of_ofRecords hbuilt device hdevice
  have hwindows : device.windows =
      (Resource.windowResources device.record.resources).map
        Resource.classify := by
    rw [Device.windows, hkind, Resource.windows_bridge]
  refine ⟨indent, before, after, _, hindent, hshown,
    filter_block_windowLines hnames hindent numeric, ?_⟩
  rw [hwindows, List.map_map, List.forall₂_map_right_iff, List.forall₂_same]
  intro resource hresource hrange
  exact showsRange_windowDetails indent (List.mem_filter.mp hresource).2 hrange

/-- A bridge with these resources in its window slots. -/
def windowBridge (windows : List Resource) : Device :=
  { record := ⟨⟨0, 0, 1, 0⟩, List.replicate 14 0 ++ 1 :: List.replicate 49 0,
      List.replicate 13 ⟨0, 0, 0⟩ ++ windows, none, none, none⟩
    kind := .bridge
    capabilities := []
    names := ⟨"", "", .unknown, "", ""⟩ }

/-- The bridge on the root bus. -/
def windowTopology (windows : List Resource) : Topology :=
  ⟨[windowBridge windows], [⟨⟨0, 0⟩, true, [0]⟩]⟩

/-- An I/O window, an unused slot and a memory window up to the last address. -/
def twoWindows : List Resource :=
  [⟨0x1000, 0x1fff, 0x100⟩, ⟨0, 0, 0⟩,
    ⟨0x100000000, 0xffffffffffffffff, 0x102200⟩]

theorem windowLines_of_bridge_twoWindows :
    let device := windowBridge twoWindows
    (Topology.ofRecords [device.record] [⟨⟨0, 0⟩, true⟩]
        ((Names.Resolver.ofDatabase []).askAll []).2).outcome =
          .ok (windowTopology twoWindows) ∧
      device ∈ (windowTopology twoWindows).devices ∧
      device.kind = .bridge ∧
      ∃ indent first second,
        (linesOf (text (block indent ⟨true, true⟩ device))).filter
            isWindowLine = [first, second] ∧
          ReportsWindow indent "I/O" 0x1000 0x1fff 0x1000 first ∧
          ReportsWindow indent "Prefetchable memory" 0x100000000
            0xffffffffffffffff 0xffffffff00000000 second := by
  intro device
  have hbuilt : (Topology.ofRecords [device.record] [⟨⟨0, 0⟩, true⟩]
      ((Names.Resolver.ofDatabase []).askAll []).2).outcome =
        .ok (windowTopology twoWindows) := by cbv
  have hdevice : device ∈ (windowTopology twoWindows).devices :=
    List.mem_singleton_self device
  obtain ⟨indent, -, -, lines, -, -, hlines, hshows⟩ :=
    windowLines_of_bridge hbuilt hdevice rfl true true
  have hwindows : Resource.windowResources device.record.resources =
      [⟨0x1000, 0x1fff, 0x100⟩,
        ⟨0x100000000, 0xffffffffffffffff, 0x102200⟩] := by decide
  rw [hwindows] at hshows
  obtain _ | ⟨hfirst, _ | ⟨hsecond, _ | _⟩⟩ := hshows
  exact ⟨hbuilt, hdevice, rfl, indent, _, _, hlines,
    (hfirst (by decide)).proper (by decide),
    (hsecond (by decide)).proper (by decide)⟩

/-- A window over all addresses is printed without the last one. -/
theorem windowLine_allAddresses :
    let resource : Resource := ⟨0, 0xffffffffffffffff, 0x100⟩
    let device := windowBridge [resource]
    let topology := windowTopology [resource]
    let output := (shown topology ⟨true, true⟩ false).1
    (Topology.ofRecords [device.record] [⟨⟨0, 0⟩, true⟩] .empty).outcome =
        .ok topology ∧
      topology.devices = [device] ∧ device.kind = .bridge ∧
      Resource.windowResources device.record.resources = [resource] ∧
      resource.HasRange ∧
      linesOf output = ["0000:00:01.0 0000: 0000:0000",
        "\tBus: primary=00, secondary=00, subordinate=00",
        "\tI/O behind bridge: 00000000-fffffffffffffffe [size=18446744073709551615]"] ∧
      ∀ line ∈ linesOf output,
        ¬ReportsWindow "" resource.windowLabel resource.start.toNat
          resource.finish.toNat
          (resource.finish.toNat - resource.start.toNat + 1) line := by
  intro resource device topology output
  have hlines : linesOf output = ["0000:00:01.0 0000: 0000:0000",
      "\tBus: primary=00, secondary=00, subordinate=00",
      "\tI/O behind bridge: 00000000-fffffffffffffffe [size=18446744073709551615]"] := by
    decide +kernel
  have hother : ∀ line ∈ linesOf output,
      ¬("\tI/O behind bridge: 00000000-ffffffffffffffff").toList <+:
        line.toList := by
    rw [hlines]
    decide
  have hfront : "\tI/O behind bridge: 00000000-ffffffffffffffff" =
      "" ++ "\t" ++ resource.windowLabel ++ " behind bridge: " ++
        Numeral.hex 8 resource.start.toNat ++ "-" ++
        Numeral.hex 8 resource.finish.toNat := by
    decide +kernel
  refine ⟨by decide +kernel, rfl, rfl, by decide, by decide, hlines, ?_⟩
  rintro line hline ⟨size, -, hreported⟩
  apply hother line hline
  refine ⟨(" [size=" ++ size ++ "]").toList, ?_⟩
  rw [hreported, hfront, ← String.toList_append]
  simp only [String.append_assoc]

end Render

end PciInventory
