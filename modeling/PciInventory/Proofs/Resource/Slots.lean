import PciInventory.Resource

/-!
# Register slots

A slot keeps the region of its own resource, whatever its neighbours are.  It is
an upper half if it is empty and the slot below it is a 64-bit memory slot that
is no upper half itself, so one rule fixes all slots from the lowest one on.  The
sizes of regions stop at the greatest word, which only the range of all addresses
and the ranges up to the last address get to.
-/

namespace PciInventory

/-! ## Regions -/

namespace Resource

/-- The resource has a range, neither inverted nor all zero. -/
def HasRange (resource : Resource) : Prop :=
  resource.start ≤ resource.finish ∧
    ¬(resource.start = 0 ∧ resource.finish = 0)

instance (resource : Resource) : Decidable resource.HasRange :=
  inferInstanceAs (Decidable (_ ∧ _))

/-- What the region of a resource says about its range. -/
structure Describes (resource : Resource) (region : Region) : Prop where
  memory_of_is64Bit : region.is64Bit = true → region.kind = .memory
  memory_of_prefetchable : region.prefetchable = true → region.kind = .memory
  length_eq : resource.flags ≠ 0 → resource.HasRange →
    region.length.toNat =
      min (resource.finish.toNat - resource.start.toNat + 1) (UInt64.size - 1)
  endExclusive_eq : resource.flags ≠ 0 → resource.HasRange →
    region.endExclusive.toNat =
      min (resource.finish.toNat + 1) (UInt64.size - 1)
  length_eq_zero : ¬resource.HasRange → region.length = 0

variable {resource : Resource}

theorem toNat_ofNat_min (number : Nat) :
    (UInt64.ofNat (min number (UInt64.size - 1))).toNat =
      min number (UInt64.size - 1) := by
  rw [UInt64.toNat_ofNat', UInt64.size]
  omega

theorem length_of_not_hasRange (hnone : ¬resource.HasRange) :
    resource.length = 0 := by
  unfold length
  split
  next => rfl
  next hzero =>
    have hinverted : resource.finish < resource.start :=
      UInt64.not_le.mp fun hle => hnone ⟨hle, hzero⟩
    rw [if_pos hinverted]

theorem toNat_length (hrange : resource.HasRange) :
    resource.length.toNat =
      min (resource.finish.toNat - resource.start.toNat + 1)
        (UInt64.size - 1) := by
  unfold length
  rw [if_neg hrange.2, if_neg (UInt64.not_lt.mpr hrange.1),
    toNat_ofNat_min]

@[simp] theorem classify_address : resource.classify.address =
    resource.start := by
  unfold classify
  split <;> rfl

theorem classify_length :
    resource.classify.length =
      if resource.flags = 0 then 0 else resource.length := by
  unfold classify
  split <;> rfl

theorem classify_is64Bit :
    resource.classify.is64Bit =
      (decide (resource.classify.kind = .memory) && resource.is64Bit) := by
  unfold classify
  split <;> rfl

theorem classify_prefetchable :
    resource.classify.prefetchable =
      (decide (resource.classify.kind = .memory) &&
        resource.isPrefetchable) := by
  unfold classify
  split <;> rfl

theorem describes_classify (resource : Resource) :
    resource.Describes resource.classify where
  memory_of_is64Bit hflag := by
    rw [classify_is64Bit, Bool.and_eq_true, decide_eq_true_eq] at hflag
    exact hflag.1
  memory_of_prefetchable hflag := by
    rw [classify_prefetchable, Bool.and_eq_true, decide_eq_true_eq] at hflag
    exact hflag.1
  length_eq hflags hrange := by
    rw [classify_length, if_neg hflags, toNat_length hrange]
  endExclusive_eq hflags hrange := by
    have hle : resource.start.toNat ≤ resource.finish.toNat := hrange.1
    rw [Region.endExclusive, toNat_ofNat_min, classify_address,
      classify_length, if_neg hflags, toNat_length hrange]
    omega
  length_eq_zero hnone := by
    rw [classify_length, length_of_not_hasRange hnone]
    split <;> rfl

end Resource

/-! ## Pairing -/

namespace BarSlot

/-- The number of the slot whose upper half a region behind it is. -/
def lowerHalf? (previous : Option BarSlot) (region : Region) : Option Nat :=
  previous.bind fun lower =>
    if region.isEmpty && lower.takesNext then some lower.index else none

theorem pairFrom_cons (previous : Option BarSlot) (index : Nat)
    (region : Region) (rest : List Region) :
    pairFrom previous index (region :: rest) =
      ⟨index, region, lowerHalf? previous region⟩ ::
        pairFrom (some ⟨index, region, lowerHalf? previous region⟩)
          (index + 1) rest := by
  cases previous <;> rfl

theorem pairFrom_length (previous : Option BarSlot) (index : Nat)
    (regions : List Region) :
    (pairFrom previous index regions).length = regions.length := by
  induction regions generalizing previous index with
  | nil => rfl
  | cons region rest ih =>
      rw [pairFrom_cons, List.length_cons, List.length_cons, ih]

variable {previous : Option BarSlot} {index position : Nat}
  {regions : List Region} {slot : BarSlot}

/-- Pairing changes neither the numbers nor the regions. -/
theorem index_and_region_of_pairFrom
    (hslot : (pairFrom previous index regions)[position]? = some slot) :
    slot.index = index + position ∧
      regions[position]? = some slot.region := by
  induction regions generalizing previous index position with
  | nil => simp at hslot
  | cons region rest ih =>
      rw [pairFrom_cons] at hslot
      cases position with
      | zero =>
          obtain rfl := Option.some.inj hslot
          exact ⟨rfl, rfl⟩
      | succ position =>
          obtain ⟨hindex, hregion⟩ := ih hslot
          exact ⟨by omega, hregion⟩

theorem upperHalfOf_of_pairFrom_zero
    (hslot : (pairFrom previous index regions)[0]? = some slot) :
    slot.upperHalfOf = lowerHalf? previous slot.region := by
  cases regions with
  | nil => simp at hslot
  | cons region rest =>
      rw [pairFrom_cons] at hslot
      obtain rfl := Option.some.inj hslot
      rfl

/-- Every slot but the first is paired with the slot right before it. -/
theorem upperHalfOf_of_pairFrom_succ
    (hslot : (pairFrom previous index regions)[position + 1]? = some slot) :
    ∃ below, (pairFrom previous index regions)[position]? = some below ∧
      slot.upperHalfOf = lowerHalf? (some below) slot.region := by
  induction regions generalizing previous index position with
  | nil => simp at hslot
  | cons region rest ih =>
      rw [pairFrom_cons] at hslot ⊢
      cases position with
      | zero => exact ⟨_, rfl, upperHalfOf_of_pairFrom_zero hslot⟩
      | succ position => exact ih hslot

theorem lowerHalf?_eq_some_iff {below : BarSlot} {region : Region}
    {lower : Nat} :
    lowerHalf? (some below) region = some lower ↔
      below.index = lower ∧ region.kind = .empty ∧
        below.region.kind = .memory ∧ below.region.is64Bit = true ∧
        below.upperHalfOf = none := by
  simp only [lowerHalf?, Option.bind_some, Region.isEmpty, takesNext,
    isUpperHalf, Option.ite_none_right_eq_some, Bool.and_eq_true,
    decide_eq_true_eq, Bool.not_eq_true', Option.isSome_eq_false_iff,
    Option.isNone_iff_eq_none, Option.some.injEq, and_assoc]
  constructor
  · rintro ⟨hempty, hmemory, hwide, hfree, hindex⟩
    exact ⟨hindex, hempty, hmemory, hwide, hfree⟩
  · rintro ⟨hindex, hempty, hmemory, hwide, hfree⟩
    exact ⟨hempty, hmemory, hwide, hfree, hindex⟩

end BarSlot

/-! ## The slots of a device -/

namespace Resource

/-- The slots that a device of this kind has for its resources. -/
structure HasSlots (resources : List Resource) (kind : DeviceKind)
    (slots : List BarSlot) : Prop where
  length_eq : slots.length = match kind with
    | .endpoint => 6
    | .bridge => 2
  index_eq : ∀ (position : Nat) (slot : BarSlot), slots[position]? = some slot →
    slot.index = position
  region_eq : ∀ (position : Nat) (slot : BarSlot),
    slots[position]? = some slot →
      slot.region = match resources[position]? with
        | some resource => resource.classify
        | none => Region.empty
  upperHalfOf_iff : ∀ (position : Nat) (slot : BarSlot),
    slots[position]? = some slot → ∀ lower,
      slot.upperHalfOf = some lower ↔
        position = lower + 1 ∧ slot.region.kind = .empty ∧
          ∃ below, slots[lower]? = some below ∧
            below.region.kind = .memory ∧ below.region.is64Bit = true ∧
            below.upperHalfOf = none

variable {resources : List Resource} {kind : DeviceKind}
  {slots : List BarSlot}

theorem bars_length (resources : List Resource) (kind : DeviceKind) :
    (bars resources kind).length = kind.barCount := by
  rw [bars, BarSlot.pairFrom_length, List.length_map, List.length_range]

theorem hasSlots_bars (resources : List Resource) (kind : DeviceKind) :
    HasSlots resources kind (bars resources kind) where
  length_eq := by
    rw [bars_length]
    cases kind <;> rfl
  index_eq position slot hslot := by
    rw [(BarSlot.index_and_region_of_pairFrom hslot).1, Nat.zero_add]
  region_eq position slot hslot := by
    have hregion := (BarSlot.index_and_region_of_pairFrom hslot).2
    have hlt : position < kind.barCount := by
      rw [← bars_length resources kind]
      exact (List.getElem?_eq_some_iff.mp hslot).1
    rw [List.getElem?_map, List.getElem?_range hlt, Option.map_some,
      Option.some.injEq] at hregion
    exact hregion.symm
  upperHalfOf_iff position slot hslot lower := by
    cases position with
    | zero =>
        rw [BarSlot.upperHalfOf_of_pairFrom_zero hslot]
        constructor
        · intro hnone
          contradiction
        · rintro ⟨hzero, -⟩
          contradiction
    | succ position =>
        obtain ⟨below, hbelow, hhalf⟩ :=
          BarSlot.upperHalfOf_of_pairFrom_succ hslot
        have hindex := (BarSlot.index_and_region_of_pairFrom hbelow).1
        rw [Nat.zero_add] at hindex
        rw [hhalf, BarSlot.lowerHalf?_eq_some_iff, hindex,
          Nat.succ_inj]
        constructor
        · rintro ⟨rfl, hempty, hlower⟩
          exact ⟨rfl, hempty, below, hbelow, hlower⟩
        · rintro ⟨rfl, hempty, same, hsame, hlower⟩
          obtain rfl := Option.some.inj (hbelow.symm.trans hsame)
          exact ⟨rfl, hempty, hlower⟩

theorem HasSlots.claimed_once (hslots : HasSlots resources kind slots)
    {first second lower : Nat} {slot other : BarSlot}
    (hslot : slots[first]? = some slot)
    (hother : slots[second]? = some other)
    (hhalf : slot.upperHalfOf = some lower)
    (hotherHalf : other.upperHalfOf = some lower) : first = second := by
  obtain ⟨hfirst, -⟩ :=
    (hslots.upperHalfOf_iff first slot hslot lower).mp hhalf
  obtain ⟨hsecond, -⟩ :=
    (hslots.upperHalfOf_iff second other hother lower).mp hotherHalf
  omega

theorem HasSlots.not_chained (hslots : HasSlots resources kind slots)
    {position lower : Nat} {slot below : BarSlot}
    (hslot : slots[position]? = some slot)
    (hbelow : slots[lower]? = some below)
    (hhalf : slot.upperHalfOf = some lower) : below.upperHalfOf = none := by
  obtain ⟨-, -, same, hsame, -, -, hnone⟩ :=
    (hslots.upperHalfOf_iff position slot hslot lower).mp hhalf
  obtain rfl := Option.some.inj (hbelow.symm.trans hsame)
  exact hnone

/-- The slots come from the first resources alone. -/
theorem bars_congr {other : List Resource}
    (hsame : other.take kind.barCount = resources.take kind.barCount) :
    bars other kind = bars resources kind := by
  unfold bars
  congr 1
  apply List.map_congr_left
  intro position hposition
  have hlt := List.mem_range.mp hposition
  have hresource : other[position]? = resources[position]? := by
    rw [← List.getElem?_take_of_lt hlt, hsame, List.getElem?_take_of_lt hlt]
  rw [regionAt, regionAt, hresource]

/-- A device has six slots or two, each with the region of its own resource.  An
empty slot is the upper half of the slot below it exactly if that is a 64-bit
memory slot and no upper half; so no slot has two upper halves, and none of them
has one itself. -/
theorem bars_paired (resources : List Resource) (kind : DeviceKind) :
    let slots := bars resources kind
    HasSlots resources kind slots ∧
      (∀ other : List Resource,
        other.take slots.length = resources.take slots.length →
          bars other kind = slots) ∧
      (∀ (first second lower : Nat) (slot other : BarSlot),
        slots[first]? = some slot → slots[second]? = some other →
          slot.upperHalfOf = some lower →
            other.upperHalfOf = some lower → first = second) ∧
      (∀ (position lower : Nat) (slot below : BarSlot),
        slots[position]? = some slot → slots[lower]? = some below →
          slot.upperHalfOf = some lower → below.upperHalfOf = none) ∧
      ∀ resource : Resource, resource.Describes resource.classify := by
  intro slots
  have hslots := hasSlots_bars resources kind
  refine ⟨hslots, ?_, ?_, ?_, describes_classify⟩
  · intro other hsame
    rw [bars_length] at hsame
    exact bars_congr hsame
  · intro first second lower slot other hslot hother hhalf hotherHalf
    exact hslots.claimed_once hslot hother hhalf hotherHalf
  · intro position lower slot below hslot hbelow hhalf
    exact hslots.not_chained hslot hbelow hhalf

/-- All addresses as one 64-bit memory range, behind it an inverted range that is
neither I/O nor memory, and ranges with the flags of both. -/
def wholeMemory : List Resource :=
  [⟨0, 0xffffffffffffffff, 0x102200⟩, ⟨7, 3, 0x100000⟩, ⟨0, 0, 0⟩,
    ⟨0xfff, 0xffffffffffffffff, 0x100300⟩, ⟨0, 0, 0⟩, ⟨1, 1, 0x100200⟩]

theorem bars_paired_wholeMemory :
    bars (wholeMemory ++ [⟨1, 2, 0x200⟩]) .endpoint =
        bars wholeMemory .endpoint ∧
      (bars wholeMemory .endpoint).map BarSlot.upperHalfOf =
        [none, some 0, none, none, none, none] ∧
      ∃ slot below : BarSlot, (bars wholeMemory .endpoint)[1]? = some slot ∧
        (bars wholeMemory .endpoint)[0]? = some below ∧
        slot.index = 1 ∧ slot.region.length = 0 ∧ below.upperHalfOf = none ∧
        below.region.length.toNat = UInt64.size - 1 ∧
        below.region.endExclusive.toNat = UInt64.size - 1 := by
  obtain ⟨hslots, hfirst, -, hchain, hdescribes⟩ :=
    bars_paired wholeMemory .endpoint
  have hinverted := hdescribes ⟨7, 3, 0x100000⟩
  have hwhole := hdescribes ⟨0, 0xffffffffffffffff, 0x102200⟩
  refine ⟨hfirst _ (by decide), by decide +kernel, _, _, rfl, rfl,
    hslots.index_eq 1 _ rfl, ?_, ?_, ?_, ?_⟩
  · exact hinverted.length_eq_zero (by decide)
  · exact hchain 1 0 _ _ rfl rfl (by decide +kernel)
  · exact hwhole.length_eq (by decide) (by decide)
  · exact hwhole.endExclusive_eq (by decide) (by decide)

end Resource

end PciInventory
