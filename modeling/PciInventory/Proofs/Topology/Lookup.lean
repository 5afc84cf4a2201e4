import PciInventory.Proofs.Topology.Buses

/-!
# Finding a device by its address

The search halves a window of positions and never stops early.  In a list of
ascending ranks each step keeps an occurrence of the wanted rank in the window,
so the one position that is left holds the rank if any position does.
-/

namespace PciInventory

theorem Address.eq_of_rank_eq {first second : Address}
    (hrank : first.rank = second.rank) : first = second := by
  have hfirstBus : first.bus.toNat < 256 := first.bus.toNat_lt
  have hfirstDevice : first.device.toNat < 256 := first.device.toNat_lt
  have hfirstFunction : first.function.toNat < 256 := first.function.toNat_lt
  have hsecondBus : second.bus.toNat < 256 := second.bus.toNat_lt
  have hsecondDevice : second.device.toNat < 256 := second.device.toNat_lt
  have hsecondFunction : second.function.toNat < 256 :=
    second.function.toNat_lt
  unfold rank at hrank
  have hdomain : first.domain = second.domain := by
    apply UInt16.toNat_inj.mp
    omega
  have hbus : first.bus = second.bus := by
    apply UInt8.toNat_inj.mp
    omega
  have hdevice : first.device = second.device := by
    apply UInt8.toNat_inj.mp
    omega
  have hfunction : first.function = second.function := by
    apply UInt8.toNat_inj.mp
    omega
  cases first
  cases second
  simp_all

namespace Topology

theorem le_of_getElem? {ranks : List Nat} (hsorted : ranks.Pairwise (· ≤ ·))
    {first second lower upper : Nat} (hlt : first < second)
    (hlower : ranks[first]? = some lower)
    (hupper : ranks[second]? = some upper) : lower ≤ upper := by
  obtain ⟨hfirst, rfl⟩ := List.getElem?_eq_some_iff.mp hlower
  obtain ⟨hsecond, rfl⟩ := List.getElem?_eq_some_iff.mp hupper
  exact List.pairwise_iff_getElem.mp hsorted first second hfirst hsecond hlt

/-- Whether the rank occurs among the `size` positions from `base` on. -/
def OccursFrom (ranks : List Nat) (rank base size : Nat) : Prop :=
  ∃ position, base ≤ position ∧ position < base + size ∧
    ranks[position]? = some rank

/-- The lower part of a window, behind which everything is above the rank. -/
theorem OccursFrom.lower {ranks : List Nat} {rank base size half other : Nat}
    (hoccurs : OccursFrom ranks rank base size)
    (hsorted : ranks.Pairwise (· ≤ ·)) (hhalf : 2 * half ≤ size)
    (hother : ranks[base + half]? = some other) (hlt : rank < other) :
    OccursFrom ranks rank base (size - half) := by
  obtain ⟨position, hfrom, hto, hrank⟩ := hoccurs
  have hbelow : position < base + half := by
    rcases Nat.lt_or_ge position (base + half) with hbelow | habove
    · exact hbelow
    · rcases Nat.lt_or_eq_of_le habove with hafter | rfl
      · have hle := le_of_getElem? hsorted hafter hother hrank
        omega
      · rw [hother, Option.some.injEq] at hrank
        omega
  exact ⟨position, hfrom, by omega, hrank⟩

/-- The upper part of a window, at whose start nothing is above the rank yet. -/
theorem OccursFrom.upper {ranks : List Nat} {rank base size half other : Nat}
    (hoccurs : OccursFrom ranks rank base size)
    (hsorted : ranks.Pairwise (· ≤ ·)) (hhalf : half < size)
    (hother : ranks[base + half]? = some other) (hle : other ≤ rank) :
    OccursFrom ranks rank (base + half) (size - half) := by
  obtain ⟨position, hfrom, hto, hrank⟩ := hoccurs
  rcases Nat.lt_or_ge position (base + half) with hbelow | habove
  · have hge := le_of_getElem? hsorted hbelow hrank hother
    have heq : other = rank := Nat.le_antisymm hle hge
    exact ⟨base + half, Nat.le_refl _, by omega, heq ▸ hother⟩
  · exact ⟨position, habove, by omega, hrank⟩

theorem getElem?_lastNotAbove {ranks : List Nat} {rank base size : Nat}
    (hsorted : ranks.Pairwise (· ≤ ·))
    (hbound : base + size ≤ ranks.length)
    (hoccurs : OccursFrom ranks rank base size) :
    ranks[lastNotAbove ranks rank base size]? = some rank := by
  induction size using Nat.strongRecOn generalizing base with
  | ind size ih =>
      match size with
      | 0 =>
          obtain ⟨position, hfrom, hto, _⟩ := hoccurs
          omega
      | 1 =>
          obtain ⟨position, hfrom, hto, hrank⟩ := hoccurs
          have hposition : position = base := by omega
          rw [lastNotAbove]
          exact hposition ▸ hrank
      | size + 2 =>
          obtain ⟨half, hhalf⟩ : ∃ half, (size + 2) / 2 = half := ⟨_, rfl⟩
          have hmiddle : base + half < ranks.length := by omega
          have hother := List.getElem?_eq_getElem hmiddle
          rw [lastNotAbove]
          simp only [hhalf, hother]
          have hlower : base + (size + 2 - half) ≤ ranks.length := by omega
          have hupper : base + half + (size + 2 - half) ≤ ranks.length := by
            omega
          split
          next hlt =>
            exact ih _ (by omega) hlower
              (hoccurs.lower hsorted (by omega) hother hlt)
          next hnot =>
            exact ih _ (by omega) hupper
              (hoccurs.upper hsorted (by omega) hother (Nat.not_lt.mp hnot))

/-! ## Look-up by address -/

theorem mem_of_device? {topology : Topology} {address : Address}
    {device : Device} (hfound : topology.device? address = some device) :
    device ∈ topology.devices ∧ device.address = address := by
  unfold device? at hfound
  simp only at hfound
  split at hfound
  next other hother =>
    split at hfound
    next haddress =>
      cases hfound
      exact ⟨List.mem_of_getElem? hother, haddress⟩
    next => contradiction
  next => contradiction

theorem exists_device? {topology : Topology} {device : Device}
    (hdevices : topology.devices.Pairwise fun first second =>
      first.address.rank ≤ second.address.rank)
    (hdevice : device ∈ topology.devices) :
    ∃ found, topology.device? device.address = some found := by
  let ranks := topology.devices.map fun device => device.address.rank
  have hsorted : ranks.Pairwise (· ≤ ·) := List.pairwise_map.mpr hdevices
  obtain ⟨position, hposition⟩ := List.mem_iff_getElem?.mp hdevice
  have hrank : ranks[position]? = some device.address.rank := by
    rw [List.getElem?_map, hposition]
    rfl
  have hlength : position < ranks.length :=
    (List.getElem?_eq_some_iff.mp hrank).1
  have hoccurs : OccursFrom ranks device.address.rank 0 ranks.length :=
    ⟨position, Nat.zero_le _, by omega, hrank⟩
  have hfound := getElem?_lastNotAbove hsorted
    (Nat.le_of_eq (Nat.zero_add _)) hoccurs
  rw [List.getElem?_map, Option.map_eq_some_iff] at hfound
  obtain ⟨found, hfound, hsame⟩ := hfound
  have haddress : found.address = device.address :=
    Address.eq_of_rank_eq hsame
  refine ⟨found, ?_⟩
  unfold device?
  simp only
  rw [hfound]
  simp only [haddress, if_true]

/-- A device is found at an address if and only if there is one. -/
theorem isSome_device?_iff {topology : Topology}
    (hdevices : topology.devices.Pairwise fun first second =>
      first.address.rank ≤ second.address.rank) (address : Address) :
    (topology.device? address).isSome ↔
      ∃ device ∈ topology.devices, device.address = address := by
  rw [Option.isSome_iff_exists]
  constructor
  · intro hfound
    obtain ⟨device, hdevice⟩ := hfound
    exact ⟨device, mem_of_device? hdevice⟩
  · intro hexists
    rcases hexists with ⟨device, hdevice, rfl⟩
    exact exists_device? hdevices hdevice

end Topology

end PciInventory
