import Mathlib.Data.List.Perm.Subperm
import PciInventory.Proofs.Capability.Listing

/-!
# Bounds of the chains

A pointer has its two low bits masked out, so the offsets of a chain are slots of
four bytes in the region of the chain.  A walk goes on only to new offsets; it
has listed no more capabilities than there are slots when it ends.  The last
slots still have room for a header in a space of standard size.
-/

namespace PciInventory.Capability

/-! ## Slots -/

section

variable {offset : Nat → Nat} {index : Nat} {node : Nat → Capability}

theorem nodup_of_fresh (hfresh : ∀ k < index, ¬Repeats offset k) :
    ((List.range index).map offset).Nodup := by
  rw [List.Nodup, List.pairwise_map]
  apply List.Pairwise.imp_of_mem _ List.pairwise_lt_range
  intro earlier later _ hlater hlt heq
  exact hfresh later (List.mem_range.mp hlater) ⟨earlier, hlt, heq⟩

/-- There are no more new offsets than slots. -/
theorem index_le_of_slots {first count : Nat}
    (hfresh : ∀ k < index, ¬Repeats offset k)
    (hslot : ∀ k < index, ∃ slot < count, offset k = first + 4 * slot) :
    index ≤ count := by
  have hsubset : (List.range index).map offset ⊆
      (List.range count).map fun slot => first + 4 * slot := by
    intro value hvalue
    obtain ⟨k, hk, rfl⟩ := List.mem_map.mp hvalue
    obtain ⟨slot, hslot, heq⟩ := hslot k (List.mem_range.mp hk)
    exact List.mem_map.mpr ⟨slot, List.mem_range.mpr hslot, heq.symm⟩
  have hlength :=
    ((nodup_of_fresh hfresh).subperm hsubset).length_le
  simpa using hlength

/-- A capability of one kind in one region, aligned and with all `width` bytes
of its header inside the space. -/
structure Placed (config : ConfigSpace) (kind : CapabilityKind)
    (first last width : Nat) (capability : Capability) : Prop where
  kind_eq : capability.kind = kind
  first_le : first ≤ capability.offset
  le_last : capability.offset ≤ last
  aligned : 4 ∣ capability.offset
  inside : capability.offset + width ≤ config.length

/-- Nodes at new offsets in the slots of one region. -/
theorem listed_bounded {config : ConfigSpace} {kind : CapabilityKind}
    {first last width count : Nat}
    (hnode : ∀ place, (node place).offset = place)
    (hfresh : ∀ k < index, ¬Repeats offset k)
    (hslot : ∀ k < index, ∃ slot < count, offset k = first + 4 * slot)
    (hplaced : ∀ k < index,
      Placed config kind first last width (node (offset k))) :
    (listed offset node index).length ≤ count ∧
      (∀ capability ∈ listed offset node index,
        Placed config kind first last width capability) ∧
      ((listed offset node index).map Capability.offset).Nodup := by
  have hlength : (listed offset node index).length = index := by
    simp [listed]
  have hoffsets : (listed offset node index).map Capability.offset =
      (List.range index).map offset := by
    simp [listed, hnode]
  refine ⟨?_, ?_, ?_⟩
  · rw [hlength]
    exact index_le_of_slots hfresh hslot
  · intro capability hmem
    obtain ⟨k, hk, rfl⟩ : ∃ k < index, node (offset k) = capability := by
      simpa [listed] using hmem
    exact hplaced k hk
  · rw [hoffsets]
    exact nodup_of_fresh hfresh

end

/-! ## The compatible chain -/

theorem exists_slot_of_pointer (pointer : UInt8) :
    ∃ slot < 64, (pointer &&& 0xfc).toNat = 4 * slot := by
  have hmask := and_fieldMask pointer.toNat 6 2
  refine ⟨pointer.toNat / 4 % 64, Nat.mod_lt _ (by decide), ?_⟩
  rw [UInt8.toNat_and, Nat.mul_comm]
  exact hmask

theorem exists_slot_of_compatibleOffset (config : ConfigSpace)
    (index : Nat) : ∃ slot < 64, compatibleOffset config index = 4 * slot := by
  cases index with
  | zero => exact exists_slot_of_pointer _
  | succ index => exact exists_slot_of_pointer _

theorem exists_slot_of_compatiblePasses {config : ConfigSpace}
    {index : Nat}
    (hpasses : CompatiblePasses config (compatibleOffset config index)) :
    ∃ slot < 63, compatibleOffset config index = 4 + 4 * slot := by
  obtain ⟨slot, hslot, heq⟩ :=
    exists_slot_of_compatibleOffset config index
  have hne := hpasses.1
  exact ⟨slot - 1, by omega, by omega⟩

theorem compatible_index_le {config : ConfigSpace} {index : Nat}
    (hfollows :
      Follows (compatibleOffset config) (CompatiblePasses config) index) :
    index ≤ 63 :=
  index_le_of_slots hfollows.fresh fun k hk =>
    exists_slot_of_compatiblePasses (hfollows.passes k hk)

theorem compatible_placed {config : ConfigSpace} {index : Nat}
    (hpasses : CompatiblePasses config (compatibleOffset config index)) :
    Placed config .compatible 4 0xfc 2
      (compatibleNode config (compatibleOffset config index)) := by
  obtain ⟨slot, hslot, heq⟩ := exists_slot_of_compatiblePasses hpasses
  have hlength := hpasses.2
  constructor
  · rfl
  · change 4 ≤ compatibleOffset config index
    omega
  · change compatibleOffset config index ≤ 0xfc
    omega
  · change 4 ∣ compatibleOffset config index
    omega
  · exact hlength

theorem CompatibleChain.exists_listed {address : Address}
    {config : ConfigSpace} {found : List Capability}
    (hchain : CompatibleChain address config (.ok found)) :
    ∃ index,
      Follows (compatibleOffset config) (CompatiblePasses config) index ∧
      found =
        listed (compatibleOffset config) (compatibleNode config) index := by
  obtain ⟨index, hfollows, hstop⟩ := hchain
  cases hstop with
  | ended => exact ⟨index, hfollows, rfl⟩

theorem CompatibleChain.bounded {address : Address} {config : ConfigSpace}
    {found : List Capability}
    (hchain : CompatibleChain address config (.ok found)) :
    found.length ≤ 63 ∧
      (∀ capability ∈ found,
        Placed config .compatible 4 0xfc 2 capability) ∧
      (found.map Capability.offset).Nodup := by
  obtain ⟨index, hfollows, rfl⟩ := hchain.exists_listed
  exact listed_bounded (fun _ => rfl) hfollows.fresh
    (fun k hk => exists_slot_of_compatiblePasses (hfollows.passes k hk))
    (fun k hk => compatible_placed (hfollows.passes k hk))

/-! ## The extended chain -/

theorem read32?_eq_none_iff {config : ConfigSpace} {offset : Nat} :
    config.read32? offset = none ↔ config.length < offset + 4 := by
  simp only [ConfigSpace.read32?, Bytes.number?, Bytes.slice?,
    ConfigSpace.length, Option.map_eq_none_iff, List.length_take,
    List.length_drop]
  split
  next hlength =>
    simp only [reduceCtorEq, false_iff]
    omega
  next hlength =>
    simp only [true_iff]
    omega

theorem exists_slot_of_extendedOffset (config : ConfigSpace)
    (index : Nat) :
    ∃ slot < 1024, extendedOffset config index = 4 * slot := by
  cases index with
  | zero => exact ⟨64, by decide, rfl⟩
  | succ index =>
      have hlt := (headerAt config (extendedOffset config index)).toNat_lt
      refine ⟨(headerAt config (extendedOffset config index)).toNat /
        0x400000, ?_, ?_⟩
      · omega
      · rw [extendedOffset, headerNext_toNat, Nat.mul_comm]

theorem le_extendedOffset {config : ConfigSpace} {index : Nat}
    (hfollows :
      Follows (extendedOffset config) (ExtendedPasses config) index) :
    0x100 ≤ extendedOffset config index := by
  cases index with
  | zero => exact Nat.le_refl _
  | succ index =>
      obtain ⟨header, hread, _, hforward⟩ :=
        hfollows.passes index (Nat.lt_succ_self index)
      rw [extendedOffset, headerAt, hread, Option.getD_some]
      exact UInt32.le_iff_toNat_le.mp hforward

theorem exists_slot_of_extendedFollows {config : ConfigSpace}
    {index : Nat}
    (hfollows :
      Follows (extendedOffset config) (ExtendedPasses config) index) :
    ∃ slot < 960, extendedOffset config index = 0x100 + 4 * slot := by
  obtain ⟨slot, hslot, heq⟩ := exists_slot_of_extendedOffset config index
  have hle := le_extendedOffset hfollows
  exact ⟨slot - 64, by omega, by omega⟩

theorem extended_index_le {config : ConfigSpace} {index : Nat}
    (hfollows :
      Follows (extendedOffset config) (ExtendedPasses config) index) :
    index ≤ 960 :=
  index_le_of_slots hfollows.fresh fun _ hk =>
    exists_slot_of_extendedFollows (hfollows.mono (Nat.le_of_lt hk))

theorem extended_placed {config : ConfigSpace} {index : Nat}
    (hfollows :
      Follows (extendedOffset config) (ExtendedPasses config) index)
    (hread : config.read32? (extendedOffset config index) ≠ none) :
    Placed config .extended 0x100 0xffc 4
      (extendedNode config (extendedOffset config index)) := by
  obtain ⟨slot, hslot, heq⟩ := exists_slot_of_extendedFollows hfollows
  rw [ne_eq, read32?_eq_none_iff, Nat.not_lt] at hread
  constructor
  · rfl
  · exact le_extendedOffset hfollows
  · change extendedOffset config index ≤ 0xffc
    omega
  · change 4 ∣ extendedOffset config index
    omega
  · exact hread

/-- The nodes listed are all new and can be read. -/
theorem ExtendedChain.exists_listed {address : Address}
    {config : ConfigSpace} {found : List Capability}
    (hchain : ExtendedChain address config (.ok found)) :
    ∃ count,
      found =
        listed (extendedOffset config) (extendedNode config) count ∧
      ∀ k < count,
        Follows (extendedOffset config) (ExtendedPasses config) k ∧
        ¬Repeats (extendedOffset config) k ∧
        config.read32? (extendedOffset config k) ≠ none := by
  obtain ⟨index, hfollows, hstop⟩ := hchain
  have hpassed : ∀ k < index,
      Follows (extendedOffset config) (ExtendedPasses config) k ∧
      ¬Repeats (extendedOffset config) k ∧
      config.read32? (extendedOffset config k) ≠ none := by
    intro k hk
    obtain ⟨header, hread, _⟩ := hfollows.passes k hk
    exact ⟨hfollows.mono (Nat.le_of_lt hk), hfollows.fresh k hk,
      by simp [hread]⟩
  cases hstop with
  | terminated => exact ⟨index, rfl, hpassed⟩
  | last hnew hread =>
      refine ⟨index + 1, rfl, ?_⟩
      intro k hk
      rcases Nat.lt_succ_iff_lt_or_eq.mp hk with hlt | rfl
      · exact hpassed k hlt
      · exact ⟨hfollows, hnew, by simp [hread]⟩

theorem ExtendedChain.bounded {address : Address} {config : ConfigSpace}
    {found : List Capability}
    (hchain : ExtendedChain address config (.ok found)) :
    found.length ≤ 960 ∧
      (∀ capability ∈ found,
        Placed config .extended 0x100 0xffc 4 capability) ∧
      (found.map Capability.offset).Nodup := by
  obtain ⟨count, rfl, hnodes⟩ := hchain.exists_listed
  exact listed_bounded (fun _ => rfl) (fun k hk => (hnodes k hk).2.1)
    (fun k hk => exists_slot_of_extendedFollows (hnodes k hk).1)
    (fun k hk => extended_placed (hnodes k hk).1 (hnodes k hk).2.2)

/-! ## Faults in spaces of standard size -/

/-- A fault of the chain itself: it comes back to an offset, or an extended
pointer leads out of its region. -/
inductive ChainFault (address : Address) (config : ConfigSpace) :
    ScanError → Prop
  | loop (offset : Nat) :
      ChainFault address config (.capabilityLoop address offset)
  | pointsBack {offset : Nat} {header : UInt32}
      (hread : config.read32? offset = some header)
      (hpos : headerNext header ≠ 0) (hback : headerNext header < 0x100) :
      ChainFault address config
        (.malformed "capability chain"
          (address.text ++ ": extended capability at " ++
            Numeral.markedHex 5 offset ++ " points back to " ++
            Numeral.markedHex 4 (headerNext header).toNat))

theorem CompatibleChain.chainFault {address : Address}
    {config : ConfigSpace} {error : ScanError}
    (hchain : CompatibleChain address config (.error error))
    (hlength : 256 ≤ config.length) : ChainFault address config error := by
  obtain ⟨index, _, hstop⟩ := hchain
  cases hstop with
  | repeated => exact .loop _
  | outside _ _ houtside =>
      obtain ⟨slot, hslot, heq⟩ :=
        exists_slot_of_compatibleOffset config index
      omega

theorem ExtendedChain.chainFault {address : Address}
    {config : ConfigSpace} {error : ScanError}
    (hchain : ExtendedChain address config (.error error))
    (hlength : 4096 ≤ config.length) : ChainFault address config error := by
  obtain ⟨index, _, hstop⟩ := hchain
  cases hstop with
  | repeated => exact .loop _
  | outside _ hread =>
      obtain ⟨slot, hslot, heq⟩ :=
        exists_slot_of_extendedOffset config index
      rw [read32?_eq_none_iff] at hread
      omega
  | pointsBack _ hread _ hpos hback =>
      exact .pointsBack hread hpos hback

end PciInventory.Capability
