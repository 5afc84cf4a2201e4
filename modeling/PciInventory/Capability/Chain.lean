import PciInventory.Capability.Name
import PciInventory.ConfigSpace
import PciInventory.ScanError

/-!
# Capability chains

Capabilities are linked lists inside the configuration space.  The compatible
chain starts at the pointer at `0x34` and ends at a zero pointer; when it holds
a PCI Express capability and the buffer goes on past the conventional space,
the extended chain follows it, from `0x100` on.  The links are plain register
contents, so a walk remembers the offsets it has seen and fails at the first
one it meets again.  An offset never seen before is one of finitely many, hence
every walk ends.
-/

namespace PciInventory

structure Capability where
  kind : CapabilityKind
  id : UInt16
  /-- Zero for compatible capabilities. -/
  version : Nat
  offset : Nat
deriving DecidableEq

namespace Capability

def powerManagementId : UInt16 := 0x01
def msiId : UInt16 := 0x05
def subsystemVendorId : UInt16 := 0x0d
def expressId : UInt16 := 0x10
def msixId : UInt16 := 0x11

def extendedBase : Nat := 0x100

def name? (capability : Capability) : Option String :=
  capability.kind.name? capability.id.toNat

/-- The offsets below `limit` that are not in `seen`. -/
def unseen (limit : Nat) (seen : List Nat) : Nat :=
  ((List.range limit).filter fun offset => !seen.contains offset).length

theorem unseen_cons_lt {limit offset : Nat} {seen : List Nat}
    (hlimit : offset < limit) (hseen : offset ∉ seen) :
    unseen limit (offset :: seen) < unseen limit seen := by
  unfold unseen
  have hsub :
      (List.range limit).filter
          (fun candidate => !(offset :: seen).contains candidate) =
        ((List.range limit).filter
          fun candidate => !seen.contains candidate).filter
            fun candidate => candidate != offset := by
    rw [List.filter_filter]
    apply List.filter_congr
    intro candidate _
    by_cases h : candidate = offset <;> simp [h, bne]
  rw [hsub]
  apply List.length_filter_lt_length_iff_exists.mpr
  exact ⟨offset, by simp [hlimit, hseen], by simp⟩

/-- The compatible chain from `offset` on, `seen` being the offsets before. -/
def compatibleFrom (address : Address) (config : ConfigSpace)
    (seen : List Nat) (offset : UInt8) :
    Except ScanError (List Capability) :=
  if offset = 0 then
    .ok []
  else if _ : offset.toNat ∈ seen then
    .error (.capabilityLoop address offset.toNat)
  else
    match config.read8? offset.toNat, config.read8? (offset.toNat + 1) with
    | some id, some next => do
        let rest ← compatibleFrom address config (offset.toNat :: seen)
          (next &&& 0xfc)
        return ⟨.compatible, id.toUInt16, 0, offset.toNat⟩ :: rest
    | _, _ =>
        .error (.malformed "capability chain"
          (address.text ++ ": capability at " ++
            Numeral.markedHex 4 offset.toNat ++ " outside config space"))
termination_by unseen 256 seen
decreasing_by exact unseen_cons_lt offset.toNat_lt (by assumption)

def compatible (address : Address) (config : ConfigSpace) :
    Except ScanError (List Capability) :=
  compatibleFrom address config [] (config.capabilityPointer?.getD 0)

/-- The extended chain from `offset` on, `seen` being the offsets before. -/
def extendedFrom (address : Address) (config : ConfigSpace)
    (seen : List Nat) (offset : Nat) :
    Except ScanError (List Capability) :=
  if _ : offset ∈ seen then
    .error (.capabilityLoop address offset)
  else
    match _ : config.read32? offset with
    | none =>
        .error (.malformed "capability chain"
          (address.text ++ ": extended capability at " ++
            Numeral.markedHex 5 offset ++ " outside config space"))
    | some header =>
        let id := header.toNat % 0x10000
        let next := header.toNat / 0x400000 * 4
        let here : Capability :=
          ⟨.extended, UInt16.ofNat id, header.toNat / 0x10000 % 16, offset⟩
        if id = 0 ∨ header = 0xffffffff then
          .ok []
        else if next = 0 then
          .ok [here]
        else if next < extendedBase then
          .error (.malformed "capability chain"
            (address.text ++ ": extended capability at " ++
              Numeral.markedHex 5 offset ++ " points back to " ++
              Numeral.markedHex 4 next))
        else do
          let rest ← extendedFrom address config (offset :: seen) next
          return here :: rest
termination_by unseen config.length seen
decreasing_by
  exact unseen_cons_lt (ConfigSpace.lt_length_of_read32? (by assumption))
    (by assumption)

def all (address : Address) (config : ConfigSpace) :
    Except ScanError (List Capability) := do
  if config.hasCapabilityList then
    let first ← compatible address config
    if first.any (fun capability => capability.id = expressId) &&
        config.isExtended then
      let second ← extendedFrom address config [] extendedBase
      return first ++ second
    else
      return first
  else
    return []

end Capability

end PciInventory
