import PciInventory.Proofs.Capability.Chain

/-!
# The capabilities of a function

The status register says whether there is a capability list at all.  The
extended chain follows the compatible one only behind a PCI Express capability
and in a buffer that goes on past the conventional space; an error in either
chain is the error of the whole listing.
-/

namespace PciInventory.Capability

/-- Whether the extended chain is looked at, after the capabilities `first`. -/
def LeadsToExtended (config : ConfigSpace) (first : List Capability) : Prop :=
  (∃ capability ∈ first, capability.id = 0x10) ∧ 256 < config.length

/-- What the two chains give together. -/
inductive Listing (address : Address) (config : ConfigSpace) :
    Except ScanError (List Capability) → Prop
  | noList (hbit : ¬HasListBit config) :
      Listing address config (.ok [])
  | compatibleFault (hbit : HasListBit config) {error : ScanError}
      (hfirst : CompatibleChain address config (.error error)) :
      Listing address config (.error error)
  | conventional (hbit : HasListBit config) {first : List Capability}
      (hfirst : CompatibleChain address config (.ok first))
      (hends : ¬LeadsToExtended config first) :
      Listing address config (.ok first)
  | extendedFault (hbit : HasListBit config) {first : List Capability}
      {error : ScanError}
      (hfirst : CompatibleChain address config (.ok first))
      (hleads : LeadsToExtended config first)
      (hsecond : ExtendedChain address config (.error error)) :
      Listing address config (.error error)
  | extended (hbit : HasListBit config) {first second : List Capability}
      (hfirst : CompatibleChain address config (.ok first))
      (hleads : LeadsToExtended config first)
      (hsecond : ExtendedChain address config (.ok second)) :
      Listing address config (.ok (first ++ second))

theorem leadsToExtended_iff {config : ConfigSpace}
    {first : List Capability} :
    (first.any (fun capability => capability.id = expressId) &&
        config.isExtended) = true ↔
      LeadsToExtended config first := by
  rw [Bool.and_eq_true, List.any_eq_true]
  simp only [decide_eq_true_eq, ConfigSpace.isExtended]
  rfl

theorem listing_all (address : Address) (config : ConfigSpace) :
    Listing address config (all address config) := by
  unfold all
  split
  next hlist =>
    have hbit := hasCapabilityList_iff.mp hlist
    have hchain := compatible_chain address config
    cases hfirst : compatible address config with
    | error error =>
        rw [hfirst] at hchain
        exact .compatibleFault hbit hchain
    | ok first =>
        rw [hfirst] at hchain
        simp only [bind, Except.bind]
        split
        next hextended =>
          have hleads := leadsToExtended_iff.mp hextended
          have hextendedChain := extended_chain address config
          cases hsecond : extendedFrom address config [] extendedBase with
          | error error =>
              rw [hsecond] at hextendedChain
              exact .extendedFault hbit hchain hleads hextendedChain
          | ok second =>
              rw [hsecond] at hextendedChain
              exact .extended hbit hchain hleads hextendedChain
        next hconventional =>
          have hends := (not_congr leadsToExtended_iff).mp hconventional
          exact .conventional hbit hchain hends
  next hnone =>
    exact .noList ((not_congr hasCapabilityList_iff).mp hnone)

theorem all_of_listing {address : Address} {config : ConfigSpace}
    {result : Except ScanError (List Capability)}
    (hlisting : Listing address config result) :
    all address config = result := by
  have hcompatible := compatible_chain address config
  have hextended := extended_chain address config
  unfold all
  cases hlisting with
  | noList hbit =>
      rw [if_neg ((not_congr hasCapabilityList_iff).mpr hbit)]
      rfl
  | compatibleFault hbit hfirst =>
      rw [if_pos (hasCapabilityList_iff.mpr hbit),
        hcompatible.result_eq hfirst]
      rfl
  | conventional hbit hfirst hends =>
      have hconventional := (not_congr leadsToExtended_iff).mpr hends
      rw [if_pos (hasCapabilityList_iff.mpr hbit),
        hcompatible.result_eq hfirst]
      simp only [bind, Except.bind]
      rw [if_neg hconventional]
      rfl
  | extendedFault hbit hfirst hleads hsecond =>
      rw [if_pos (hasCapabilityList_iff.mpr hbit),
        hcompatible.result_eq hfirst]
      simp only [bind, Except.bind]
      rw [if_pos (leadsToExtended_iff.mpr hleads),
        hextended.result_eq hsecond]
  | extended hbit hfirst hleads hsecond =>
      rw [if_pos (hasCapabilityList_iff.mpr hbit),
        hcompatible.result_eq hfirst]
      simp only [bind, Except.bind]
      rw [if_pos (leadsToExtended_iff.mpr hleads),
        hextended.result_eq hsecond]
      rfl

/-- The walk gives exactly what the two chains give. -/
theorem all_eq_iff_listing (address : Address) (config : ConfigSpace)
    (result : Except ScanError (List Capability)) :
    all address config = result ↔ Listing address config result := by
  constructor
  · intro hall
    rw [← hall]
    exact listing_all address config
  · exact all_of_listing

end PciInventory.Capability
