import PciInventory.Proofs.Capability.Bounds

/-!
# Walks with tables of marks

A walk is done once more as a loop over a state: a table with a mark for each
offset that has been visited, the offset it has come to and what it has listed.
The tables have a fixed size and the loops have no counter.  The loops end within
fixed numbers of steps all the same, no offset is outside its table, and the
result is that of the walk with a list of offsets.
-/

namespace PciInventory.Capability

structure WalkState where
  marks : List Bool
  offset : Nat
  found : List Capability

/-- How a loop ends.  An offset outside the table is no error that could be
reported. -/
inductive Ending where
  | outsideTable
  | result (result : Except ScanError (List Capability))

inductive Progress where
  | continued (state : WalkState)
  | ended (ending : Ending)

def compatibleStep (address : Address) (config : ConfigSpace)
    (state : WalkState) : Progress :=
  if state.offset = 0 then
    .ended (.result (.ok state.found))
  else
    match state.marks[state.offset]? with
    | none => .ended .outsideTable
    | some true =>
        .ended (.result (.error (.capabilityLoop address state.offset)))
    | some false =>
        match config.read8? state.offset,
            config.read8? (state.offset + 1) with
        | some id, some next =>
            .continued
              { marks := state.marks.set state.offset true
                offset := (next &&& 0xfc).toNat
                found := state.found ++
                  [⟨.compatible, id.toUInt16, 0, state.offset⟩] }
        | _, _ =>
            .ended (.result (.error (.malformed "capability chain"
              (address.text ++ ": capability at " ++
                Numeral.markedHex 4 state.offset ++
                " outside config space"))))

def extendedStep (address : Address) (config : ConfigSpace)
    (state : WalkState) : Progress :=
  match state.marks[state.offset]? with
  | none => .ended .outsideTable
  | some true =>
      .ended (.result (.error (.capabilityLoop address state.offset)))
  | some false =>
      match config.read32? state.offset with
      | none =>
          .ended (.result (.error (.malformed "capability chain"
            (address.text ++ ": extended capability at " ++
              Numeral.markedHex 5 state.offset ++
              " outside config space"))))
      | some header =>
          let found := state.found ++
            [⟨.extended, (headerId header).toUInt16,
              (headerVersion header).toNat, state.offset⟩]
          if IsTerminator header then
            .ended (.result (.ok state.found))
          else if headerNext header = 0 then
            .ended (.result (.ok found))
          else if headerNext header < 0x100 then
            .ended (.result (.error (.malformed "capability chain"
              (address.text ++ ": extended capability at " ++
                Numeral.markedHex 5 state.offset ++ " points back to " ++
                Numeral.markedHex 4 (headerNext header).toNat))))
          else
            .continued
              { marks := state.marks.set state.offset true
                offset := (headerNext header).toNat
                found }

/-- The ending of a loop, if it comes within `limit` steps. -/
def loop (step : WalkState → Progress) :
    (limit : Nat) → WalkState → Option Ending
  | 0, _ => none
  | limit + 1, state =>
      match step state with
      | .continued next => loop step limit next
      | .ended ending => some ending

def compatibleLimit : Nat := 64
def extendedLimit : Nat := 961

/-- Both walks behind one another, over tables that start without marks. -/
def allWithTables (address : Address) (config : ConfigSpace) :
    Option Ending :=
  if config.hasCapabilityList then
    match loop (compatibleStep address config) compatibleLimit
        { marks := List.replicate 256 false
          offset := (config.capabilityPointer?.getD 0).toNat
          found := [] } with
    | some (.result (.ok first)) =>
        if first.any (fun capability => capability.id = expressId) &&
            config.isExtended then
          loop (extendedStep address config) extendedLimit
            { marks := List.replicate (max 4096 config.length) false
              offset := extendedBase
              found := first }
        else
          some (.result (.ok first))
    | ending => ending
  else
    some (.result (.ok []))

/-! ## The states of a walk -/

section

variable {offset : Nat → Nat} {passes : Nat → Prop} {index : Nat}
variable {node : Nat → Capability} {size : Nat}

/-- The marks after the offsets before `index`. -/
def marksBefore (size : Nat) (offset : Nat → Nat) : Nat → List Bool
  | 0 => List.replicate size false
  | index + 1 => (marksBefore size offset index).set (offset index) true

theorem marksBefore_length :
    (marksBefore size offset index).length = size := by
  induction index with
  | zero => exact List.length_replicate
  | succ index ih => rw [marksBefore, List.length_set, ih]

theorem marked_iff {place : Nat} (hplace : place < size) :
    (marksBefore size offset index)[place]? = some true ↔
      ∃ k < index, offset k = place := by
  induction index with
  | zero => simp [marksBefore, hplace]
  | succ index ih =>
      rw [marksBefore, List.getElem?_set, marksBefore_length]
      by_cases hhere : offset index = place
      · rw [if_pos hhere, if_pos (hhere ▸ hplace)]
        exact iff_of_true rfl ⟨index, Nat.lt_succ_self index, hhere⟩
      · rw [if_neg hhere, ih]
        constructor
        · rintro ⟨k, hk, heq⟩
          exact ⟨k, Nat.lt_succ_of_lt hk, heq⟩
        · rintro ⟨k, hk, heq⟩
          rcases Nat.lt_succ_iff_lt_or_eq.mp hk with hlt | rfl
          · exact ⟨k, hlt, heq⟩
          · exact (hhere heq).elim

theorem mark_of_repeats (hsize : offset index < size)
    (hrepeats : Repeats offset index) :
    (marksBefore size offset index)[offset index]? = some true :=
  (marked_iff hsize).mpr hrepeats

theorem mark_of_new (hsize : offset index < size)
    (hnew : ¬Repeats offset index) :
    (marksBefore size offset index)[offset index]? = some false := by
  have hinside : offset index < (marksBefore size offset index).length := by
    rw [marksBefore_length]
    exact hsize
  have hmark := (not_congr (marked_iff hsize)).mpr hnew
  rw [List.getElem?_eq_getElem hinside] at hmark ⊢
  simpa using hmark

/-- The state at `index`, behind the capabilities `front`. -/
def stateAt (size : Nat) (front : List Capability) (offset : Nat → Nat)
    (node : Nat → Capability) (index : Nat) : WalkState :=
  { marks := marksBefore size offset index
    offset := offset index
    found := front ++ listed offset node index }

/-! ## Loops along a sequence -/

variable {step : WalkState → Progress} {state : Nat → WalkState}

theorem loop_of_follows
    (hstep : ∀ k, passes (offset k) → ¬Repeats offset k →
      step (state k) = .continued (state (k + 1)))
    (hfollows : Follows offset passes index) (more : Nat) :
    loop step (index + more) (state 0) = loop step more (state index) := by
  -- The steps up to `index` leave one more for the step that is added here.
  induction index generalizing more with
  | zero => rw [Nat.zero_add]
  | succ index ih =>
      have hlast := Nat.lt_succ_self index
      have hpassed := hstep index (hfollows.passes index hlast)
        (hfollows.fresh index hlast)
      rw [Nat.add_right_comm, Nat.add_assoc,
        ih (hfollows.mono (Nat.le_succ index)), loop, hpassed]

/-- A loop that ends at `index` needs one step more than that. -/
theorem loop_eq_some
    (hstep : ∀ k, passes (offset k) → ¬Repeats offset k →
      step (state k) = .continued (state (k + 1)))
    (hfollows : Follows offset passes index) {ending : Ending}
    (hended : step (state index) = .ended ending) {limit : Nat}
    (hlimit : index < limit) :
    loop step limit (state 0) = some ending := by
  obtain ⟨more, rfl⟩ := Nat.exists_eq_add_of_lt hlimit
  rw [Nat.add_assoc, loop_of_follows hstep hfollows, loop, hended]

end

/-! ## The compatible loop -/

section

variable {address : Address} {config : ConfigSpace} {index : Nat}

def compatibleState (config : ConfigSpace) (index : Nat) : WalkState :=
  stateAt 256 [] (compatibleOffset config) (compatibleNode config) index

theorem compatibleOffset_lt (config : ConfigSpace) (index : Nat) :
    compatibleOffset config index < 256 := by
  obtain ⟨slot, hslot, heq⟩ := exists_slot_of_compatibleOffset config index
  omega

theorem read8?_eq_byteAt {position : Nat}
    (hposition : position < config.length) :
    config.read8? position = some (byteAt config position) := by
  have hread : config.read8? position = some config.bytes[position] :=
    List.getElem?_eq_getElem hposition
  rw [byteAt, hread, Option.getD_some]

theorem compatibleStep_continued
    (hpasses : CompatiblePasses config (compatibleOffset config index))
    (hnew : ¬Repeats (compatibleOffset config) index) :
    compatibleStep address config (compatibleState config index) =
      .continued (compatibleState config (index + 1)) := by
  have hmark := mark_of_new (compatibleOffset_lt config index) hnew
  have hid := read8?_eq_byteAt (Nat.lt_of_succ_lt hpasses.2)
  have hnext := read8?_eq_byteAt hpasses.2
  simp only [compatibleStep, compatibleState, stateAt,
    if_neg hpasses.1, hmark, hid, hnext, listed_succ,
    List.nil_append]
  rfl

theorem compatibleStep_ended
    {outcome : Except ScanError (List Capability)}
    (hfollows :
      Follows (compatibleOffset config) (CompatiblePasses config) index)
    (hstop : CompatibleStop address config index outcome) :
    compatibleStep address config (compatibleState config index) =
      .ended (.result outcome) := by
  have hsize := compatibleOffset_lt config index
  cases hstop with
  | ended _ hzero =>
      have hended : (compatibleState config index).offset = 0 := hzero
      rw [compatibleStep, if_pos hended]
      rfl
  | repeated hrepeats =>
      -- The offset has been passed before, so it is not the end of the chain.
      have hne : compatibleOffset config index ≠ 0 := by
        obtain ⟨earlier, hearlier, heq⟩ := hrepeats
        rw [← heq]
        exact (hfollows.passes earlier hearlier).1
      have hmark := mark_of_repeats hsize hrepeats
      simp only [compatibleStep, compatibleState, stateAt, if_neg hne, hmark]
  | outside hnew hzero hlength =>
      have hmark := mark_of_new hsize hnew
      have hnext :
          config.read8? (compatibleOffset config index + 1) = none :=
        List.getElem?_eq_none hlength
      simp only [compatibleStep, compatibleState, stateAt, if_neg hzero,
        hmark, hnext]
      cases config.read8? (compatibleOffset config index) <;> rfl

theorem loop_compatible (address : Address) (config : ConfigSpace) :
    loop (compatibleStep address config) compatibleLimit
        (compatibleState config 0) =
      some (.result (compatible address config)) := by
  obtain ⟨index, hfollows, hstop⟩ := compatible_chain address config
  exact loop_eq_some (fun _ => compatibleStep_continued) hfollows
    (compatibleStep_ended hfollows hstop)
    (Nat.lt_succ_of_le (compatible_index_le hfollows))

end

/-! ## The extended loop -/

section

variable {address : Address} {config : ConfigSpace} {index : Nat}
variable {front : List Capability}

def extendedState (config : ConfigSpace) (front : List Capability)
    (index : Nat) : WalkState :=
  stateAt (max 4096 config.length) front (extendedOffset config)
    (extendedNode config) index

theorem extendedOffset_lt (config : ConfigSpace) (index : Nat) :
    extendedOffset config index < max 4096 config.length := by
  obtain ⟨slot, hslot, heq⟩ := exists_slot_of_extendedOffset config index
  omega

/-- One step at a new offset, in terms of the fields of the header found. -/
theorem extendedStep_of_read {header : UInt32}
    (hnew : ¬Repeats (extendedOffset config) index)
    (hread : config.read32? (extendedOffset config index) = some header) :
    extendedStep address config (extendedState config front index) =
      if IsTerminator header then
        .ended (.result (.ok
          (front ++ listed (extendedOffset config) (extendedNode config)
            index)))
      else if headerNext header = 0 then
        .ended (.result (.ok
          (front ++ listed (extendedOffset config) (extendedNode config)
            (index + 1))))
      else if headerNext header < 0x100 then
        .ended (.result (.error (.malformed "capability chain"
          (address.text ++ ": extended capability at " ++
            Numeral.markedHex 5 (extendedOffset config index) ++
            " points back to " ++
            Numeral.markedHex 4 (headerNext header).toNat))))
      else
        .continued (extendedState config front (index + 1)) := by
  have hmark := mark_of_new (extendedOffset_lt config index) hnew
  have hheader : headerAt config (extendedOffset config index) = header := by
    simp [headerAt, hread]
  simp only [extendedStep, extendedState, stateAt, hmark, hread, listed_succ,
    extendedNode, hheader, List.append_assoc]
  rw [extendedOffset, hheader, marksBefore]

theorem extendedStep_continued
    (hpasses : ExtendedPasses config (extendedOffset config index))
    (hnew : ¬Repeats (extendedOffset config) index) :
    extendedStep address config (extendedState config front index) =
      .continued (extendedState config front (index + 1)) := by
  obtain ⟨header, hread, hnode, hforward⟩ := hpasses
  have hpos : headerNext header ≠ 0 := by
    intro hzero
    rw [hzero] at hforward
    contradiction
  rw [extendedStep_of_read hnew hread, if_neg hnode, if_neg hpos,
    if_neg (UInt32.not_lt.mpr hforward)]

theorem extendedStep_ended
    {outcome : Except ScanError (List Capability)}
    (hstop : ExtendedStop address config index outcome) :
    extendedStep address config (extendedState config front index) =
      .ended (.result (outcome.map fun found => front ++ found)) := by
  have hsize := extendedOffset_lt config index
  cases hstop with
  | terminated hnew hread hterminator =>
      rw [extendedStep_of_read hnew hread, if_pos hterminator]
      rfl
  | last hnew hread hnode hnext =>
      rw [extendedStep_of_read hnew hread, if_neg hnode, if_pos hnext]
      rfl
  | repeated hrepeats =>
      have hmark := mark_of_repeats hsize hrepeats
      simp only [extendedStep, extendedState, stateAt, hmark]
      rfl
  | outside hnew hread =>
      have hmark := mark_of_new hsize hnew
      simp only [extendedStep, extendedState, stateAt, hmark, hread]
      rfl
  | pointsBack hnew hread hnode hpos hback =>
      rw [extendedStep_of_read hnew hread, if_neg hnode, if_neg hpos,
        if_pos hback]
      rfl

theorem loop_extended (address : Address) (config : ConfigSpace)
    (front : List Capability) :
    loop (extendedStep address config) extendedLimit
        (extendedState config front 0) =
      some (.result
        ((extendedFrom address config [] extendedBase).map fun found =>
          front ++ found)) := by
  obtain ⟨index, hfollows, hstop⟩ := extended_chain address config
  exact loop_eq_some (fun _ => extendedStep_continued) hfollows
    (extendedStep_ended hstop)
    (Nat.lt_succ_of_le (extended_index_le hfollows))

end

/-! ## Both walks -/

section

variable {address : Address} {config : ConfigSpace}

theorem allWithTables_eq (address : Address) (config : ConfigSpace) :
    allWithTables address config =
      some (.result (all address config)) := by
  have hcompatible :
      loop (compatibleStep address config) compatibleLimit
          { marks := List.replicate 256 false
            offset := (config.capabilityPointer?.getD 0).toNat
            found := [] } =
        some (.result (compatible address config)) := by
    rw [capabilityPointer_toNat]
    exact loop_compatible address config
  have hextended : ∀ first,
      loop (extendedStep address config) extendedLimit
          { marks := List.replicate (max 4096 config.length) false
            offset := extendedBase
            found := first } =
        some (.result
          ((extendedFrom address config [] extendedBase).map fun found =>
            first ++ found)) := by
    intro first
    have hloop := loop_extended address config first
    rw [extendedState, stateAt, listed, List.range_zero, List.map_nil,
      List.append_nil] at hloop
    exact hloop
  unfold allWithTables all
  rw [hcompatible]
  split
  next hlist =>
    cases compatible address config with
    | error error => rfl
    | ok first =>
        simp only [hextended, bind, Except.bind]
        split
        next => cases extendedFrom address config [] extendedBase <;> rfl
        next => rfl
  next => rfl

/-- The capabilities listed, in the two regions they come from. -/
theorem exists_regions {found : List Capability}
    (hall : all address config = .ok found) :
    ∃ first second, found = first ++ second ∧
      first.length ≤ 63 ∧ second.length ≤ 960 ∧
      (∀ capability ∈ first,
        Placed config .compatible 4 0xfc 2 capability) ∧
      (∀ capability ∈ second,
        Placed config .extended 0x100 0xffc 4 capability) ∧
      (found.map Capability.offset).Nodup := by
  have hlisting := listing_all address config
  rw [hall] at hlisting
  cases hlisting with
  | noList => exact ⟨[], [], by simp⟩
  | conventional _ hfirst =>
      obtain ⟨hlength, hplaced, hnodup⟩ := hfirst.bounded
      exact ⟨found, [], (List.append_nil found).symm, hlength, by simp,
        hplaced, by simp, hnodup⟩
  | @extended _ first second hfirst _ hsecond =>
      obtain ⟨hlength, hplaced, hnodup⟩ := hfirst.bounded
      obtain ⟨hmore, hplacedMore, hnodupMore⟩ := hsecond.bounded
      refine ⟨first, second, rfl, hlength, hmore, hplaced, hplacedMore, ?_⟩
      rw [List.map_append, List.nodup_append]
      refine ⟨hnodup, hnodupMore, ?_⟩
      intro low hlow high hhigh heq
      obtain ⟨capability, hmem, rfl⟩ := List.mem_map.mp hlow
      obtain ⟨other, hother, rfl⟩ := List.mem_map.mp hhigh
      have hle := (hplaced capability hmem).le_last
      have hge := (hplacedMore other hother).first_le
      omega

theorem chainFault_of_all {error : ScanError}
    (hlength : config.length = 256 ∨ config.length = 4096)
    (hall : all address config = .error error) :
    ChainFault address config error := by
  have hlisting := listing_all address config
  rw [hall] at hlisting
  cases hlisting with
  | compatibleFault _ hfirst => exact hfirst.chainFault (by omega)
  | extendedFault _ _ hleads hsecond =>
      have hextended : 256 < config.length := hleads.2
      exact hsecond.chainFault (by omega)

/-- The walks end, their tables hold every offset they come to, and what they
list is bounded by the slots of the two regions.  In a space of standard size
every header they look for is there, so all that can go wrong is the chain
itself. -/
theorem all_bounded (address : Address) (config : ConfigSpace) :
    allWithTables address config = some (.result (all address config)) ∧
    (∀ found, all address config = .ok found →
      ∃ first second, found = first ++ second ∧
        first.length ≤ 63 ∧ second.length ≤ 960 ∧
        (∀ capability ∈ first,
          Placed config .compatible 4 0xfc 2 capability) ∧
        (∀ capability ∈ second,
          Placed config .extended 0x100 0xffc 4 capability) ∧
        (found.map Capability.offset).Nodup) ∧
    (config.length = 256 ∨ config.length = 4096 →
      ∀ error, all address config = .error error →
        ChainFault address config error) :=
  ⟨allWithTables_eq address config, fun _ => exists_regions,
    fun hlength _ => chainFault_of_all hlength⟩

end

end PciInventory.Capability
