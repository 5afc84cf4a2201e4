import PciInventory.Proofs.Names.Catalogue

/-!
# Items among the entries of a catalogue

The entries of a listing can be cut at the line of any of its items.  Behind it
come the entries below the item and then the line of the next item; no other
line of the listing has the same key, whatever is nested in it.
-/

namespace PciInventory.Names

/-- Keys tell the items of a listing apart, also from what is nested. -/
structure Separates {Id Below : Type} (key : Id → Key)
    (nested : Below → List Entry) : Prop where
  injective : ∀ id other, key id = key other → id = other
  nested : ∀ below, ∀ entry ∈ nested below, ∀ id, entry.key ≠ key id

theorem forall_mem_head?_append {p : Entry → Prop}
    {first second : List Entry} (hfirst : ∀ entry ∈ first.head?, p entry)
    (hsecond : ∀ entry ∈ second.head?, p entry) :
    ∀ entry ∈ (first ++ second).head?, p entry := by
  cases first with
  | nil => exact hsecond
  | cons entry first => exact hfirst

section Items

variable {Id Below : Type} {key : Id → Key} {nested : Below → List Entry}

theorem key_ne_of_forall_id_ne (hkeys : Separates key nested) {id : Id}
    {items : List (Item Id Below)} (hids : ∀ item ∈ items, item.id ≠ id) :
    ∀ entry ∈ items.flatMap (Item.entries key nested),
      entry.key ≠ key id := by
  intro entry hentry
  obtain ⟨item, hitem, hentry⟩ := List.mem_flatMap.mp hentry
  rcases List.mem_cons.mp hentry with rfl | hbelow
  · exact fun heq => hids item hitem (hkeys.injective _ _ heq)
  · exact hkeys.nested item.below entry hbelow id

theorem exists_key_eq_of_mem_head? {items : List (Item Id Below)}
    {entry : Entry}
    (hentry : entry ∈ (items.flatMap (Item.entries key nested)).head?) :
    ∃ id, entry.key = key id := by
  cases items with
  | nil => contradiction
  | cons item items =>
      rw [List.flatMap_cons, Item.entries, List.cons_append,
        List.head?_cons, Option.mem_some_iff] at hentry
      exact ⟨item.id, hentry ▸ rfl⟩

variable {listing : Listing Id Below}

theorem id_ne_of_items_eq {front back : List (Item Id Below)}
    {item : Item Id Below}
    (hitems : listing.items = front ++ item :: back) :
    ∀ other ∈ front ++ back, other.id ≠ item.id := by
  have hdistinct := listing.distinct
  rw [hitems, List.map_append, List.map_cons, List.nodup_middle,
    List.nodup_cons, ← List.map_append] at hdistinct
  intro other hother heq
  exact hdistinct.1 (heq ▸ List.mem_map_of_mem hother)

/-- No other line of a listing has the key of its first. -/
theorem entries_eq_cons (hkeys : Separates key nested)
    {first : Item Id Below} {rest : List (Item Id Below)}
    (hitems : listing.items = first :: rest) :
    ∃ after, listing.entries key nested =
        ⟨key first.id, first.name⟩ :: after ∧
      ∀ entry ∈ after, entry.key ≠ key first.id := by
  refine ⟨nested first.below ++ rest.flatMap (Item.entries key nested),
    ?_, ?_⟩
  · rw [Listing.entries, hitems]
    rfl
  · intro entry hentry
    rcases List.mem_append.mp hentry with hbelow | hrest
    · exact hkeys.nested first.below entry hbelow first.id
    · have hothers := id_ne_of_items_eq
        (show listing.items = [] ++ first :: rest from hitems)
      exact key_ne_of_forall_id_ne hkeys hothers entry hrest

variable [DecidableEq Id]

theorem key_ne_of_item?_eq_none (hkeys : Separates key nested) {id : Id}
    (hnone : listing.item? id = none) :
    ∀ entry ∈ listing.entries key nested, entry.key ≠ key id := by
  apply key_ne_of_forall_id_ne hkeys
  intro item hitem hid
  rw [Listing.item?_eq_some_iff.mpr ⟨hitem, hid⟩] at hnone
  contradiction

/-- The entries of a listing, cut at the line of an item. -/
theorem exists_entries_eq (hkeys : Separates key nested) {id : Id}
    {item : Item Id Below} (hitem : listing.item? id = some item) :
    ∃ before after,
      listing.entries key nested =
        before ++ ⟨key id, item.name⟩ :: (nested item.below ++ after) ∧
      (∀ entry ∈ before, entry.key ≠ key id) ∧
      ∀ entry ∈ after.head?, ∃ other, entry.key = key other := by
  obtain ⟨hmem, rfl⟩ := Listing.item?_eq_some_iff.mp hitem
  obtain ⟨front, back, hitems⟩ := List.append_of_mem hmem
  have hothers := id_ne_of_items_eq hitems
  refine ⟨front.flatMap (Item.entries key nested),
    back.flatMap (Item.entries key nested), ?_, ?_, ?_⟩
  · rw [Listing.entries, hitems, List.flatMap_append, List.flatMap_cons]
    rfl
  · exact key_ne_of_forall_id_ne hkeys fun other hfront =>
      hothers other (List.mem_append_left back hfront)
  · exact fun entry hentry => exists_key_eq_of_mem_head? hentry

end Items

/-! ## The keys at each level -/

theorem mem_entries_cases {Id Below : Type} {key : Id → Key}
    {nested : Below → List Entry} {listing : Listing Id Below}
    {entry : Entry} (hentry : entry ∈ listing.entries key nested) :
    (∃ id, entry.key = key id) ∨ ∃ below, entry ∈ nested below := by
  obtain ⟨item, -, hentry⟩ := List.mem_flatMap.mp hentry
  rcases List.mem_cons.mp hentry with rfl | hbelow
  · exact Or.inl ⟨item.id, rfl⟩
  · exact Or.inr ⟨item.below, hbelow⟩

theorem Subsystems.key_of_mem {subsystems : Subsystems} {entry : Entry}
    (hentry : entry ∈ subsystems.entries) :
    ∃ ids, entry.key = .subsystem ids := by
  rcases mem_entries_cases hentry with hkey | ⟨-, hnone⟩
  · exact hkey
  · exact (List.not_mem_nil hnone).elim

theorem Devices.key_of_mem {devices : Devices} {entry : Entry}
    (hentry : entry ∈ devices.entries) :
    (∃ id, entry.key = .device id) ∨ ∃ ids, entry.key = .subsystem ids := by
  rcases mem_entries_cases hentry with hkey | ⟨subsystems, hbelow⟩
  · exact Or.inl hkey
  · exact Or.inr (Subsystems.key_of_mem hbelow)

theorem Vendors.key_of_mem {vendors : Vendors} {entry : Entry}
    (hentry : entry ∈ vendors.entries) :
    (∃ id, entry.key = .vendor id) ∨ (∃ id, entry.key = .device id) ∨
      ∃ ids, entry.key = .subsystem ids := by
  rcases mem_entries_cases hentry with hkey | ⟨devices, hbelow⟩
  · exact Or.inl hkey
  · exact Or.inr (Devices.key_of_mem hbelow)

theorem Interfaces.key_of_mem {interfaces : Interfaces} {entry : Entry}
    (hentry : entry ∈ interfaces.entries) :
    ∃ id, entry.key = .interface id := by
  rcases mem_entries_cases hentry with hkey | ⟨-, hnone⟩
  · exact hkey
  · exact (List.not_mem_nil hnone).elim

theorem Subclasses.key_of_mem {subclasses : Subclasses} {entry : Entry}
    (hentry : entry ∈ subclasses.entries) :
    (∃ id, entry.key = .subclass id) ∨ ∃ id, entry.key = .interface id := by
  rcases mem_entries_cases hentry with hkey | ⟨interfaces, hbelow⟩
  · exact Or.inl hkey
  · exact Or.inr (Interfaces.key_of_mem hbelow)

theorem Classes.key_of_mem {classes : Classes} {entry : Entry}
    (hentry : entry ∈ classes.entries) :
    (∃ id, entry.key = .deviceClass id) ∨ (∃ id, entry.key = .subclass id) ∨
      ∃ id, entry.key = .interface id := by
  rcases mem_entries_cases hentry with hkey | ⟨subclasses, hbelow⟩
  · exact Or.inl hkey
  · exact Or.inr (Subclasses.key_of_mem hbelow)

theorem Subsystems.separates :
    Separates Key.subsystem fun _ : Unit => [] where
  injective _ _ heq := Key.subsystem.inj heq
  nested _ _ hnone := (List.not_mem_nil hnone).elim

theorem Devices.separates : Separates Key.device Subsystems.entries where
  injective _ _ heq := Key.device.inj heq
  nested _ _ hbelow id := by
    obtain ⟨ids, hkey⟩ := Subsystems.key_of_mem hbelow
    simp [hkey]

theorem Vendors.separates : Separates Key.vendor Devices.entries where
  injective _ _ heq := Key.vendor.inj heq
  nested _ _ hbelow id := by
    rcases Devices.key_of_mem hbelow with ⟨other, hkey⟩ | ⟨ids, hkey⟩ <;>
      simp [hkey]

theorem Interfaces.separates :
    Separates Key.interface fun _ : Unit => [] where
  injective _ _ heq := Key.interface.inj heq
  nested _ _ hnone := (List.not_mem_nil hnone).elim

theorem Subclasses.separates :
    Separates Key.subclass Interfaces.entries where
  injective _ _ heq := Key.subclass.inj heq
  nested _ _ hbelow id := by
    obtain ⟨other, hkey⟩ := Interfaces.key_of_mem hbelow
    simp [hkey]

theorem Classes.separates :
    Separates Key.deviceClass Subclasses.entries where
  injective _ _ heq := Key.deviceClass.inj heq
  nested _ _ hbelow id := by
    rcases Subclasses.key_of_mem hbelow with ⟨other, hkey⟩ | ⟨other, hkey⟩ <;>
      simp [hkey]

end PciInventory.Names
