import PciInventory.FileTree.Basic

/-!
# Resolving a path in a growing tree

What a path leads to depends on the entries it comes by, so it stays the same
when entries are added.  Everything before the last name leads to a directory,
whatever the last name is, and from there that name alone counts.
-/

namespace PciInventory

namespace FileTree

/-! ## Entries -/

/-- The other tree has the entries of the first, and perhaps more. -/
structure Extends (tree larger : FileTree) : Prop where
  current_eq : larger.current = tree.current
  find?_eq : ∀ {location entry},
    tree.find? location = some entry → larger.find? location = some entry

/-- Whatever has an entry in it is a directory. -/
def WellFormed (tree : FileTree) : Prop :=
  ∀ name directory, tree.find? (name :: directory) ≠ none →
    tree.find? directory = some .directory

theorem Extends.refl (tree : FileTree) : tree.Extends tree :=
  ⟨rfl, id⟩

@[simp] theorem find?_top (tree : FileTree) :
    tree.find? [] = some .directory := rfl

theorem find?_insert_self {tree : FileTree} {location : Location}
    (hinside : location ≠ []) (entry : Entry) :
    (tree.insert location entry).find? location = some entry := by
  simp [find?, insert, hinside]

theorem lookup_filter_ne (entries : List (Location × Entry))
    {location other : Location} (hother : other ≠ location) :
    (entries.filter fun entry => entry.1 ≠ location).lookup other =
      entries.lookup other := by
  induction entries with
  | nil => rfl
  | cons entry rest ih =>
      rcases entry with ⟨place, entry⟩
      by_cases hplace : place = location
      · have hne : (other == place) = false := by
          simpa [hplace] using hother
        rw [List.filter_cons_of_neg (by simp [hplace]), List.lookup_cons, hne]
        exact ih
      · rw [List.filter_cons_of_pos (by simp [hplace]), List.lookup_cons,
          List.lookup_cons, ih]

theorem find?_insert_of_ne (tree : FileTree) {location other : Location}
    (hother : other ≠ location) (entry : Entry) :
    (tree.insert location entry).find? other = tree.find? other := by
  have hne : (other == location) = false := by simpa using hother
  unfold find? insert
  rw [List.lookup_cons, hne, lookup_filter_ne tree.entries hother]

theorem extends_insert {tree : FileTree} {location : Location}
    (hfree : tree.find? location = none) (entry : Entry) :
    tree.Extends (tree.insert location entry) where
  current_eq := rfl
  find?_eq := by
    intro other found hfound
    rw [find?_insert_of_ne tree _ entry]
    · exact hfound
    · rintro rfl
      rw [hfree] at hfound
      contradiction

/-! ## One step of a path -/

/-- A step that leads nowhere else. -/
def Idle (step : Bytes) : Prop :=
  step = [] ∨ step = Path.here

/-- A step that is looked up in a directory. -/
structure IsName (step : Bytes) : Prop where
  ne_nil : step ≠ []
  ne_here : step ≠ Path.here
  ne_up : step ≠ Path.up
  length_le : step.length ≤ maxNameLength

variable {tree larger : FileTree} {aim other : Aim} {links : Nat}
  {location : Location} {step : Bytes} {rest : List Bytes} {place : Place}

theorem go_idle (hdirectory : tree.find? location = some .directory)
    (hidle : Idle step) :
    tree.go aim links location (step :: rest) =
      tree.go aim links location rest := by
  rw [go, hdirectory]
  have hskip : step.isEmpty ∨ step = Path.here := by
    simpa [Idle] using hidle
  simp only [if_pos hskip]

theorem go_up (hdirectory : tree.find? location = some .directory) :
    tree.go aim links location (Path.up :: rest) =
      tree.go aim links location.tail rest := by
  rw [go, hdirectory]
  simp [Path.up, Path.here]

/-- A name is looked up, once it is clear that it is not one to be written with
a separator behind it. -/
theorem go_name (hdirectory : tree.find? location = some .directory)
    (hname : IsName step) (haim : aim = .written → rest ≠ [[]]) :
    tree.go aim links location (step :: rest) =
      match tree.find? (step :: location) with
      | none =>
          if rest.isEmpty then .ok (.free (step :: location))
          else .error .noEntry
      | some (.link target) =>
          if rest.isEmpty ∧ aim = .named then
            .ok (.occupied (step :: location) (.link target))
          else
            match links with
            | 0 => .error .linkLoop
            | links + 1 =>
                tree.go aim links
                  (if Path.isAbsolute target then [] else location)
                  (Path.steps target ++ rest)
      | some _ => tree.go aim links (step :: location) rest := by
  have hidle : ¬(step.isEmpty ∨ step = Path.here) := by
    simp [hname.ne_nil, hname.ne_here]
  have hwritten : ¬(aim = .written ∧ rest = [[]]) :=
    fun h => haim h.1 h.2
  have hlength : ¬maxNameLength < step.length := by
    have := hname.length_le
    omega
  rw [go, hdirectory]
  exact (if_neg hidle).trans ((if_neg hname.ne_up).trans
    ((if_neg hwritten).trans (if_neg hlength)))

/-- What a step that does not fail is. -/
theorem go_cons_cases
    (hgo : tree.go aim links location (step :: rest) = .ok place) :
    tree.find? location = some .directory ∧
      (Idle step ∨ step = Path.up ∨
        IsName step ∧ (aim = .written → rest ≠ [[]])) := by
  unfold go at hgo
  split at hgo
  next hdirectory =>
      refine ⟨hdirectory, ?_⟩
      split at hgo
      next hidle => exact Or.inl (by simpa [Idle] using hidle)
      next hidle =>
      split at hgo
      next hup => exact Or.inr (Or.inl hup)
      next hup =>
      split at hgo
      next => contradiction
      next hwritten =>
      split at hgo
      next => contradiction
      next hlength =>
          rw [not_or] at hidle
          have hname : IsName step :=
            { ne_nil := by simpa using hidle.1
              ne_here := hidle.2
              ne_up := hup
              length_le := Nat.le_of_not_lt hlength }
          exact Or.inr (Or.inr ⟨hname, fun haim hrest =>
            hwritten ⟨haim, hrest⟩⟩)
  next => contradiction

/-! ## Whole paths -/

/-- A path is gone step by step; a link puts other steps in front, but leaves
fewer links to follow. -/
theorem induction_on_steps {motive : Nat → List Bytes → Prop}
    (nil : ∀ links, motive links [])
    (cons : ∀ links step rest, motive links rest →
      (∀ fewer < links, ∀ steps, motive fewer steps) →
        motive links (step :: rest))
    (links : Nat) (steps : List Bytes) : motive links steps := by
  induction links using Nat.strongRecOn generalizing steps with
  | ind links hfewer =>
      induction steps with
      | nil => exact nil links
      | cons step rest hrest => exact cons links step rest hrest hfewer

theorem Extends.go_eq (hextends : tree.Extends larger)
    {steps : List Bytes} {found : Location} {entry : Entry}
    (hgo : tree.go aim links location steps = .ok (.occupied found entry)) :
    larger.go aim links location steps = .ok (.occupied found entry) := by
  induction links, steps using induction_on_steps generalizing location with
  | nil links =>
      unfold go at hgo ⊢
      split at hgo
      next entry hentry => rwa [hextends.find?_eq hentry]
      next => contradiction
  | cons links step rest hrest hfewer =>
      obtain ⟨hdirectory, hidle | rfl | ⟨hname, haim⟩⟩ := go_cons_cases hgo
      · rw [go_idle hdirectory hidle] at hgo
        rw [go_idle (hextends.find?_eq hdirectory) hidle]
        exact hrest hgo
      · rw [go_up hdirectory] at hgo
        rw [go_up (hextends.find?_eq hdirectory)]
        exact hrest hgo
      · rw [go_name hdirectory hname haim] at hgo
        rw [go_name (hextends.find?_eq hdirectory) hname haim]
        split at hgo
        next => split at hgo <;> simp at hgo
        next target hlink =>
            rw [hextends.find?_eq hlink]
            split at hgo
            next hlast => simpa only [if_pos hlast] using hgo
            next hlast =>
                simp only [if_neg hlast]
                cases links with
                | zero => contradiction
                | succ links => exact hfewer links (by omega) _ hgo
        next entry hlink hentry =>
            rw [hextends.find?_eq hentry]
            cases entry with
            | link target => exact (hlink target rfl).elim
            | file content => exact hrest hgo
            | directory => exact hrest hgo

/-- Where a path starts. -/
def start (tree : FileTree) (path : Bytes) : Location :=
  if Path.isAbsolute path then [] else tree.current

theorem Extends.start_eq (hextends : tree.Extends larger) (path : Bytes) :
    larger.start path = tree.start path := by
  rw [start, start, hextends.current_eq]

theorem resolve_eq_ok_iff {path : Bytes} :
    tree.resolve aim path = .ok place ↔
      checkPath path = .ok () ∧
        tree.go aim maxLinks (tree.start path) (Path.steps path) =
          .ok place := by
  unfold resolve
  cases checkPath path with
  | error error => simp [bind, Except.bind]
  | ok =>
      simp only [bind, Except.bind, true_and]
      unfold start
      cases tree.go aim maxLinks
          (if Path.isAbsolute path then [] else tree.current)
          (Path.steps path) <;>
        simp [pure, Except.pure]

theorem contentAt_eq_ok_iff {path content : Bytes} :
    tree.contentAt path = .ok content ↔
      ∃ found,
        tree.resolve .reached path = .ok (.occupied found (.file content)) := by
  unfold contentAt openAt entryAt
  cases tree.resolve .reached path with
  | error error => simp [bind, Except.bind]
  | ok place =>
      rcases place with ⟨found, entry⟩ | ⟨found⟩
      · cases entry <;>
          simp [bind, Except.bind, pure, Except.pure, Opened.read]
      · simp [bind, Except.bind]

/-- A file that is found stays the same when entries are added. -/
theorem Extends.contentAt_eq (hextends : tree.Extends larger)
    {path content : Bytes} (hread : tree.contentAt path = .ok content) :
    larger.contentAt path = .ok content := by
  obtain ⟨found, hfound⟩ := contentAt_eq_ok_iff.mp hread
  obtain ⟨hfits, hgo⟩ := resolve_eq_ok_iff.mp hfound
  refine contentAt_eq_ok_iff.mpr ⟨found, resolve_eq_ok_iff.mpr ⟨hfits, ?_⟩⟩
  rw [hextends.start_eq]
  exact hextends.go_eq hgo

/-- The steps lead to `next` and, from there on, through `more`, in a tree and
in larger ones, whatever is behind them. -/
def Leads (tree : FileTree) (links : Nat) (location : Location)
    (steps : List Bytes) (left : Nat) (next : Location) (more : List Bytes) :
    Prop :=
  ∀ {larger : FileTree}, tree.Extends larger →
    ∀ {aim : Aim} {last : List Bytes}, aim ≠ .written → last ≠ [] →
      larger.go aim links location (steps ++ last) =
        larger.go aim left next (more ++ last)

theorem Leads.trans {steps more final : List Bytes} {left remaining : Nat}
    {next end_ : Location}
    (hfirst : tree.Leads links location steps left next more)
    (hsecond : tree.Leads left next more remaining end_ final) :
    tree.Leads links location steps remaining end_ final := by
  intro larger hextends aim last haim hlast
  exact (hfirst hextends haim hlast).trans (hsecond hextends haim hlast)

theorem exists_leads_of_go_cons {steps : List Bytes} (hend : rest ≠ [])
    (hgo : tree.go aim links location (step :: (steps ++ rest)) = .ok place) :
    ∃ left next more, (left < links ∨ left = links ∧ more = steps) ∧
      tree.go aim left next (more ++ rest) = .ok place ∧
      tree.Leads links location (step :: steps) left next more := by
  obtain ⟨hdirectory, hidle | rfl | ⟨hname, haim⟩⟩ := go_cons_cases hgo
  · rw [go_idle hdirectory hidle] at hgo
    refine ⟨links, location, steps, Or.inr ⟨rfl, rfl⟩, hgo, ?_⟩
    intro larger hextends aim last _ _
    exact go_idle (hextends.find?_eq hdirectory) hidle
  · rw [go_up hdirectory] at hgo
    refine ⟨links, location.tail, steps, Or.inr ⟨rfl, rfl⟩, hgo, ?_⟩
    intro larger hextends aim last _ _
    exact go_up (hextends.find?_eq hdirectory)
  · have hfollowed : ∀ {aim : Aim} {last : List Bytes}, last ≠ [] →
        ¬((steps ++ last).isEmpty ∧ aim = .named) := by
      intro aim last hlast
      simp [hlast]
    rw [go_name hdirectory hname haim] at hgo
    split at hgo
    next => simp [hend] at hgo
    next target hlink =>
        rw [if_neg (hfollowed hend)] at hgo
        cases links with
        | zero => contradiction
        | succ links =>
            simp only [← List.append_assoc] at hgo
            refine ⟨links, _, _, Or.inl (by omega), hgo, ?_⟩
            intro larger hextends aim last haim hlast
            rw [List.cons_append,
              go_name (hextends.find?_eq hdirectory) hname
                fun h => (haim h).elim,
              hextends.find?_eq hlink]
            simp only [if_neg (hfollowed hlast), ← List.append_assoc]
    next entry hlink hentry =>
        refine ⟨links, _, steps, Or.inr ⟨rfl, rfl⟩, hgo, ?_⟩
        intro larger hextends aim last haim hlast
        rw [List.cons_append,
          go_name (hextends.find?_eq hdirectory) hname
            fun h => (haim h).elim,
          hextends.find?_eq hentry]
        cases entry with
        | link target => exact (hlink target rfl).elim
        | file content => rfl
        | directory => rfl

/-- What comes before the end of a path leads to a directory, and from there the
end alone counts. -/
theorem exists_directory_of_go_append {steps : List Bytes}
    (hend : rest ≠ [])
    (hgo : tree.go aim links location (steps ++ rest) = .ok place) :
    ∃ left directory, tree.find? directory = some .directory ∧
      tree.go aim left directory rest = .ok place ∧
      tree.Leads links location steps left directory [] := by
  induction links, steps using induction_on_steps generalizing location with
  | nil links =>
      refine ⟨links, location, ?_, hgo, fun _ _ _ _ _ => rfl⟩
      cases rest with
      | nil => contradiction
      | cons step rest => exact (go_cons_cases hgo).1
  | cons links step steps hsteps hfewer =>
      obtain ⟨left, next, more, hless, hnext, hleads⟩ :=
        exists_leads_of_go_cons hend hgo
      rcases hless with hless | ⟨rfl, rfl⟩
      · obtain ⟨final, directory, hdirectory, hlast, hmore⟩ :=
          hfewer left hless more hnext
        exact ⟨final, directory, hdirectory, hlast, hleads.trans hmore⟩
      · obtain ⟨final, directory, hdirectory, hlast, hmore⟩ := hsteps hnext
        exact ⟨final, directory, hdirectory, hlast, hleads.trans hmore⟩

end FileTree

end PciInventory
