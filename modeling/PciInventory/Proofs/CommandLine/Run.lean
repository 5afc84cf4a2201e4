import PciInventory.CommandLine.Run
import PciInventory.Proofs.Snapshot.Publication

/-!
# What a run reads and leaves

A run that succeeds has built a topology with the names it found, has saved it if
it was asked to, and prints what its options show of it.  Whatever a run is asked
for, it adds a snapshot to the tree at most, so a later run finds in their places
all files that this one found.
-/

namespace PciInventory.CommandLine

variable {tree saved : FileTree} {environment : Environment}
  {created : UInt64} {settings : Settings} {options : Options}

/-! ## A run that succeeds -/

theorem ok_of_mapError {Result Fault Report : Type}
    {outcome : Except Fault Result} {wrap : Fault → Report} {result : Result}
    (hok : outcome.mapError wrap = .ok result) : outcome = .ok result := by
  cases outcome with
  | error fault => contradiction
  | ok other =>
      cases hok
      rfl

/-- The resolver that a run starts with. -/
def namesOf (tree : FileTree) (settings : Settings) (options : Options) :
    Names.Resolver :=
  if options.numeric then .empty
  else (loadNames tree (options.database.or settings.database)).1

/-- A run shows `shown` and leaves `saved`. -/
structure Succeeds (tree : FileTree) (environment : Environment)
    (created : UInt64) (options : Options) (shown : Topology)
    (saved : FileTree) : Prop where
  built : ∃ settings, Settings.ofEnvironment tree environment = .ok settings ∧
    (topology tree settings options created
      (namesOf tree settings options)).1 = .ok shown
  kept : saveTo tree shown created options.save = .ok saved

theorem exists_namesOf_eq (tree : FileTree) (settings : Settings)
    (options : Options) :
    ∃ warnings,
      (if options.numeric then (Names.Resolver.empty, [])
        else loadNames tree (options.database.or settings.database)) =
        (namesOf tree settings options, warnings) := by
  unfold namesOf
  by_cases hnumeric : options.numeric
  · exact ⟨[], by rw [if_pos hnumeric, if_pos hnumeric]⟩
  · exact ⟨_, by rw [if_neg hnumeric, if_neg hnumeric]⟩

theorem Succeeds.outcome {shown : Topology}
    (hsuccess : Succeeds tree environment created options shown saved) :
    let outcome := runOptions tree environment created options
    outcome.code = 0 ∧ outcome.output = (rendering shown options).1 ∧
      outcome.tree = saved := by
  obtain ⟨settings, hsettings, hshown⟩ := hsuccess.built
  obtain ⟨warnings, hnames⟩ := exists_namesOf_eq tree settings options
  unfold runOptions
  simp only [hsettings, hnames, hshown, hsuccess.kept, and_self]

theorem exists_succeeds
    (hcode : (runOptions tree environment created options).code = 0) :
    ∃ shown saved,
      Succeeds tree environment created options shown saved := by
  unfold runOptions at hcode
  split at hcode
  next => contradiction
  next settings hsettings =>
  obtain ⟨warnings, hnames⟩ := exists_namesOf_eq tree settings options
  simp only [hnames] at hcode
  split at hcode
  next => contradiction
  next shown hshown =>
  split at hcode
  next => contradiction
  next saved hsaved =>
      exact ⟨shown, saved, ⟨settings, hsettings, hshown⟩, hsaved⟩

/-! ## What a run leaves -/

theorem extends_saveTo {shown : Topology} {path : Option Bytes}
    (hsaved : saveTo tree shown created path = .ok saved) :
    tree.Extends saved := by
  cases path with
  | none =>
      cases hsaved
      exact FileTree.Extends.refl tree
  | some path =>
      obtain ⟨location, content, hname, _, rfl⟩ :=
        Snapshot.exists_name_of_save (ok_of_mapError hsaved)
      exact FileTree.extends_insert (FileTree.free_of_newName hname) _

/-- A run adds to the tree at most, whatever it is asked for. -/
theorem extends_run (tree : FileTree) (environment : Environment)
    (created : UInt64) (arguments : List Bytes) :
    tree.Extends (run tree environment created arguments).tree := by
  have hsame := FileTree.Extends.refl tree
  unfold run
  split
  next => exact hsame
  next => exact hsame
  next => exact hsame
  next options _ =>
  unfold runOptions
  split
  next => exact hsame
  next settings _ =>
  obtain ⟨warnings, hnames⟩ := exists_namesOf_eq tree settings options
  simp only [hnames]
  split
  next => exact hsame
  next shown _ =>
  split
  next => exact hsame
  next hsaved => exact extends_saveTo hsaved

/-! ## The names that a run finds -/

/-- The name database that a run finds, as far as it can be read. -/
def databaseRead (tree : FileTree) (environment : Environment)
    (given : Option Bytes) : Option Bytes :=
  match Settings.ofEnvironment tree environment with
  | .error _ => none
  | .ok settings =>
      (given.or settings.database).bind fun path =>
        (tree.contentAt path).toOption

/-- The content that a run looks names up in. -/
def namesRead (tree : FileTree) (environment : Environment)
    (numeric : Bool) (given : Option Bytes) : Bytes :=
  if numeric then [] else (databaseRead tree environment given).getD []

theorem namesOf_eq
    (hsettings : Settings.ofEnvironment tree environment = .ok settings) :
    namesOf tree settings options = .ofDatabase
      (namesRead tree environment options.numeric options.database) := by
  unfold namesOf namesRead databaseRead
  rw [hsettings]
  by_cases hnumeric : options.numeric
  · rw [if_pos hnumeric, if_pos hnumeric]
    rfl
  · rw [if_neg hnumeric, if_neg hnumeric]
    simp only
    cases options.database.or settings.database with
    | none => rfl
    | some path =>
        unfold loadNames
        simp only [Option.bind_some]
        cases tree.contentAt path <;> rfl

/-- The environment is read alike in every tree. -/
theorem exists_settings
    (hsettings : Settings.ofEnvironment tree environment = .ok settings)
    (other : FileTree) :
    ∃ settings, Settings.ofEnvironment other environment = .ok settings := by
  unfold Settings.ofEnvironment at hsettings ⊢
  cases hroot : Settings.readVariable environment Settings.rootVariable with
  | error error =>
      rw [hroot] at hsettings
      contradiction
  | ok root =>
  cases hdatabase :
      Settings.readVariable environment Settings.databaseVariable with
  | error error =>
      rw [hroot, hdatabase] at hsettings
      contradiction
  | ok database => exact ⟨_, rfl⟩

/-- A database that is given and could be read is read again from a larger
tree. -/
theorem databaseRead_eq_of_extends {file content : Bytes}
    (hextends : tree.Extends saved)
    (hread : tree.contentAt file = .ok content) :
    databaseRead saved environment (some file) =
      databaseRead tree environment (some file) := by
  have hlater := hextends.contentAt_eq hread
  unfold databaseRead
  cases hsettings : Settings.ofEnvironment tree environment with
  | ok settings =>
      obtain ⟨later, hsame⟩ := exists_settings hsettings saved
      simp [hsame, hread, hlater]
  | error error =>
      cases hsaved : Settings.ofEnvironment saved environment with
      | error other => rfl
      | ok later =>
          obtain ⟨settings, hsame⟩ := exists_settings hsaved tree
          rw [hsame] at hsettings
          contradiction

end PciInventory.CommandLine
