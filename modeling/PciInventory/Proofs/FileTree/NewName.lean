import Mathlib.Data.List.DropRight
import PciInventory.FileTree.Change
import PciInventory.Proofs.FileTree.Resolution

/-!
# New names

A new name is given out in the directory that the rest of the path leads to.  It
is free before, and what is put there is found under it.  It is refused as taken
exactly if something has it: a file, a directory, or a link, wherever that leads.
-/

namespace PciInventory

/-! ## Segments -/

namespace Path

theorem ne_nil_of_mem_segmentsFrom {read path segment : Bytes}
    (hmem : segment ∈ segmentsFrom read path) : segment ≠ [] := by
  induction path generalizing read with
  | nil =>
      unfold segmentsFrom at hmem
      split at hmem
      next => contradiction
      next hread =>
          rw [List.mem_singleton.mp hmem]
          simpa using hread
  | cons byte rest ih =>
      unfold segmentsFrom at hmem
      split at hmem
      next =>
          split at hmem
          next => exact ih hmem
          next hread =>
              rcases List.mem_cons.mp hmem with rfl | hrest
              · simpa using hread
              · exact ih hrest
      next => exact ih hmem

theorem segmentsFrom_append_separator (read path : Bytes) :
    segmentsFrom read (path ++ [separator]) = segmentsFrom read path := by
  induction path generalizing read with
  | nil => simp [segmentsFrom]
  | cons byte rest ih => simp only [List.cons_append, segmentsFrom, ih]

theorem segmentsFrom_ne_nil {read : Bytes} (hread : read ≠ [])
    (path : Bytes) : segmentsFrom read path ≠ [] := by
  induction path generalizing read with
  | nil => simp [segmentsFrom, hread]
  | cons byte rest ih =>
      unfold segmentsFrom
      split
      next => simp [hread]
      next => exact ih (List.cons_ne_nil byte read)

theorem isAbsolute_of_segments_eq_nil {path : Bytes} (hpath : path ≠ [])
    (hsegments : segments path = []) : isAbsolute path = true := by
  cases path with
  | nil => contradiction
  | cons byte rest =>
      unfold segments segmentsFrom at hsegments
      split at hsegments
      next hbyte => simp [isAbsolute, hbyte]
      next => exact (segmentsFrom_ne_nil (by simp) rest hsegments).elim

theorem withoutEnd_append_separator {path : Bytes} (hpath : path ≠ []) :
    withoutEnd (path ++ [separator]) = withoutEnd path := by
  cases path with
  | nil => contradiction
  | cons first rest => simp [withoutEnd]

theorem withoutEnd_append_of_ne {path : Bytes} {byte : UInt8}
    (hbyte : byte ≠ separator) :
    withoutEnd (path ++ [byte]) = path ++ [byte] := by
  cases path with
  | nil => simp [withoutEnd]
  | cons first rest => simp [withoutEnd, hbyte]

theorem segments_withoutEnd (path : Bytes) :
    segments (withoutEnd path) = segments path := by
  induction path using List.reverseRecOn with
  | nil => rfl
  | append_singleton path byte ih =>
      by_cases hbyte : byte = separator
      · subst byte
        by_cases hpath : path = []
        · subst path
          rfl
        · rw [withoutEnd_append_separator hpath, ih]
          exact (segmentsFrom_append_separator [] path).symm
      · rw [withoutEnd_append_of_ne hbyte]

/-- Only the top keeps a separator at its end. -/
theorem endsInSeparator_withoutEnd {path : Bytes}
    (hsegments : segments path ≠ []) :
    endsInSeparator (withoutEnd path) = false := by
  induction path using List.reverseRecOn with
  | nil => rfl
  | append_singleton path byte ih =>
      by_cases hbyte : byte = separator
      · subst byte
        rw [segments, segmentsFrom_append_separator] at hsegments
        rw [withoutEnd_append_separator]
        · exact ih hsegments
        · rintro rfl
          exact hsegments rfl
      · rw [withoutEnd_append_of_ne hbyte]
        simp [endsInSeparator, hbyte]

theorem steps_withoutEnd {path : Bytes} (hsegments : segments path ≠ []) :
    steps (withoutEnd path) = segments path := by
  simp [steps, endsInSeparator_withoutEnd hsegments, segments_withoutEnd]

theorem withoutEnd_prefix (path : Bytes) : withoutEnd path <+: path := by
  cases path with
  | nil => exact List.prefix_refl []
  | cons first rest =>
      exact List.prefix_cons_inj first |>.mpr
        (List.rdropWhile_prefix (· = separator) rest)

theorem isAbsolute_withoutEnd (path : Bytes) :
    isAbsolute (withoutEnd path) = isAbsolute path := by
  cases path <;> rfl

theorem withoutEnd_eq_nil {path : Bytes} (hempty : withoutEnd path = []) :
    path = [] := by
  cases path with
  | nil => rfl
  | cons first rest => contradiction

end Path

namespace FileTree

variable {tree : FileTree} {aim : Aim} {links : Nat} {location : Location}
  {place : Place}

/-! ## Names that are given out -/

theorem exists_leads_of_go_here {parents : List Bytes}
    (hgo :
      tree.go .reached links location (parents ++ [Path.here]) = .ok place) :
    ∃ left directory, tree.find? directory = some .directory ∧
      place = .occupied directory .directory ∧
      tree.Leads links location parents left directory [] := by
  obtain ⟨left, directory, hdirectory, hlast, hleads⟩ :=
    exists_directory_of_go_append (by simp) hgo
  refine ⟨left, directory, hdirectory, ?_, hleads⟩
  rw [go_idle hdirectory (Or.inr rfl), go, hdirectory] at hlast
  exact (Except.ok.inj hlast).symm

theorem Leads.go_here {parents : List Bytes} {left : Nat}
    {directory : Location}
    (hleads : tree.Leads links location parents left directory [])
    (hdirectory : tree.find? directory = some .directory) :
    tree.go .reached links location (parents ++ [Path.here]) =
      .ok (.occupied directory .directory) := by
  rw [hleads (Extends.refl tree) (by simp) (by simp), List.nil_append,
    go_idle hdirectory (Or.inr rfl), go, hdirectory]

theorem newName_of_fits {path : Bytes} (hfits : checkPath path = .ok ()) :
    tree.newName path =
      match (Path.segments path).getLast? with
      | none => .error (.os .alreadyExists)
      | some last =>
          match tree.go .reached maxLinks (tree.start path)
              ((Path.segments path).dropLast ++ [Path.here]) with
          | .error error => .error (.os error)
          | .ok (.free _) => .error (.os .noEntry)
          | .ok (.occupied directory _) =>
              if last = Path.here ∨ last = Path.up then
                .error (.os .alreadyExists)
              else if maxNameLength < last.length then
                .error (.os .nameTooLong)
              else
                match tree.find? (last :: directory) with
                | some _ => .error (.os .alreadyExists)
                | none =>
                    if Path.endsInSeparator path then .error (.os .noEntry)
                    else .ok (last :: directory) := by
  have hzero : path.contains 0 = false := by
    unfold checkPath at hfits
    split at hfits
    next => contradiction
    next hzero => simpa using hzero
  unfold newName
  rw [hzero, hfits]
  rfl

theorem newName_of_misfit {path : Bytes} {error : IoError}
    (hmisfit : checkPath path = .error error) :
    tree.newName path =
      .error (if path.contains 0 then .os .invalid else error) := by
  unfold newName
  rw [hmisfit]
  by_cases hzero : path.contains 0 <;> simp only [hzero] <;> rfl

theorem ne_alreadyExists_of_checkPath {path : Bytes} {error : IoError}
    (hmisfit : checkPath path = .error error) :
    error ≠ .os .alreadyExists := by
  unfold checkPath at hmisfit
  rintro rfl
  split at hmisfit
  next => contradiction
  next =>
  split at hmisfit
  next => contradiction
  next =>
  split at hmisfit <;> contradiction

theorem checkPath_of_newName {path : Bytes} {location : Location}
    (hname : tree.newName path = .ok location) : checkPath path = .ok () := by
  cases hfits : checkPath path with
  | ok => rfl
  | error error =>
      rw [newName_of_misfit hfits] at hname
      contradiction

theorem exists_parents_of_newName {path : Bytes}
    (hname : tree.newName path = .ok location) :
    ∃ parents last left directory, location = last :: directory ∧
      Path.steps path = parents ++ [last] ∧ IsName last ∧
      tree.find? directory = some .directory ∧
      tree.find? location = none ∧
      tree.Leads maxLinks (tree.start path) parents left directory [] := by
  have hfits := checkPath_of_newName hname
  rw [newName_of_fits hfits] at hname
  split at hname
  next => contradiction
  next last hlast =>
  split at hname
  next => contradiction
  next => contradiction
  next directory entry hgo =>
  split at hname
  next => contradiction
  next hplain =>
  split at hname
  next => contradiction
  next hlength =>
  split at hname
  next => contradiction
  next hfree =>
  split at hname
  next => contradiction
  next hend =>
  obtain ⟨left, reached, hdirectory, hplace, hleads⟩ :=
    exists_leads_of_go_here hgo
  cases hplace
  have hsegments := List.dropLast_append_getLast? last hlast
  rw [not_or] at hplain
  refine ⟨(Path.segments path).dropLast, last, left, directory,
    (Except.ok.inj hname).symm, ?_, ?_, hdirectory, ?_, hleads⟩
  · rw [Path.steps, if_neg hend]
    exact hsegments.symm
  · have hmem : last ∈ Path.segments path :=
      List.mem_of_getLast? hlast
    exact
      { ne_nil := Path.ne_nil_of_mem_segmentsFrom hmem
        ne_here := hplain.1
        ne_up := hplain.2
        length_le := Nat.le_of_not_lt hlength }
  · rw [← Except.ok.inj hname]
    exact hfree

theorem free_of_newName {path : Bytes}
    (hname : tree.newName path = .ok location) :
    tree.find? location = none := by
  obtain ⟨_, _, _, _, _, _, _, _, hfree, _⟩ := exists_parents_of_newName hname
  exact hfree

/-- A name that is given out is free before. -/
theorem resolve_of_newName {path : Bytes}
    (hname : tree.newName path = .ok location) :
    tree.resolve .named path = .ok (.free location) := by
  obtain ⟨parents, last, left, directory, rfl, hsteps, hlast, hdirectory,
    hfree, hleads⟩ := exists_parents_of_newName hname
  refine resolve_eq_ok_iff.mpr ⟨checkPath_of_newName hname, ?_⟩
  rw [hsteps, hleads (Extends.refl tree) (by simp) (by simp), List.nil_append,
    go_name hdirectory hlast (by simp), hfree]
  rfl

/-- A file that is put there is found under the name. -/
theorem resolve_insert_of_newName {path : Bytes}
    (hname : tree.newName path = .ok location) (content : Bytes)
    (haim : aim ≠ .written) :
    (tree.insert location (.file content)).resolve aim path =
      .ok (.occupied location (.file content)) := by
  obtain ⟨parents, last, left, directory, rfl, hsteps, hlast, hdirectory,
    hfree, hleads⟩ := exists_parents_of_newName hname
  have hextends := extends_insert hfree (.file content)
  have hfound :=
    tree.find?_insert_self (List.cons_ne_nil last directory) (.file content)
  refine resolve_eq_ok_iff.mpr ⟨checkPath_of_newName hname, ?_⟩
  rw [hextends.start_eq, hsteps, hleads hextends haim (by simp),
    List.nil_append,
    go_name (hextends.find?_eq hdirectory) hlast (fun h => (haim h).elim),
    hfound, go, hfound]

theorem contentAt_insert_of_newName {path : Bytes}
    (hname : tree.newName path = .ok location) (content : Bytes) :
    (tree.insert location (.file content)).contentAt path = .ok content := by
  exact contentAt_eq_ok_iff.mpr
    ⟨location, resolve_insert_of_newName hname content (by simp)⟩

theorem WellFormed.insert_of_newName (hformed : tree.WellFormed)
    {path : Bytes} (hname : tree.newName path = .ok location)
    (content : Bytes) :
    (tree.insert location (.file content)).WellFormed := by
  obtain ⟨_, last, _, directory, rfl, _, _, hdirectory, hfree, _⟩ :=
    exists_parents_of_newName hname
  have hextends := extends_insert hfree (.file content)
  intro name parent hentry
  by_cases hnew : name :: parent = last :: directory
  · cases hnew
    exact hextends.find?_eq hdirectory
  · rw [find?_insert_of_ne tree hnew] at hentry
    exact hextends.find?_eq (hformed name parent hentry)

theorem checkDirectory_eq_ok_iff {path : Bytes} :
    tree.checkDirectory path = .ok () ↔
      ∃ directory,
        tree.entryAt .reached path = .ok (directory, .directory) := by
  by_cases hzero : path.contains 0
  · have hrefused : tree.entryAt .reached path = .error .nulInPath := by
      unfold entryAt resolve checkPath
      rw [if_pos hzero]
      rfl
    have hinvalid : tree.checkDirectory path = .error (.os .invalid) := by
      unfold checkDirectory
      rw [if_pos hzero]
      rfl
    rw [hrefused, hinvalid]
    simp
  · unfold checkDirectory
    rw [if_neg hzero]
    cases tree.entryAt .reached path with
    | error error => simp [bind, Except.bind]
    | ok found =>
        rcases found with ⟨place, entry⟩
        cases entry <;> simp [bind, Except.bind, pure, Except.pure]

/-! ## Names that are taken -/

theorem checkPath_withoutEnd {path : Bytes} (hfits : checkPath path = .ok ()) :
    checkPath (Path.withoutEnd path) = .ok () := by
  have hfront := Path.withoutEnd_prefix path
  unfold checkPath at hfits ⊢
  split at hfits
  next => contradiction
  next hzero =>
  split at hfits
  next => contradiction
  next hempty =>
  split at hfits
  next => contradiction
  next hlength =>
  have hzero' : ¬(Path.withoutEnd path).contains 0 := by
    simp only [List.contains_iff_mem] at hzero ⊢
    exact fun hmem => hzero (hfront.mem hmem)
  have hempty' : ¬(Path.withoutEnd path).isEmpty := by
    simp only [List.isEmpty_iff] at hempty ⊢
    exact fun hnil => hempty (Path.withoutEnd_eq_nil hnil)
  have hlength' := hfront.length_le
  rw [if_neg hzero', if_neg hempty', if_neg (by omega)]

theorem start_withoutEnd (tree : FileTree) (path : Bytes) :
    tree.start (Path.withoutEnd path) = tree.start path := by
  rw [start, start, Path.isAbsolute_withoutEnd]

/-- Something has the name, separators at the end of the path aside. -/
def Taken (tree : FileTree) (path : Bytes) : Prop :=
  ∃ location entry,
    tree.resolve .named (Path.withoutEnd path) =
      .ok (.occupied location entry)

theorem taken_of_segments_eq_nil {path : Bytes}
    (hfits : checkPath path = .ok ()) (hsegments : Path.segments path = []) :
    tree.Taken path := by
  have hpath : path ≠ [] := by
    rintro rfl
    contradiction
  have habsolute := Path.isAbsolute_of_segments_eq_nil hpath hsegments
  have hstart : tree.start path = [] := by
    rw [start, if_pos habsolute]
  refine ⟨[], .directory, ?_⟩
  have hgo : tree.go .named maxLinks [] (Path.steps (Path.withoutEnd path)) =
      .ok (.occupied [] .directory) := by
    rw [Path.steps, Path.segments_withoutEnd, hsegments]
    split
    next =>
        rw [List.nil_append, go_idle (find?_top tree) (Or.inl rfl), go]
        rfl
    next =>
        rw [go]
        rfl
  refine resolve_eq_ok_iff.mpr ⟨checkPath_withoutEnd hfits, ?_⟩
  rw [start_withoutEnd, hstart, hgo]

theorem find?_tail (hformed : tree.WellFormed) {directory : Location}
    (hdirectory : tree.find? directory = some .directory) :
    tree.find? directory.tail = some .directory := by
  cases directory with
  | nil => rfl
  | cons name directory =>
      exact hformed name directory (by simp [hdirectory])

/-- The last name of a path is that of an entry. -/
theorem exists_occupied_last_iff (hformed : tree.WellFormed)
    {directory : Location} {last : Bytes}
    (hdirectory : tree.find? directory = some .directory)
    (hlast : last ≠ []) :
    (∃ found entry,
        tree.go .named links directory [last] =
          .ok (.occupied found entry)) ↔
      (last = Path.here ∨ last = Path.up) ∨
        last.length ≤ maxNameLength ∧
          tree.find? (last :: directory) ≠ none := by
  by_cases hhere : last = Path.here
  · subst last
    simp [go_idle hdirectory (Or.inr rfl), go, hdirectory]
  by_cases hup : last = Path.up
  · subst last
    simp [go_up hdirectory, go, find?_tail hformed hdirectory]
  by_cases hlength : last.length ≤ maxNameLength
  · have hname : IsName last := ⟨hlast, hhere, hup, hlength⟩
    rw [go_name hdirectory hname (by simp)]
    cases hfound : tree.find? (last :: directory) with
    | none => simp [hhere, hup]
    | some entry => cases entry <;> simp [hlength, go, hfound]
  · simp only [hhere, hup, hlength, false_and, or_false, iff_false]
    rintro ⟨found, entry, hgo⟩
    obtain ⟨_, hidle | hup | ⟨hname, _⟩⟩ := go_cons_cases hgo
    · exact hidle.elim hlast hhere
    · contradiction
    · exact hlength hname.length_le

/-- No path fails because its end exists. -/
theorem go_ne_alreadyExists (steps : List Bytes) :
    tree.go aim links location steps ≠ .error .alreadyExists := by
  induction links, steps using induction_on_steps generalizing location with
  | nil links =>
      unfold go
      split <;> simp [OsError.noEntry, OsError.alreadyExists]
  | cons links step rest hrest hfewer =>
      unfold go
      split
      next =>
          split
          next => exact hrest
          next =>
          split
          next => exact hrest
          next =>
          split
          next => simp [OsError.isDirectory, OsError.alreadyExists]
          next =>
          split
          next => simp [OsError.nameTooLong, OsError.alreadyExists]
          next =>
          simp only
          split
          next => split <;> simp [OsError.noEntry, OsError.alreadyExists]
          next target _ =>
              split
              next => simp
              next =>
                  cases links with
                  | zero => simp [OsError.linkLoop, OsError.alreadyExists]
                  | succ links => exact hfewer links (by omega) _
          next => exact hrest
      next => simp [OsError.notDirectory, OsError.alreadyExists]

theorem taken_iff_of_fits {path : Bytes} (hfits : checkPath path = .ok ())
    (hsegments : Path.segments path ≠ []) :
    tree.Taken path ↔
      ∃ found entry,
        tree.go .named maxLinks (tree.start path) (Path.segments path) =
          .ok (.occupied found entry) := by
  simp only [Taken, resolve_eq_ok_iff, checkPath_withoutEnd hfits, true_and,
    start_withoutEnd, Path.steps_withoutEnd hsegments]

/-- Exactly the names that something has are refused as taken. -/
theorem newName_eq_alreadyExists_iff (hformed : tree.WellFormed)
    {path : Bytes} :
    tree.newName path = .error (.os .alreadyExists) ↔
      checkPath path = .ok () ∧ tree.Taken path := by
  cases hfits : checkPath path with
  | error error =>
      rw [newName_of_misfit hfits]
      have hne := ne_alreadyExists_of_checkPath hfits
      by_cases hzero : path.contains 0
      · rw [if_pos hzero]
        simp [OsError.invalid, OsError.alreadyExists]
      · rw [if_neg hzero]
        simp [hne]
  | ok =>
  rw [newName_of_fits hfits]
  cases hlast : (Path.segments path).getLast? with
  | none =>
      have hnil := List.getLast?_eq_none_iff.mp hlast
      simp [taken_of_segments_eq_nil hfits hnil]
  | some last =>
  have hmem : last ∈ Path.segments path := List.mem_of_getLast? hlast
  have hsegments := List.dropLast_append_getLast? last hlast
  rw [taken_iff_of_fits hfits (List.ne_nil_of_mem hmem)]
  generalize (Path.segments path).dropLast = parents at hsegments ⊢
  rw [← hsegments]
  cases hgo : tree.go .reached maxLinks (tree.start path)
      (parents ++ [Path.here]) with
  | error error =>
      have hne : error ≠ .alreadyExists := by
        rintro rfl
        exact go_ne_alreadyExists _ hgo
      simp only [Except.error.injEq, IoError.os.injEq, hne, true_and,
        false_iff]
      rintro ⟨found, entry, hfound⟩
      obtain ⟨left, directory, hdirectory, _, hleads⟩ :=
        exists_directory_of_go_append (by simp) hfound
      rw [hleads.go_here hdirectory] at hgo
      contradiction
  | ok place =>
      obtain ⟨left, directory, hdirectory, rfl, hleads⟩ :=
        exists_leads_of_go_here hgo
      rw [hleads (Extends.refl tree) (by simp) (by simp), List.nil_append,
        exists_occupied_last_iff hformed hdirectory
          (Path.ne_nil_of_mem_segmentsFrom hmem)]
      by_cases hdots : last = Path.here ∨ last = Path.up
      · simp [hdots]
      by_cases hlength : last.length ≤ maxNameLength
      · have hshort : ¬maxNameLength < last.length := by omega
        cases hfound : tree.find? (last :: directory) with
        | some entry => simp [hdots, hlength, hshort, hfound]
        | none =>
            simp only [if_neg hdots, if_neg hshort, hfound]
            split <;> simp [hdots, OsError.noEntry, OsError.alreadyExists]
      · have hlong : maxNameLength < last.length := by omega
        simp [hdots, hlength, hlong, OsError.nameTooLong,
          OsError.alreadyExists]

end FileTree

end PciInventory
