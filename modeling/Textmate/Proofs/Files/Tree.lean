import Mathlib.Data.List.Induction
import Textmate.Files.Basic
import Textmate.Proofs.Files.Paths
import Textmate.Proofs.List

/-!
# Places in a file tree

`Files.IsTree` says what a dictionary of locations needs to be a file tree: names on the way to
every place, and a directory in front of each of them. In a tree the path of a place that is below
a directory is the path of the directory with the names behind it.

## Key results

- `Files.IsTree.directory_of_append`: what stands in front of a place is a directory
- `Files.locate_join`: a name behind a path is one step further
- `Files.IsTree.locate_foldl_join`: names behind a path lead to the place below it
-/

namespace Textmate.Files

/-- Every place has a name, and it stands in a directory. -/
structure IsTree (files : Files) : Prop where
  ne_root : ∀ location ∈ Dict.keys files.entries, location ≠ []
  isName : ∀ location ∈ Dict.keys files.entries, ∀ name ∈ location, Path.IsName name
  parent : ∀ location ∈ Dict.keys files.entries, files.at? location.dropLast = some .directory

instance (files : Files) : Decidable files.IsTree :=
  decidable_of_iff
    ((∀ location ∈ Dict.keys files.entries, location ≠ []) ∧
      (∀ location ∈ Dict.keys files.entries, ∀ name ∈ location, Path.IsName name) ∧
      ∀ location ∈ Dict.keys files.entries, files.at? location.dropLast = some .directory)
    ⟨fun ⟨hroot, hname, hparent⟩ => ⟨hroot, hname, hparent⟩,
      fun h => ⟨h.ne_root, h.isName, h.parent⟩⟩

variable {files : Files} {location : Location} {path name : String}

/-! ## What stands at a place -/

/-- Something stands at a place below the root when it has an entry. -/
theorem isSome_at?_iff (h : location ≠ []) :
    (files.at? location).isSome ↔ location ∈ Dict.keys files.entries := by
  rw [at?, if_neg h, Dict.mem_keys_iff_find?, Option.isSome_iff_exists]

namespace IsTree

/-- All parts of the place of something are names. -/
theorem isName_of_isSome (h : files.IsTree) (hat : (files.at? location).isSome) :
    ∀ name ∈ location, Path.IsName name := by
  by_cases hroot : location = []
  · simp [hroot]
  · exact h.isName location ((isSome_at?_iff hroot).1 hat)

/-- What stands in front of a place is a directory. -/
theorem directory_of_append (h : files.IsTree) {names : List String} (hnames : names ≠ [])
    (hat : (files.at? (location ++ names)).isSome) : files.at? location = some .directory := by
  induction names using List.reverseRecOn with
  | nil => exact absurd rfl hnames
  | append_singleton front last ih =>
    -- The induction is from the last name on, whose parent is a directory.
    rw [← List.append_assoc] at hat
    have hmem := (isSome_at?_iff (by simp)).1 hat
    have hparent := h.parent _ hmem
    rw [List.dropLast_concat] at hparent
    by_cases hfront : front = []
    · rwa [hfront, List.append_nil] at hparent
    · exact ih hfront (by rw [hparent]; rfl)

/-- Something stands in front of a place. -/
theorem isSome_of_append (h : files.IsTree) {names : List String} (hnames : names ≠ [])
    (hat : (files.at? (location ++ names)).isSome) : (files.at? location).isSome := by
  rw [h.directory_of_append hnames hat]
  rfl

end IsTree

/-! ## Steps along a path -/

/-- A step starts in a directory. It stays there, or goes back, or goes into a name. -/
theorem step_eq_ok_iff {next : Location} : files.step location name = .ok next ↔
    files.at? location = some .directory ∧
      next = if Path.isIdle name then location
        else if name = ".." then location.dropLast
        else location ++ [name] := by
  unfold step
  split
  · -- No step starts at a place with nothing or in a file.
    simp [*]
  · simp [*]
  · rename_i hdirectory
    rw [Except.ok.injEq, eq_comm]
    exact ⟨fun h => ⟨hdirectory, h⟩, fun h => h.2⟩

/-- A name is a step into it. -/
theorem step_name (hlocation : files.at? location = some .directory) (hname : Path.IsName name) :
    files.step location name = .ok (location ++ [name]) :=
  step_eq_ok_iff.2 ⟨hlocation, by simp [hname.1, hname.2.1]⟩

/-- The empty path leads nowhere. -/
theorem ne_empty_of_locate (h : files.locate path = .ok location) : path ≠ "" := by
  rintro rfl
  cases h

/-- The pieces of a path are steps from the root or the working directory. -/
private theorem locate_eq (h : path ≠ "") : files.locate path = (Path.pieces path).foldlM files.step
    (if Path.isAbsolute path then [] else files.workingDirectory) :=
  if_neg h

/-- A name without slashes is one step from the working directory. -/
theorem locate_name (hne : name ≠ "") (hname : '/' ∉ name.toList) :
    files.locate name = files.step files.workingDirectory name := by
  rw [locate_eq hne, Path.pieces_of_not_mem hname, Path.isAbsolute_of_not_mem hname]
  simp

/-- The pieces in front of a name behind a path lead where the path leads. -/
theorem exists_steps_join (hpath : files.locate path = .ok location)
    (hname : '/' ∉ name.toList) :
    ∃ front, front ≠ [] ∧ Path.pieces (Path.join path name) = front ++ [name] ∧
      (∀ piece ∈ front, piece ∈ Path.pieces path) ∧
      front.foldlM files.step (if Path.isAbsolute path then [] else files.workingDirectory) =
        .ok location := by
  have hne := ne_empty_of_locate hpath
  obtain ⟨front, hfront, hjoin, hpieces⟩ := Path.exists_pieces_join hne hname
  rw [locate_eq hne] at hpath
  refine ⟨front, hfront, hjoin, ?_⟩
  rcases hpieces with h | h
  · rw [h] at hpath ⊢
    exact ⟨fun _ hmem => hmem, hpath⟩
  · -- The empty piece behind a last slash stays where it is.
    rw [h, List.foldlM_append, Except.bind_eq_ok_iff] at hpath
    obtain ⟨before, hbefore, hidle⟩ := hpath
    rw [List.foldlM_cons, Except.bind_eq_ok_iff] at hidle
    obtain ⟨after, hafter, heq⟩ := hidle
    cases heq
    rw [h, (step_eq_ok_iff.1 hafter).2]
    exact ⟨fun _ hmem => List.mem_append_left _ hmem, hbefore⟩

/-- A name behind a path is one step further. -/
theorem locate_join (hpath : files.locate path = .ok location) (hname : '/' ∉ name.toList) :
    files.locate (Path.join path name) = files.step location name := by
  have hne := ne_empty_of_locate hpath
  obtain ⟨front, -, hjoin, -, hsteps⟩ := exists_steps_join hpath hname
  rw [locate_eq (Path.join_ne_empty hne hname), Path.isAbsolute_join hne hname, hjoin,
    List.foldlM_append, hsteps, Except.ok_bind, List.foldlM_cons]
  exact bind_pure _

/-- Names behind a path lead to the place below it. -/
theorem IsTree.locate_foldl_join (h : files.IsTree) {names : List String}
    (hpath : files.locate path = .ok location) (hat : (files.at? (location ++ names)).isSome) :
    files.locate (names.foldl Path.join path) = .ok (location ++ names) := by
  induction names generalizing path location with
  | nil => simpa using hpath
  | cons name names ih =>
    have hdirectory := h.directory_of_append (List.cons_ne_nil name names) hat
    have hname := h.isName_of_isSome hat name (by simp)
    -- The name leads into the directory, as it is none of the special ones.
    have hnext : files.locate (Path.join path name) = .ok (location ++ [name]) := by
      rw [locate_join hpath hname.2.2, step_name hdirectory hname]
    rw [List.append_cons] at hat ⊢
    exact ih hnext hat

/-- What is read at a path is the text of the file at its place. -/
theorem read_eq_ok_iff (hpath : files.locate path = .ok location) {text : String} :
    files.read path = .ok text ↔ files.at? location = some (.file text) := by
  rw [read, entry, hpath, Except.ok_bind]
  -- Only a file is read, and neither a directory nor nothing.
  cases files.at? location with
  | none => exact ⟨fun h => (nomatch h), fun h => nomatch h⟩
  | some entry =>
    cases entry with
    | directory => exact ⟨fun h => (nomatch h), fun h => nomatch h⟩
    | file other => exact ⟨fun h => by cases h; rfl, fun h => by cases h; rfl⟩

end Textmate.Files
