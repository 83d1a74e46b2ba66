import Textmate.Files.Glob
import Textmate.Proofs.Files.Tree

/-!
# Searching a file tree

What a pattern finds whose first names have no wildcards: such names lead step by step to one
directory, and the names behind them are searched for below it.

## Key results

- `Glob.Wildcard.covers_run_literal`: a run in front of a text covers the names that end in it
- `Glob.expand_names`: names without wildcards are followed one after another
- `Glob.mem_below_iff`: what stands below a directory, and by which paths
-/

namespace Textmate.Files

variable {files : Files} {location : Location} {path : String}

/-- Below a path that leads to a place is the entry of the place. -/
private theorem entry_eq (hpath : files.locate path = .ok location) :
    (files.entry path).toOption = files.at? location := by
  rw [entry, hpath, Except.ok_bind]
  cases files.at? location <;> rfl

/-- A path is that of a directory when its place is one. -/
theorem isDirectory_iff (hpath : files.locate path = .ok location) :
    files.isDirectory path = true ↔ files.at? location = some .directory := by
  rw [isDirectory, entry_eq hpath, beq_iff_eq]

/-- Something stands at a path when it stands at its place. -/
private theorem holds_eq (hpath : files.locate path = .ok location) :
    files.holds path = (files.at? location).isSome := by
  rw [holds, entry_eq hpath]

/-- A directory has a place. -/
theorem exists_of_isDirectory (h : files.isDirectory path = true) :
    ∃ location, files.locate path = .ok location ∧ files.at? location = some .directory := by
  cases hlocate : files.locate path with
  | error problem =>
    rw [isDirectory, entry, hlocate] at h
    cases h
  | ok location => exact ⟨location, rfl, (isDirectory_iff hlocate).1 h⟩

/-- The names in a directory are those of the places in it. -/
theorem mem_names_iff (hpath : files.locate path = .ok location) {name : String} :
    name ∈ files.names path ↔ (files.at? (location ++ [name])).isSome := by
  rw [isSome_at?_iff (by simp), names, hpath, Dict.keys]
  simp only [List.mem_filterMap, List.mem_map, Prod.exists, exists_and_right, exists_eq_right]
  constructor
  · rintro ⟨place, entry, hmem, h⟩
    split at h
    · rename_i last hlast
      split at h
      · rename_i hparent
        cases h
        -- The place in the list is the directory with the name behind it.
        refine ⟨entry, ?_⟩
        rwa [← hparent, List.dropLast_append_getLast? name hlast]
      · cases h
    · cases h
  · rintro ⟨entry, hmem⟩
    exact ⟨_, entry, hmem, by simp⟩

/-- The steps to a directory start in one. -/
private theorem directory_of_foldlM {names : List String} {target : Location}
    (hsteps : names.foldlM files.step location = .ok target)
    (htarget : files.at? target = some .directory) : files.at? location = some .directory := by
  cases names with
  -- Without a step the end is the start.
  | nil =>
    cases hsteps
    exact htarget
  | cons name names =>
    rw [List.foldlM_cons, Except.bind_eq_ok_iff] at hsteps
    obtain ⟨next, hnext, -⟩ := hsteps
    exact (step_eq_ok_iff.1 hnext).1

end Textmate.Files

namespace Textmate.Glob

/-! ## Names of patterns -/

/-- A run in front of a text covers the names that end in it. -/
theorem Wildcard.covers_run_literal {suffix cs : List Char} :
    covers (.run :: suffix.map .literal) cs = true ↔ suffix <:+ cs := by
  induction cs with
  | nil => rw [covers, covers_literal, List.suffix_nil, eq_comm]
  | cons c cs ih =>
    rw [covers, Bool.or_eq_true, covers_literal, ih, List.suffix_cons_iff, eq_comm]

/-- The parts of a name without wildcards spell the name. -/
private theorem Wildcard.text?_literal (name : String) :
    text? (name.toList.map .literal) = some name := by
  rw [text?, Option.map_eq_some_iff]
  refine ⟨name.toList, List.mapM_eq_some_iff.2 ?_, String.ofList_toList⟩
  rw [List.forall₂_map_left_iff, List.forall₂_same]
  exact fun _ _ => rfl

/-- The characters that begin a wildcard. -/
def wildcards : List Char := ['*', '?', '[']

/-- A name without wildcards stands for itself. -/
theorem readParts?_literal {name : List Char} (h : ∀ c ∈ name, c ∉ wildcards) :
    readParts? name = some (name.map .literal) := by
  induction name with
  | nil => rw [readParts?, List.map_nil]
  | cons c cs ih =>
    obtain ⟨hc, hcs⟩ := List.forall_mem_cons.1 h
    simp only [wildcards, List.mem_cons, not_or] at hc
    unfold readParts?
    split <;> simp_all

/-- A name of a pattern that has no wildcards. -/
def literal (name : String) : Segment :=
  .name (name.toList.map .literal)

/-- A name without wildcards is read as itself, as it is not the two stars. -/
private theorem read?_literal {name : String} (h : ∀ c ∈ name.toList, c ∉ wildcards) :
    Segment.read? name = some (literal name) := by
  have hname : name ≠ "**" := by
    rintro rfl
    exact h '*' (by decide) (by decide)
  rw [Segment.read?, if_neg hname, readParts?_literal h]
  rfl

/-! ## Following names -/

/-- Whether names can be followed from the working directory. Its own path is left out in front of
a name, so no empty name may come behind the dots that stand for it. -/
def followable : List String → Bool
  | "" :: _ => false
  | "." :: names => followable names
  | _ => true

/-- The first ones of names that can be followed can be followed. -/
private theorem followable_of_append {names rest : List String}
    (h : followable (names ++ rest) = true) :
    followable names = true := by
  fun_induction followable names with
  | case1 names => exact h
  | case2 names ih => exact ih h
  | case3 names => rfl

/-- A path stands for the working directory when its key is that of a dot. -/
private theorem isHere_iff {path : String} :
    isHere path = true ↔ Path.sortKey path = [(1, "")] := by
  rw [isHere, beq_iff_eq]
  rfl

/-- A piece by itself stands for the working directory only if it is a dot. -/
theorem eq_dot_of_isHere {piece : String} (hne : piece ≠ "") (hslash : '/' ∉ piece.toList)
    (hhere : isHere piece = true) : piece = "." := by
  by_contra hdot
  rw [isHere_iff, Path.sortKey_of_pieces (Path.pieces_of_not_mem hslash), if_neg hne,
    if_neg hdot] at hhere
  exact Path.dot_not_mem_bodyKey [piece] (by rw [hhere]; exact List.mem_singleton_self _)

/-- No piece leads back to the path of the working directory. -/
private theorem isHere_join {path piece : String} (hpath : path ≠ "") (hslash : '/' ∉ piece.toList)
    (hhere : isHere path ≠ true) : isHere (Path.join path piece) ≠ true := by
  rw [Ne, isHere_iff, Path.sortKey_join hpath hslash, List.append_eq_singleton_iff]
  rintro (⟨-, hpiece⟩ | ⟨hkey, -⟩)
  · exact Path.dot_not_mem_bodyKey [piece] (by rw [hpiece]; exact List.mem_singleton_self _)
  · exact hhere (isHere_iff.2 hkey)

section Child

variable {files : Files} {path piece : String} {location : Location}

/-- A piece behind a path is one step further, also where the path is left out. -/
private theorem locate_child (hpath : files.locate path = .ok location)
    (hslash : '/' ∉ piece.toList) (hhere : isHere path = true → path = "." ∧ piece ≠ "") :
    files.locate (child path piece) = files.step location piece := by
  unfold child
  split
  · -- The path `.` is left out before a piece, which then stands alone.
    rename_i h
    obtain ⟨rfl, hne⟩ := hhere h
    rw [Files.locate_name (by decide) (by decide)] at hpath
    rw [Files.locate_name hne hslash, (Files.step_eq_ok_iff.1 hpath).2]
    rfl
  · exact Files.locate_join hpath hslash

/-- The path of a piece stands for the working directory only where dots follow dots. -/
private theorem dots_of_isHere_child (hpath : path ≠ "") (hslash : '/' ∉ piece.toList)
    (hne : isHere path = true → piece ≠ "") (h : isHere (child path piece) = true) :
    isHere path = true ∧ piece = "." ∧ child path piece = "." := by
  -- The path is left out before the piece, or the piece is joined to it.
  by_cases hhere : isHere path = true
  · have hchild : child path piece = piece := if_pos hhere
    rw [hchild] at h ⊢
    have hdot := eq_dot_of_isHere (hne hhere) hslash h
    exact ⟨hhere, hdot, hdot⟩
  · rw [child, if_neg hhere] at h
    exact absurd h (isHere_join hpath hslash hhere)

end Child

/-- A dot leads to the working directory. -/
theorem locate_dot {files : Files} (h : files.at? files.workingDirectory = some .directory) :
    files.locate "." = .ok files.workingDirectory := by
  rw [Files.locate_name (by decide) (by decide)]
  exact Files.step_eq_ok_iff.2 ⟨h, rfl⟩

/-- Names without wildcards are followed one after another. -/
theorem expand_names {files : Files} {names : List String} {path : String}
    {location target : Location} (rest : List Segment)
    (hslash : ∀ name ∈ names, '/' ∉ name.toList) (hpath : files.locate path = .ok location)
    (hhere : isHere path = true → path = "." ∧ followable names = true)
    (hsteps : names.foldlM files.step location = .ok target)
    (htarget : files.at? target = some .directory) :
    ∃ found, expand files (names.map literal ++ rest) path = expand files rest found ∧
      files.locate found = .ok target ∧ (isHere found = true → found = ".") := by
  induction names generalizing path location with
  | nil =>
    cases hsteps
    exact ⟨path, rfl, hpath, fun h => (hhere h).1⟩
  | cons name names ih =>
    have hlocation := Files.directory_of_foldlM hsteps htarget
    rw [List.foldlM_cons, Except.bind_eq_ok_iff] at hsteps
    obtain ⟨next, hnext, hsteps⟩ := hsteps
    have hnextAt := Files.directory_of_foldlM hsteps htarget
    obtain ⟨hname, hnames⟩ := List.forall_mem_cons.1 hslash
    have hne (h : isHere path = true) : name ≠ "" := by
      rintro rfl
      exact Bool.noConfusion (hhere h).2
    have hchild : files.locate (child path name) = .ok next := by
      rw [locate_child hpath hname fun h => ⟨(hhere h).1, hne h⟩, hnext]
    -- The dots are there in every directory, other names when something has them.
    have hfound : (if name = "." ∨ name = ".." then files.isDirectory path
        else files.holds (child path name)) = true := by
      split
      · exact (Files.isDirectory_iff hpath).2 hlocation
      · rw [Files.holds_eq hchild, hnextAt]
        rfl
    -- The name is found, so the search goes on with the path of its place.
    have hstep : expand files ((name :: names).map literal ++ rest) path =
        expand files (names.map literal ++ rest) (child path name) := by
      rw [List.map_cons, List.cons_append, literal, expand, Wildcard.text?_literal]
      simp only [hfound, if_true]
    rw [hstep]
    refine ih hnames hchild (fun h => ?_) hsteps
    obtain ⟨hpathHere, rfl, hdot⟩ :=
      dots_of_isHere_child (Files.ne_empty_of_locate hpath) hname hne h
    exact ⟨hdot, (hhere hpathHere).2⟩

/-- A name with wildcards is searched for among the names of the directory. -/
theorem mem_expand_name_iff {files : Files} {path : String} {parts : List Wildcard}
    (rest : List Segment) (hdirectory : files.isDirectory path = true)
    (hwild : Wildcard.text? parts = none) (hdot : parts.head? ≠ some (.literal '.'))
    {other : String} : other ∈ expand files (.name parts :: rest) path ↔
      ∃ name ∈ files.names path, Wildcard.covers parts name.toList = true ∧
        other ∈ expand files rest (child path name) := by
  rw [expand, hwild]
  simp only [hdirectory, if_true, hdot, if_false, List.flatMap_nil, List.nil_append,
    List.mem_flatMap, List.mem_filter, and_assoc]

/-! ## Below a directory -/

/-- The path that the search gives to names below the directory at a path. -/
def pathBelow (path : String) : List String → String
  | [] => path
  | first :: names => names.foldl Path.join (child path first)

/-- What stands below a directory, and by which paths. -/
theorem mem_below_iff {files : Files} {path : String} {location : Location}
    (hpath : files.locate path = .ok location) {other last : String} :
    (other, last) ∈ below files path ↔
      ∃ names, names.getLast? = some last ∧ (files.at? (location ++ names)).isSome ∧
        other = pathBelow path names := by
  unfold below
  rw [hpath]
  simp only [List.mem_filterMap, Prod.exists]
  constructor
  · rintro ⟨place, entry, hmem, h⟩
    split at h
    · rename_i first names last' hdrop hlast
      split at h
      · rename_i htake
        cases h
        -- A place below the directory starts with the place of the directory.
        have hplace : place = location ++ first :: names := by
          have happend := List.take_append_drop location.length place
          rwa [htake, hdrop, eq_comm] at happend
        subst hplace
        refine ⟨first :: names, by simpa using hlast, ?_, rfl⟩
        exact (Files.isSome_at?_iff (by simp)).2 (List.mem_map_of_mem hmem)
      · cases h
    · cases h
  · rintro ⟨names, hlast, hat, rfl⟩
    -- There is a last name, so something comes behind the place of the directory.
    obtain ⟨first, rest, rfl⟩ := List.exists_cons_of_ne_nil
      (List.ne_nil_of_mem (List.mem_of_getLast? hlast))
    obtain ⟨⟨place, entry⟩, hmem, rfl⟩ := List.mem_map.1 ((Files.isSome_at?_iff (by simp)).1 hat)
    exact ⟨_, entry, hmem, by simp [hlast, pathBelow]⟩

/-- A name behind any number of directories finds what it covers below the directory. -/
theorem mem_expand_deep_iff {files : Files} {path : String} {location : Location}
    (hpath : files.locate path = .ok location) (hat : files.at? location = some .directory)
    {parts : List Wildcard} {other : String} :
    other ∈ expand files [.deep, .name parts] path ↔
      ∃ names last, names.getLast? = some last ∧ Wildcard.covers parts last.toList = true ∧
        (files.at? (location ++ names)).isSome ∧ other = pathBelow path names := by
  rw [expand, if_pos ((Files.isDirectory_iff hpath).2 hat), List.mem_flatMap]
  simp only [expandDeep, expand, Prod.exists, mem_below_iff hpath]
  constructor
  · -- What stands below the directory goes on, and the last name decides.
    rintro ⟨_, last, ⟨names, hlast, hat, rfl⟩, hmem⟩
    split at hmem
    · rename_i hcovers
      exact ⟨names, last, hlast, hcovers, hat, List.mem_singleton.1 hmem⟩
    · cases hmem
  · rintro ⟨names, last, hlast, hcovers, hat, rfl⟩
    exact ⟨_, last, ⟨names, hlast, hat, rfl⟩, by simp [hcovers]⟩

/-- The path that is found for a place leads to it. -/
theorem locate_pathBelow {files : Files} (h : files.IsTree) {path : String} {location : Location}
    {names : List String} (hpath : files.locate path = .ok location)
    (hhere : isHere path = true → path = ".") (hnames : names ≠ [])
    (hat : (files.at? (location ++ names)).isSome) :
    files.locate (pathBelow path names) = .ok (location ++ names) := by
  obtain ⟨first, names, rfl⟩ := List.exists_cons_of_ne_nil hnames
  have hfirst := h.isName_of_isSome hat first (by simp)
  -- The first name may replace the path; the other names are joined to it.
  have hchild : files.locate (child path first) = .ok (location ++ [first]) := by
    rw [locate_child hpath hfirst.2.2 fun h => ⟨hhere h, hfirst.ne_empty⟩,
      Files.step_name (h.directory_of_append hnames hat) hfirst]
  rw [List.append_cons] at hat ⊢
  exact h.locate_foldl_join hchild hat

/-- What the key of a path in front of names is; the working directory is left out. -/
def startKey (path : String) : List (Nat × String) :=
  if isHere path then [] else Path.sortKey path

/-- The key of a path below a directory ends in its names. -/
theorem sortKey_pathBelow {path : String} {names : List String} (hpath : path ≠ "")
    (hne : names ≠ []) (hnames : ∀ name ∈ names, Path.IsName name) :
    Path.sortKey (pathBelow path names) = startKey path ++ names.map (3, ·) := by
  obtain ⟨first, names, rfl⟩ := List.exists_cons_of_ne_nil hne
  obtain ⟨hfirst, hrest⟩ := List.forall_mem_cons.1 hnames
  -- The names stand alone or behind the path; the start of the key tells which.
  rw [pathBelow, startKey, child]
  split
  · rw [Path.sortKey_foldl_join hfirst.ne_empty hrest, Path.sortKey_name hfirst]
    rfl
  · rw [Path.sortKey_foldl_join (Path.join_ne_empty hpath hfirst.2.2) hrest,
      Path.sortKey_join hpath hfirst.2.2, Path.bodyKey_name hfirst, List.append_assoc]
    rfl

/-! ## Patterns that begin with a path -/

/-- A path that stands for itself at the start of a pattern: it has no wildcards, and its pieces
can be followed. -/
structure IsPlain (path : String) : Prop where
  not_mem : ∀ c ∈ path.toList, c ∉ wildcards
  followable : Path.isAbsolute path = true ∨ followable (Path.pieces (Path.join path "**")) = true

-- The characters are those of the path; there is also an instance that goes through all characters.
instance (path : String) : Decidable (IsPlain path) :=
  haveI := List.decidableBAll (· ∉ wildcards) path.toList
  decidable_of_iff
    ((∀ c ∈ path.toList, c ∉ wildcards) ∧
      (Path.isAbsolute path = true ∨ Glob.followable (Path.pieces (Path.join path "**")) = true))
    ⟨fun ⟨hmem, hfollow⟩ => ⟨hmem, hfollow⟩, fun h => ⟨h.not_mem, h.followable⟩⟩

section Patterns

variable {files : Files} {directory name : String} {parts : List Wildcard} {location : Location}

/-- The pattern has the pieces of the directory, the two stars and the name. -/
private theorem pieces_pattern {front : List String} (hdirectory : directory ≠ "")
    (hname : '/' ∉ name.toList)
    (hfront : Path.pieces (Path.join directory "**") = front ++ ["**"]) :
    Path.pieces (Path.join (Path.join directory "**") name) = front ++ ["**", name] := by
  have hdeep : '/' ∉ "**".toList := by decide
  obtain ⟨before, -, hpieces, h⟩ :=
    Path.exists_pieces_join (Path.join_ne_empty hdirectory hdeep) hname
  rw [hpieces]
  rcases h with h | h
  · -- The path ends in the stars, so no slash at its end was left out.
    rw [← h, hfront, List.append_assoc]
    rfl
  · rw [hfront] at h
    exact absurd (List.append_inj_right' h rfl) (by decide)

/-- All names of such a pattern can be read. -/
private theorem mapM_read? {names : List String}
    (hnames : ∀ name ∈ names, ∀ c ∈ name.toList, c ∉ wildcards)
    (hparts : Segment.read? name = some (.name parts)) :
    (names ++ ["**", name]).mapM Segment.read? =
      some (names.map literal ++ [.deep, .name parts]) := by
  refine List.mapM_eq_some_iff.2 (List.rel_append ?_ ?_)
  · rw [List.forall₂_map_right_iff, List.forall₂_same]
    exact fun name hname => read?_literal (hnames name hname)
  · exact .cons rfl (.cons hparts .nil)

/-- The names of a pattern are followed from the root if the first piece is empty, and from the
working directory otherwise. -/
private theorem find?_eq {first : String} {rest : List String} (hdirectory : directory ≠ "")
    (hname : '/' ∉ name.toList)
    (hjoin : Path.pieces (Path.join directory "**") = first :: rest ++ ["**"]) :
    find? files (Path.join (Path.join directory "**") name) =
      if first = "" then ((rest ++ ["**", name]).mapM Segment.read?).map (expand files · "/")
      else ((first :: rest ++ ["**", name]).mapM Segment.read?).map (expand files · ".") := by
  have hstars : '/' ∉ "**".toList := by decide
  have hdeep := Path.join_ne_empty hdirectory hstars
  have hroot := Path.isAbsolute_iff hdeep hjoin
  rw [find?, segments?, pieces_pattern hdirectory hname hjoin, Path.isAbsolute_join hdeep hname]
  -- A pattern whose first piece is empty is absolute, and then the piece is left out.
  by_cases hfirst : first = ""
  · subst hfirst
    rw [if_pos (hroot.2 rfl), if_pos rfl]
    rfl
  · rw [if_neg fun h => hfirst (hroot.1 h), if_neg hfirst]
    split
    · rename_i heq
      exact absurd (List.cons.inj heq).1 hfirst
    · rfl

/-- A path without wildcards in front of a pattern leads to its directory. -/
theorem find?_below (hplain : IsPlain directory)
    (hdirectory : files.locate directory = .ok location)
    (hat : files.at? location = some .directory) (hname : '/' ∉ name.toList)
    (hparts : Segment.read? name = some (.name parts)) :
    ∃ path, files.locate path = .ok location ∧ (isHere path = true → path = ".") ∧
      find? files (Path.join (Path.join directory "**") name) =
        some (expand files [.deep, .name parts] path) := by
  have hne := Files.ne_empty_of_locate hdirectory
  have hdeep : '/' ∉ "**".toList := by decide
  obtain ⟨front, hfront, hjoin, hmem, hsteps⟩ := Files.exists_steps_join hdirectory hdeep
  obtain ⟨first, rest, rfl⟩ := List.exists_cons_of_ne_nil hfront
  have hslash : ∀ piece ∈ first :: rest, '/' ∉ piece.toList := fun piece hpiece =>
    Path.not_mem_of_mem_pieces (hmem piece hpiece)
  have hliteral : ∀ piece ∈ first :: rest, ∀ c ∈ piece.toList, c ∉ wildcards :=
    fun piece hpiece c hc =>
      hplain.not_mem c (Path.mem_of_mem_pieces (hmem piece hpiece) c hc)
  have hroot : Path.isAbsolute directory = true ↔ first = "" := by
    rw [← Path.isAbsolute_join hne hdeep, Path.isAbsolute_iff (Path.join_ne_empty hne hdeep) hjoin]
  rw [find?_eq hne hname hjoin]
  by_cases hfirst : first = ""
  · -- The root is left out of the names, and the search starts there.
    rw [if_pos (hroot.2 hfirst), List.foldlM_cons, Except.bind_eq_ok_iff, hfirst] at hsteps
    obtain ⟨next, hnext, hsteps⟩ := hsteps
    obtain rfl : next = [] := (Files.step_eq_ok_iff.1 hnext).2
    have hstart : files.locate "/" = .ok [] := rfl
    obtain ⟨path, hexpand, hpath, hhere⟩ := expand_names [.deep, .name parts]
      (List.forall_mem_cons.1 hslash).2 hstart (fun h => absurd h (by decide)) hsteps hat
    refine ⟨path, hpath, hhere, ?_⟩
    rw [if_pos hfirst, mapM_read? (List.forall_mem_cons.1 hliteral).2 hparts, Option.map_some,
      hexpand]
  · -- A relative path is followed from the working directory.
    have hrelative : ¬ Path.isAbsolute directory = true := fun h => hfirst (hroot.1 h)
    rw [if_neg hrelative] at hsteps
    have hfollow : followable (first :: rest ++ ["**"]) = true :=
      hjoin ▸ hplain.followable.resolve_left hrelative
    obtain ⟨path, hexpand, hpath, hhere⟩ := expand_names [.deep, .name parts] hslash
      (locate_dot (Files.directory_of_foldlM hsteps hat))
      (fun _ => ⟨rfl, followable_of_append hfollow⟩) hsteps hat
    refine ⟨path, hpath, hhere, ?_⟩
    rw [if_neg hfirst, mapM_read? hliteral hparts, Option.map_some, hexpand]

/-- A pattern that begins with a single name is searched from the working directory. -/
theorem find?_of_name (hne : directory ≠ "") (hslash : '/' ∉ directory.toList)
    (hname : '/' ∉ name.toList) : find? files (Path.join (Path.join directory "**") name) =
      ([directory, "**", name].mapM Segment.read?).map (expand files · ".") := by
  have hdeep : '/' ∉ "**".toList := by decide
  obtain ⟨front, -, hjoin, hpieces⟩ := Path.exists_pieces_join hne hdeep
  rw [Path.pieces_of_not_mem hslash] at hpieces
  -- The name is the one piece in front of the stars.
  have hfront : front = [directory] := by
    rcases hpieces with h | h
    · exact h.symm
    · have hlast := congrArg List.getLast? h
      rw [List.getLast?_concat] at hlast
      exact absurd (Option.some.inj hlast) hne
  rw [hfront] at hjoin
  rw [find?_eq hne hname hjoin, if_neg hne]
  rfl

end Patterns

end Textmate.Glob
