import Textmate.GrammarIndex
import Textmate.Proofs.Files.Search

/-!
# Files found below a directory

What the search for grammar files below a directory should find, and when it does: the path of the
directory becomes the start of a pattern, so it must not have wildcards in it.

## Key results

- `GrammarIndex.findsBelow_of_isPlain`: below a directory whose path stands for itself in a pattern
  the search finds all that it should, and nothing else
-/

namespace Textmate

/-- At these names below a location there is an entry whose name ends in `.json`. -/
def Files.HasJson (files : Files) (location : Location) (names : List String) : Prop :=
  (∃ name, names.getLast? = some name ∧ ".json".toList <:+ name.toList) ∧
    (files.at? (location ++ names)).isSome

namespace GrammarIndex

/-- The search below a directory found exactly the entries whose names end in `.json`. The path of
each one leads to it, and the paths are sorted as the names of the entries are. -/
structure Found (files : Files) (directory : String) (location : Location) (paths : List String)
    (path : List String → String) : Prop where
  locate : files.locate directory = .ok location
  find : Glob.find? files (pattern directory) = some paths
  mem_iff : ∀ other, other ∈ paths ↔ ∃ names, files.HasJson location names ∧ other = path names
  locate_path : ∀ names, files.HasJson location names →
    files.locate (path names) = .ok (location ++ names)
  sortLE_path : ∀ names others, files.HasJson location names → files.HasJson location others →
    Path.sortLE (path names) (path others) = decide (names ≤ others)

/-- The search for grammar files below a directory finds what it should. -/
def FindsBelow (files : Files) (directory : String) : Prop :=
  ∃ location paths path, Found files directory location paths path

/-- The parts of the pattern for the names of grammar files. -/
def nameParts : List Glob.Wildcard :=
  .run :: ".json".toList.map .literal

/-- The last segment of the pattern is read as a run and an ending. -/
theorem read?_nameParts : Glob.Segment.read? "*.json" = some (.name nameParts) := by
  have hliteral : ∀ c ∈ ".json".toList, c ∉ Glob.wildcards := by simp [Glob.wildcards]
  have hparts : Glob.readParts? ('*' :: ".json".toList) = some nameParts := by
    rw [Glob.readParts?, Glob.readParts?_literal hliteral]
    · rfl
    · intro rest h
      exact absurd (List.cons.inj h).1 (by decide)
  rw [Glob.Segment.read?, if_neg (by decide)]
  exact congrArg (Option.map Glob.Segment.name) hparts

variable {files : Files} {location : Location} {directory start : String} {names : List String}

/-- A grammar file has a name below its directory. -/
theorem ne_nil_of_hasJson (h : files.HasJson location names) : names ≠ [] := by
  obtain ⟨⟨name, hlast, -⟩, -⟩ := h
  exact List.ne_nil_of_mem (List.mem_of_getLast? hlast)

/-- Below a place the pattern for grammar files finds exactly the entries that have their names. -/
theorem mem_expand_iff (htree : files.IsTree) (hstart : files.locate start = .ok location)
    {path : String} : path ∈ Glob.expand files [.deep, .name nameParts] start ↔
      ∃ names, files.HasJson location names ∧ path = Glob.pathBelow start names := by
  by_cases hat : files.at? location = some .directory
  · rw [Glob.mem_expand_deep_iff hstart hat]
    simp only [nameParts, Glob.Wildcard.covers_run_literal, Files.HasJson]
    constructor
    · rintro ⟨names, last, hlast, hsuffix, hat, rfl⟩
      exact ⟨names, ⟨⟨last, hlast, hsuffix⟩, hat⟩, rfl⟩
    · rintro ⟨names, ⟨⟨last, hlast, hsuffix⟩, hat⟩, rfl⟩
      exact ⟨names, last, hlast, hsuffix, hat, rfl⟩
  · -- There is nothing below a place that is no directory.
    have hfile : files.isDirectory start ≠ true := fun h => hat ((Files.isDirectory_iff hstart).1 h)
    rw [Glob.expand, if_neg hfile]
    refine ⟨fun h => (by cases h), ?_⟩
    rintro ⟨names, hnames, -⟩
    exact absurd (htree.directory_of_append (ne_nil_of_hasJson hnames) hnames.2) hat

/-- Below a directory whose path stands for itself in a pattern the search finds what it should. -/
theorem findsBelow_of_isPlain (htree : files.IsTree) (hplain : Glob.IsPlain directory)
    (hdirectory : files.isDirectory directory = true) : FindsBelow files directory := by
  obtain ⟨location, hlocate, hat⟩ := Files.exists_of_isDirectory hdirectory
  obtain ⟨start, hstart, hhere, hfind⟩ :=
    Glob.find?_below hplain hlocate hat (by decide) read?_nameParts
  -- The keys of found paths differ in their names only, which decide their order.
  have hkey {names : List String} (h : files.HasJson location names) :
      Path.sortKey (Glob.pathBelow start names) = Glob.startKey start ++ names.map (3, ·) :=
    Glob.sortKey_pathBelow (Files.ne_empty_of_locate hstart) (ne_nil_of_hasJson h)
      fun name hname => htree.isName_of_isSome h.2 name (List.mem_append_right _ hname)
  exact ⟨location, _, Glob.pathBelow start, hlocate, hfind,
    fun path => mem_expand_iff htree hstart,
    fun names h => Glob.locate_pathBelow htree hstart hhere (ne_nil_of_hasJson h) h.2,
    fun names others h hothers => Path.sortLE_names (hkey h) (hkey hothers)⟩

end GrammarIndex

end Textmate
