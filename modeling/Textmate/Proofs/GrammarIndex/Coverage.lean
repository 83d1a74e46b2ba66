import Textmate.Proofs.GrammarIndex.Directories

/-!
# What an index of directories covers

An index should cover exactly its directories: every grammar below one of them, and nothing that is
elsewhere. The path of a directory becomes the start of a pattern as it is written, so this holds
where the path has no wildcards, and a bracket in the name of a directory leads to other files or to
none at all.

## Key results

- `GrammarIndex.ofDirectories_covers`: directories whose paths stand for themselves are covered
- `GrammarIndex.ofDirectories_of_wildcards`: the entries that a name with wildcards leads to
- `GrammarIndex.ofDirectories_not_covers`: a directory with brackets in its name is not
-/

namespace Textmate.GrammarIndex

/-! ## Plain directories -/

/-- An index covers directories: it has the scopes of all grammars below them, and its files lie
below them. -/
structure Covers (index : GrammarIndex) (files : Files) (directories : List String) : Prop where
  holds : ∀ directory ∈ directories, ∀ location names text grammar,
    files.locate directory = .ok location → files.HasJson location names →
    files.at? (location ++ names) = some (.file text) → Grammar.parse? text = some grammar →
    index.Holds grammar.scope
  below : ∀ scope path, Dict.find? scope index.paths = some path →
    ∃ directory ∈ directories, ∃ location names, files.locate directory = .ok location ∧
      names ≠ [] ∧ files.locate path = .ok (location ++ names)

variable {files : Files} {index : GrammarIndex} {directories : List String}

/-- An index covers its directories when the search finds all that is below them. -/
private theorem covers_of_findsBelow
    (hdirectories : ∀ directory ∈ directories, files.isDirectory directory = true)
    (hfound : ∀ directory ∈ directories, FindsBelow files directory)
    (hindex : ofDirectories files directories = .ok index) : index.Covers files directories where
  holds directory hdirectory location names text grammar hlocate hnames hfile hparse :=
    (holds_iff hdirectories hfound hindex).2 ⟨directory, hdirectory, location, names, hlocate,
      hnames, text, hfile, Grammar.headerScope?_of_parse? hparse⟩
  below scope path hpath := by
    rw [find?_ofDirectories hdirectories hfound hindex] at hpath
    -- A path in the index was found below one of the directories.
    obtain ⟨directory, hdirectory, hfind⟩ := List.exists_of_findSome?_eq_some hpath
    obtain ⟨location, paths, spell, h⟩ := hfound directory hdirectory
    obtain ⟨names, hnames, rfl⟩ := h.mem_sortedPaths_iff.1 (List.mem_of_find?_eq_some hfind)
    exact ⟨directory, hdirectory, location, names, h.locate, ne_nil_of_hasJson hnames,
      h.locate_path names hnames⟩

/-- Directories whose paths stand for themselves in a pattern are covered by their index. -/
theorem ofDirectories_covers (htree : files.IsTree)
    (hdirectories : ∀ directory ∈ directories, files.isDirectory directory = true)
    (hplain : ∀ directory ∈ directories, Glob.IsPlain directory) :
    ∃ index, ofDirectories files directories = .ok index ∧ index.Covers files directories := by
  have hfound : ∀ directory ∈ directories, FindsBelow files directory := fun directory h =>
    findsBelow_of_isPlain htree (hplain directory h) (hdirectories directory h)
  have hindex := ofDirectories_eq hdirectories hfound
  exact ⟨_, hindex, covers_of_findsBelow hdirectories hfound hindex⟩

/-- A tree in which wildcards stand in the names of files only. -/
def starred : Files where
  workingDirectory := ["home"]
  entries := [(["home"], .directory), (["home", "g"], .directory),
    (["home", "g", "[a]*.json"], .file "\x7b\"scopeName\":\"source.demo\"\x7d"),
    (["home", "g", "sub"], .directory), (["home", "g", "sub", "?.json"], .directory)]

/-- Both paths lead to one directory, which the index covers although its files have wildcards in
their names. -/
theorem ofDirectories_covers_of_starred :
    starred.IsTree ∧ (∀ directory ∈ ["g", "..//home/./g/"], starred.isDirectory directory = true) ∧
      (∀ directory ∈ ["g", "..//home/./g/"], Glob.IsPlain directory) ∧
      ∃ index, ofDirectories starred ["g", "..//home/./g/"] = .ok index ∧
        index.Covers starred ["g", "..//home/./g/"] ∧ index.Holds demo := by
  have htree : starred.IsTree := by decide
  have hdirectories : ∀ directory ∈ ["g", "..//home/./g/"],
      starred.isDirectory directory = true := by decide
  have hplain : ∀ directory ∈ ["g", "..//home/./g/"], Glob.IsPlain directory := by decide
  obtain ⟨index, hindex, hcovers⟩ := ofDirectories_covers htree hdirectories hplain
  refine ⟨htree, hdirectories, hplain, index, hindex, hcovers, ?_⟩
  -- The file is a grammar of the scope, whatever its name.
  have hparse : (Grammar.parse? "\x7b\"scopeName\":\"source.demo\"\x7d").map (·.scope) =
      some demo := by decide +kernel
  obtain ⟨grammar, hgrammar, hscope⟩ := Option.map_eq_some_iff.1 hparse
  rw [← hscope]
  exact hcovers.holds "g" (by simp) ["home", "g"] ["[a]*.json"] _ grammar rfl
    ⟨⟨"[a]*.json", rfl, by decide⟩, by decide⟩ rfl hgrammar

/-! ## Names with wildcards -/

section Wildcards

variable {directory : String} {paths : List String} {scope : ScopeName} {path : String}
  {parts : List Glob.Wildcard}

/-- An index of one directory has what the search finds, sorted, or fails when its path is no
pattern. -/
private theorem ofDirectories_singleton (hdirectory : files.isDirectory directory = true) :
    ofDirectories files [directory] =
      match Glob.find? files (pattern directory) with
      | none => .error .invalidPattern
      | some paths => .ok ((paths.mergeSort Path.sortLE).foldl (addFile files) empty) := by
  rw [ofDirectories, List.foldlM_cons, addDirectory, if_pos hdirectory]
  cases Glob.find? files (pattern directory) <;> rfl

/-- An index that starts empty has the first path with each scope. -/
private theorem find?_foldl_mergeSort :
    Dict.find? scope ((paths.mergeSort Path.sortLE).foldl (addFile files) empty).paths =
      (paths.mergeSort Path.sortLE).find? fun path => scopeOf? files path = some scope := by
  rw [find?_foldl_addFile]
  rfl

/-- A name reads as these parts, with wildcards among them. -/
structure HasWildcards (name : String) (parts : List Glob.Wildcard) : Prop where
  not_mem : '/' ∉ name.toList
  read : Glob.readParts? name.toList = some parts
  text : Glob.Wildcard.text? parts = none
  /-- Otherwise the name could also stand for the directory itself. -/
  head : parts.head? ≠ some (.literal '.')

/-- A directory whose name is no pattern cannot be indexed. -/
private theorem ofDirectories_of_unreadable (hne : directory ≠ "") (hslash : '/' ∉ directory.toList)
    (hdirectory : files.isDirectory directory = true)
    (hread : Glob.Segment.read? directory = none) :
    ofDirectories files [directory] = .error .invalidPattern := by
  rw [ofDirectories_singleton hdirectory, pattern, Glob.find?_of_name hne hslash (by decide),
    List.mapM_cons, hread]
  rfl

/-- The name of an entry beside the directory leads to the entry. -/
private theorem locate_of_isSome (htree : files.IsTree)
    (hworking : files.at? files.workingDirectory = some .directory) {name : String}
    (hat : (files.at? (files.workingDirectory ++ [name])).isSome) :
    files.locate name = .ok (files.workingDirectory ++ [name]) := by
  have hname := htree.isName_of_isSome hat name (by simp)
  rw [Files.locate_name hname.ne_empty hname.2.2, Files.step_name hworking hname]

/-- The path that is found below an entry beside the directory leads to its place. -/
private theorem locate_beside (htree : files.IsTree) {name : String} {names : List String}
    (hnames : files.HasJson (files.workingDirectory ++ [name]) names) :
    files.locate (Glob.pathBelow name names) = .ok (files.workingDirectory ++ name :: names) := by
  have hname := htree.isName_of_isSome hnames.2 name (by simp)
  -- What has a file below it is an entry of the tree.
  have hat := htree.isSome_of_append (ne_nil_of_hasJson hnames) hnames.2
  have hlocate := locate_of_isSome htree (htree.directory_of_append (by simp) hat) hat
  rw [Glob.locate_pathBelow htree hlocate (Glob.eq_dot_of_isHere hname.ne_empty hname.2.2)
    (ne_nil_of_hasJson hnames) hnames.2, List.append_assoc, List.singleton_append]

/-- From the name of a directory that has wildcards, the search goes to all entries beside it that
the name covers. -/
private theorem exists_find?_of_wildcards (htree : files.IsTree) (h : HasWildcards directory parts)
    (hdirectory : files.isDirectory directory = true) :
    ∃ paths, Glob.find? files (pattern directory) = some paths ∧
      ∀ path, path ∈ paths ↔ ∃ name names, Glob.Wildcard.covers parts name.toList = true ∧
        files.HasJson (files.workingDirectory ++ [name]) names ∧
        path = Glob.pathBelow name names := by
  obtain ⟨location, hlocate, -⟩ := Files.exists_of_isDirectory hdirectory
  have hne := Files.ne_empty_of_locate hlocate
  rw [Files.locate_name hne h.not_mem] at hlocate
  have hworking := (Files.step_eq_ok_iff.1 hlocate).1
  -- The name is relative, so the search begins in the working directory.
  have hdot := Glob.locate_dot hworking
  have hread : Glob.Segment.read? directory = some (.name parts) := by
    -- Two stars are a pattern of their own, which has no parts.
    have hdeep : directory ≠ "**" := by
      rintro rfl
      have hstars := h.read
      simp [Glob.readParts?] at hstars
    rw [Glob.Segment.read?, if_neg hdeep, h.read]
    rfl
  have hsegments : [directory, "**", "*.json"].mapM Glob.Segment.read? =
      some [.name parts, .deep, .name nameParts] :=
    List.mapM_eq_some_iff.2 (.cons hread (.cons rfl (.cons read?_nameParts .nil)))
  have hfind : Glob.find? files (pattern directory) =
      some (Glob.expand files [.name parts, .deep, .name nameParts] ".") := by
    rw [pattern, Glob.find?_of_name hne h.not_mem (by decide), hsegments, Option.map_some]
  refine ⟨_, hfind, fun path => ?_⟩
  rw [Glob.mem_expand_name_iff _ ((Files.isDirectory_iff hdot).2 hworking) h.text h.head]
  constructor
  · rintro ⟨name, hmem, hcovers, hpath⟩
    -- Each entry that the name covers is searched like a directory of its own.
    have hat := (Files.mem_names_iff hdot).1 hmem
    obtain ⟨names, hnames, rfl⟩ :=
      (mem_expand_iff htree (locate_of_isSome htree hworking hat)).1 hpath
    exact ⟨name, names, hcovers, hnames, rfl⟩
  · rintro ⟨name, names, hcovers, hnames, rfl⟩
    have hat := htree.isSome_of_append (ne_nil_of_hasJson hnames) hnames.2
    exact ⟨name, (Files.mem_names_iff hdot).2 hat, hcovers,
      (mem_expand_iff htree (locate_of_isSome htree hworking hat)).2 ⟨names, hnames, rfl⟩⟩

/-- The index of a directory whose name has wildcards has the scopes of all entries beside it that
the name covers, and no others. -/
theorem ofDirectories_of_wildcards (htree : files.IsTree) (h : HasWildcards directory parts)
    (hdirectory : files.isDirectory directory = true) :
    ∃ index, ofDirectories files [directory] = .ok index ∧
      (∀ scope, index.Holds scope ↔ ∃ name names, Glob.Wildcard.covers parts name.toList = true ∧
        files.Provides (files.workingDirectory ++ [name]) names scope) ∧
      ∀ scope path, Dict.find? scope index.paths = some path →
        ∃ name names, Glob.Wildcard.covers parts name.toList = true ∧
          files.locate path = .ok (files.workingDirectory ++ name :: names) := by
  obtain ⟨paths, hfind, hmem⟩ := exists_find?_of_wildcards htree h hdirectory
  refine ⟨_, by rw [ofDirectories_singleton hdirectory, hfind], fun scope => ?_,
    fun scope path hpath => ?_⟩
  · -- A scope is indexed when one of the files that are found has it; their order does not matter.
    rw [Holds, ← Option.isSome_iff_exists, find?_foldl_mergeSort, List.find?_isSome]
    simp only [List.mem_mergeSort, decide_eq_true_eq, hmem]
    constructor
    · rintro ⟨_, ⟨name, names, hcovers, hnames, rfl⟩, hscope⟩
      have hprovides := (scopeOf?_iff_of_locate (locate_beside htree hnames)).1 hscope
      rw [List.append_cons] at hprovides
      exact ⟨name, names, hcovers, hnames, hprovides⟩
    · rintro ⟨name, names, hcovers, hnames, hprovides⟩
      rw [← List.append_cons] at hprovides
      exact ⟨_, ⟨name, names, hcovers, hnames, rfl⟩,
        (scopeOf?_iff_of_locate (locate_beside htree hnames)).2 hprovides⟩
  · -- An indexed file is among those that are found.
    rw [find?_foldl_mergeSort] at hpath
    obtain ⟨name, names, hcovers, hnames, rfl⟩ :=
      (hmem path).1 (List.mem_mergeSort.1 (List.mem_of_find?_eq_some hpath))
    exact ⟨name, names, hcovers, locate_beside htree hnames⟩

end Wildcards

/-- A tree with brackets in the names of two directories. -/
def bracketed : Files where
  workingDirectory := ["home"]
  entries := [(["home"], .directory), (["home", "g1"], .directory),
    (["home", "g1", "b.json"], .file "\x7b\"scopeName\":\"source.demo\"\x7d"),
    (["home", "g["], .directory), (["home", "g[1]"], .directory),
    (["home", "g[1]", "a.json"], .file "\x7b\"scopeName\":\"source.a\"\x7d")]

/-- Brackets in a name are read as a choice of characters. -/
private theorem bracketed_hasWildcards :
    HasWildcards "g[1]" [.literal 'g', .oneOf [('1', '1')]] where
  not_mem := by decide
  read := by decide +kernel
  text := rfl
  head := by decide

/-- The index of `g[1]` has the file of the directory `g1` and not its own one, and `g[` cannot be
indexed at all. -/
theorem ofDirectories_not_covers :
    bracketed.IsTree ∧ (∀ directory ∈ ["g[1]", "g["], bracketed.isDirectory directory = true) ∧
      (¬ ∃ index, ofDirectories bracketed ["g[1]"] = .ok index ∧
        index.Covers bracketed ["g[1]"]) ∧
      ofDirectories bracketed ["g["] = .error .invalidPattern := by
  have htree : bracketed.IsTree := by decide
  have hdirectories : ∀ directory ∈ ["g[1]", "g["], bracketed.isDirectory directory = true := by
    decide
  refine ⟨htree, hdirectories, ?_, ?_⟩
  · rintro ⟨index, hindex, hcovers⟩
    obtain ⟨other, hother, hholds, hplaces⟩ :=
      ofDirectories_of_wildcards htree bracketed_hasWildcards (hdirectories "g[1]" (by simp))
    obtain rfl := Except.ok.inj (hindex.symm.trans hother)
    have hprovides : bracketed.Provides ["home", "g1"] ["b.json"] demo :=
      ⟨⟨⟨"b.json", rfl, by decide⟩, by decide⟩, _, rfl, by decide +kernel⟩
    obtain ⟨path, hpath⟩ := (hholds demo).2 ⟨"g1", ["b.json"], by decide +kernel, hprovides⟩
    -- The file with the scope lies beside the directory and not below it.
    obtain ⟨directory, hdirectory, location, names, hlocate, -, hplace⟩ :=
      hcovers.below demo path hpath
    obtain ⟨name, others, hcovered, hbeside⟩ := hplaces demo path hpath
    obtain rfl := List.mem_singleton.1 hdirectory
    obtain rfl : ["home", "g[1]"] = location := Except.ok.inj hlocate
    -- The file would lie in the directory itself, whose name the pattern does not cover.
    obtain rfl : "g[1]" = name := by
      have hsame := Except.ok.inj (hplace.symm.trans hbeside)
      exact (List.cons.inj (List.cons.inj hsame).2).1
    have hown : Glob.Wildcard.covers [.literal 'g', .oneOf [('1', '1')]] "g[1]".toList = false := by
      decide +kernel
    rw [hown] at hcovered
    cases hcovered
  · exact ofDirectories_of_unreadable (by decide) (by decide) (hdirectories "g[" (by simp))
      (by simp [Glob.Segment.read?, Glob.readParts?, Glob.readSet?])

end Textmate.GrammarIndex
