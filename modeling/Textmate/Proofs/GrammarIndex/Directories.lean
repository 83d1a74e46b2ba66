import Mathlib.Data.Option.Basic
import Mathlib.Data.String.Basic
import Mathlib.Tactic.Push
import Textmate.Proofs.Grammar.RoundTrip
import Textmate.Proofs.GrammarIndex.Found

/-!
# The index of directories

Of each file the index reads only the head, and later the whole grammar. The two readings agree on
the scope, so a scope is indexed with the first file that names it, whatever the other files hold,
and the grammar that is loaded from this file has the scope.

## Key results

- `Grammar.headerScope?_of_parse?`: the head of every grammar names its scope
- `GrammarIndex.find?_foldl_addFile`: adding files keeps the first one of each scope
- `GrammarIndex.Found.find?_sortedPaths_eq_some_iff`: the first file below a directory
- `GrammarIndex.ofDirectories_agrees`: index and loaded grammars agree
-/

namespace Textmate

/-! ## The head of a grammar -/

namespace Grammar

/-- The scope that the head of the text of a grammar names. -/
def headerScope? (text : String) : Option ScopeName := do
  let scope ← (← declaredScope? (← Document.parse? text))
  ScopeName.ofString? scope

/-- The head reads what the whole grammar reads, and asks for less. -/
private theorem declaredScope?_of_readFrom {members : Document.Members} {grammar : Grammar}
    (h : ReadFrom members grammar) :
    declaredScope? (.object members) = some (some grammar.scope.text) := by
  obtain ⟨extra, hextra, -⟩ := Option.map_eq_some_iff.1 h.extra
  -- All keys of a grammar could be read, or it would have none of its unknown members.
  have hkeys : members.all (·.1.isSome) = true := by
    rw [List.all_eq_true]
    intro member hmember
    obtain ⟨key, hkey, -⟩ := of_unknown? hextra member hmember
    rw [hkey]
    rfl
  obtain ⟨document, hfind, hscope⟩ := Document.Members.required_eq_some_iff.1 h.scope
  obtain ⟨text, htext, hofString⟩ := Option.bind_eq_some_iff.1 hscope
  have hoption : Document.option? Document.string? document = some (some text) := by
    cases document with
    | string s => exact congrArg (Option.map some) htext
    | _ => cases htext
  have hoptional : members.optional "scopeName" Document.string? = some (some text) :=
    Document.Members.withDefault_eq_some_iff.2 (.inr ⟨document, hfind, hoption⟩)
  simp only [declaredScope?, Document.record?, Document.members, hkeys, if_true,
    Option.bind_eq_bind, Option.bind_some, hoptional, ScopeName.ofString?_eq_some_iff.1 hofString]

/-- The head of every grammar names its scope. -/
theorem headerScope?_of_parse? {text : String} {grammar : Grammar}
    (h : parse? text = some grammar) : headerScope? text = some grammar.scope := by
  obtain ⟨document, hdocument, hread⟩ := Option.bind_eq_some_iff.1 h
  obtain ⟨-, hobject⟩ := (ofDocument?_eq_some_iff document grammar).1 hread
  cases document with
  | object members =>
    -- A grammar is an object with its scope among the members, which is all that the head needs.
    have hdeclared :=
      declaredScope?_of_readFrom ((ofMembers?_eq_some_iff members grammar).1 hobject)
    simp only [headerScope?, hdocument, hdeclared, Option.bind_eq_bind, Option.bind_some]
    exact ScopeName.ofString?_eq_some_iff.2 rfl
  | _ => cases hobject

end Grammar

/-! ## Files that name a scope -/

namespace Files

/-- At these names below a location there is a grammar file, and its head names the scope. -/
def Provides (files : Files) (location : Location) (names : List String) (scope : ScopeName) :
    Prop :=
  files.HasJson location names ∧
    ∃ text, files.at? (location ++ names) = some (.file text) ∧
      Grammar.headerScope? text = some scope

/-- Below a directory there is a grammar file whose head names the scope. -/
def ProvidesBelow (files : Files) (directory : String) (scope : ScopeName) : Prop :=
  ∃ location names, files.locate directory = .ok location ∧ files.Provides location names scope

/-- The place of the first file of a scope below a directory, in the order of the names. -/
def IsFirstBelow (files : Files) (directory : String) (scope : ScopeName) (place : Location) :
    Prop :=
  ∃ location names, files.locate directory = .ok location ∧ place = location ++ names ∧
    files.Provides location names scope ∧
    ∀ others, files.Provides location others scope → names ≤ others

/-- The place of the first file of a scope below a list of directories. -/
def IsFirst (files : Files) (directories : List String) (scope : ScopeName) (place : Location) :
    Prop :=
  ∃ before directory after, directories = before ++ directory :: after ∧
    (∀ other ∈ before, ¬ files.ProvidesBelow other scope) ∧
    files.IsFirstBelow directory scope place

end Files

namespace GrammarIndex

variable {files : Files} {index : GrammarIndex} {scope : ScopeName}

/-- The scope has a file. -/
def Holds (index : GrammarIndex) (scope : ScopeName) : Prop :=
  ∃ path, Dict.find? scope index.paths = some path

/-- The path of the file of a scope leads to a place. -/
def Places (index : GrammarIndex) (files : Files) (scope : ScopeName) (place : Location) : Prop :=
  ∃ path, Dict.find? scope index.paths = some path ∧ files.locate path = .ok place

/-- The scope at a path is the one in the head of the text there. -/
private theorem scopeOf?_eq_some_iff {path : String} : scopeOf? files path = some scope ↔
    ∃ text, files.read path = .ok text ∧ Grammar.headerScope? text = some scope := by
  have hbind : scopeOf? files path = (files.read path).toOption.bind Grammar.headerScope? := rfl
  rw [hbind, Option.bind_eq_some_iff]
  refine exists_congr fun text => and_congr_left fun _ => ?_
  cases files.read path <;> simp [Except.toOption]

/-- For a path with a place it is the one in the head of the file. -/
theorem scopeOf?_iff_of_locate {path : String} {location : Location}
    (hpath : files.locate path = .ok location) : scopeOf? files path = some scope ↔
      ∃ text, files.at? location = some (.file text) ∧ Grammar.headerScope? text = some scope := by
  simp only [scopeOf?_eq_some_iff, Files.read_eq_ok_iff hpath]

/-! ## Adding files -/

/-- What a further file changes: the path of its scope, if there is none. -/
private theorem find?_addFile_eq (files : Files) (index : GrammarIndex) (path : String)
    (scope : ScopeName) : Dict.find? scope (index.addFile files path).paths =
      (Dict.find? scope index.paths).or
        (if scopeOf? files path = some scope then some path else none) := by
  unfold addFile
  cases hscope : scopeOf? files path with
  | none => simp
  | some other =>
    by_cases hother : other = scope
    · subst hother
      rw [if_pos rfl]
      -- A scope that is indexed already keeps its path.
      cases hfind : Dict.find? other index.paths with
      | none => simp [Dict.contains, hfind, Dict.find?_insert]
      | some found => simp [Dict.contains, hfind]
    · simp only [Option.some.injEq, hother, if_false, Option.or_none]
      split
      · rfl
      · rw [Dict.find?_insert, if_neg hother]

/-- Adding files keeps the first one of each scope. -/
theorem find?_foldl_addFile (files : Files) (index : GrammarIndex) (paths : List String)
    (scope : ScopeName) : Dict.find? scope (paths.foldl (addFile files) index).paths =
      (Dict.find? scope index.paths).or
        (paths.find? fun path => scopeOf? files path = some scope) := by
  induction paths generalizing index with
  | nil => simp
  | cons path paths ih =>
    rw [List.foldl_cons, ih, find?_addFile_eq, Option.or_assoc, List.find?_cons]
    by_cases h : scopeOf? files path = some scope <;> simp [h]

/-! ## Searching directories -/

/-- The paths of the grammar files below a directory in the order in which they are added. -/
def sortedPaths (files : Files) (directory : String) : List String :=
  ((Glob.find? files (pattern directory)).getD []).mergeSort Path.sortLE

/-- An index of directories adds their sorted files, one directory after another. -/
theorem ofDirectories_eq {directories : List String}
    (hdirectories : ∀ directory ∈ directories, files.isDirectory directory = true)
    (hfound : ∀ directory ∈ directories, FindsBelow files directory) :
    ofDirectories files directories =
      .ok ((directories.flatMap (sortedPaths files)).foldl (addFile files) empty) := by
  -- Whatever the index has before, each directory adds its files to it.
  unfold ofDirectories
  generalize empty = index
  induction directories generalizing index with
  | nil => rfl
  | cons directory directories ih =>
    obtain ⟨hdirectory, hrest⟩ := List.forall_mem_cons.1 hdirectories
    obtain ⟨⟨location, paths, path, h⟩, hfoundRest⟩ := List.forall_mem_cons.1 hfound
    have hadd : addDirectory files index directory =
        .ok ((sortedPaths files directory).foldl (addFile files) index) := by
      rw [addDirectory, if_pos hdirectory, sortedPaths, h.find]
      rfl
    rw [List.foldlM_cons, hadd, Except.ok_bind, ih hrest hfoundRest, List.flatMap_cons,
      List.foldl_append]

namespace Found

variable {directory : String} {location : Location} {paths : List String}
  {path : List String → String}

/-- The sorted paths are those of the grammar files below the directory. -/
theorem mem_sortedPaths_iff (h : Found files directory location paths path) {other : String} :
    other ∈ sortedPaths files directory ↔
      ∃ names, files.HasJson location names ∧ other = path names := by
  rw [sortedPaths, h.find, Option.getD_some, List.mem_mergeSort, h.mem_iff]

/-- The scope at such a path is the one that the file provides. -/
private theorem scopeOf?_path_iff (h : Found files directory location paths path)
    {names : List String} (hnames : files.HasJson location names) :
    scopeOf? files (path names) = some scope ↔ files.Provides location names scope := by
  rw [scopeOf?_iff_of_locate (h.locate_path names hnames)]
  exact ⟨fun hscope => ⟨hnames, hscope⟩, And.right⟩

/-- None of the sorted paths has the scope when no file provides it. -/
private theorem find?_sortedPaths_eq_none_iff (h : Found files directory location paths path) :
    (sortedPaths files directory).find? (fun other => scopeOf? files other = some scope) = none ↔
      ¬ files.ProvidesBelow directory scope := by
  rw [List.find?_eq_none]
  constructor
  · rintro hnone ⟨location', names, hlocate, hprovides⟩
    -- The directory lies at one place only.
    obtain rfl := Except.ok.inj (h.locate.symm.trans hlocate)
    exact hnone (path names) (h.mem_sortedPaths_iff.2 ⟨names, hprovides.1, rfl⟩)
      (decide_eq_true ((h.scopeOf?_path_iff hprovides.1).2 hprovides))
  · intro hnone other hother hscope
    obtain ⟨names, hnames, rfl⟩ := h.mem_sortedPaths_iff.1 hother
    exact hnone ⟨location, names, h.locate,
      (h.scopeOf?_path_iff hnames).1 (of_decide_eq_true hscope)⟩

/-- Of the sorted paths the first one with the scope is that of the least names. -/
private theorem least_of_find? (h : Found files directory location paths path) {other : String}
    (hfind : (sortedPaths files directory).find? (fun other => scopeOf? files other = some scope) =
      some other) :
    ∃ names, other = path names ∧ files.Provides location names scope ∧
      ∀ others, files.Provides location others scope → names ≤ others := by
  obtain ⟨hscope, before, after, hsplit, hbefore⟩ := List.find?_eq_some_iff_append.1 hfind
  have hsorted : (sortedPaths files directory).Pairwise fun a b => Path.sortLE a b = true :=
    List.pairwise_mergeSort Path.sortLE_trans Path.sortLE_total _
  obtain ⟨names, hnames, rfl⟩ := h.mem_sortedPaths_iff.1
    (hsplit ▸ List.mem_append_right before List.mem_cons_self)
  refine ⟨names, rfl, (h.scopeOf?_path_iff hnames).1 (of_decide_eq_true hscope),
    fun others hothers => ?_⟩
  have hmem := h.mem_sortedPaths_iff.2 ⟨others, hothers.1, rfl⟩
  -- Another file with the scope cannot come before the first one.
  have hle : Path.sortLE (path names) (path others) = true := by
    rw [hsplit] at hmem hsorted
    rcases List.mem_append.1 hmem with hmem | hmem
    · have hother := (h.scopeOf?_path_iff hothers.1).2 hothers
      simpa [hother] using hbefore _ hmem
    · rcases List.mem_cons.1 hmem with heq | hmem
      · rw [heq]
        simpa using Path.sortLE_total (path names) (path names)
      · exact (List.pairwise_cons.1 (List.pairwise_append.1 hsorted).2.1).1 _ hmem
  rw [h.sortLE_path names others hnames hothers.1] at hle
  exact of_decide_eq_true hle

/-- The first path with a scope is that of the least names. -/
theorem find?_sortedPaths_eq_some_iff (h : Found files directory location paths path)
    {other : String} :
    (sortedPaths files directory).find? (fun other => scopeOf? files other = some scope) =
        some other ↔
      ∃ names, other = path names ∧ files.Provides location names scope ∧
        ∀ others, files.Provides location others scope → names ≤ others := by
  refine ⟨h.least_of_find?, ?_⟩
  rintro ⟨names, rfl, hprovides, hleast⟩
  cases hfind : (sortedPaths files directory).find?
      (fun other => scopeOf? files other = some scope) with
  | none =>
    exact absurd ⟨location, names, h.locate, hprovides⟩ (h.find?_sortedPaths_eq_none_iff.1 hfind)
  | some found =>
    -- What the search finds has the least names too, so it is the same file.
    obtain ⟨others, rfl, hothers, hleastOther⟩ := h.least_of_find? hfind
    rw [le_antisymm (hleast others hothers) (hleastOther names hprovides)]

end Found

section Below

variable {directory : String}

/-- Below a directory that can be searched, no path has the scope when no file provides it. -/
private theorem find?_sortedPaths_eq_none_iff (hfound : FindsBelow files directory) :
    (sortedPaths files directory).find? (fun path => scopeOf? files path = some scope) = none ↔
      ¬ files.ProvidesBelow directory scope := by
  obtain ⟨location, paths, path, h⟩ := hfound
  exact h.find?_sortedPaths_eq_none_iff

/-- The first path with a scope below a directory leads to the first file. -/
private theorem isFirstBelow_iff (hfound : FindsBelow files directory) {place : Location} :
    files.IsFirstBelow directory scope place ↔
      ∃ path, (sortedPaths files directory).find? (fun path => scopeOf? files path = some scope) =
        some path ∧ files.locate path = .ok place := by
  obtain ⟨location, paths, path, h⟩ := hfound
  simp only [h.find?_sortedPaths_eq_some_iff]
  constructor
  · rintro ⟨location', names, hlocate, rfl, hprovides, hleast⟩
    -- The directory has one place.
    obtain rfl := Except.ok.inj (h.locate.symm.trans hlocate)
    exact ⟨path names, ⟨names, rfl, hprovides, hleast⟩, h.locate_path names hprovides.1⟩
  · rintro ⟨_, ⟨names, rfl, hprovides, hleast⟩, hplace⟩
    rw [h.locate_path names hprovides.1] at hplace
    exact ⟨location, names, h.locate, (Except.ok.inj hplace).symm, hprovides, hleast⟩

end Below

section Index

variable {directories : List String}

/-- A scope has the first path with it, in the order of the directories. -/
theorem find?_ofDirectories
    (hdirectories : ∀ directory ∈ directories, files.isDirectory directory = true)
    (hfound : ∀ directory ∈ directories, FindsBelow files directory)
    (hindex : ofDirectories files directories = .ok index) (scope : ScopeName) :
    Dict.find? scope index.paths = directories.findSome? fun directory =>
      (sortedPaths files directory).find? fun path => scopeOf? files path = some scope := by
  rw [ofDirectories_eq hdirectories hfound] at hindex
  rw [← Except.ok.inj hindex, find?_foldl_addFile, List.find?_flatMap]
  rfl

/-- Exactly the scopes that some file names are indexed. -/
theorem holds_iff
    (hdirectories : ∀ directory ∈ directories, files.isDirectory directory = true)
    (hfound : ∀ directory ∈ directories, FindsBelow files directory)
    (hindex : ofDirectories files directories = .ok index) :
    index.Holds scope ↔ ∃ directory ∈ directories, files.ProvidesBelow directory scope := by
  rw [Holds, ← Option.isSome_iff_exists, ← not_iff_not, Option.not_isSome_iff_eq_none,
    find?_ofDirectories hdirectories hfound hindex, List.findSome?_eq_none_iff]
  push Not
  exact forall₂_congr fun directory hdirectory =>
    find?_sortedPaths_eq_none_iff (hfound directory hdirectory)

/-- A scope is indexed with the place of its first file. -/
private theorem places_iff
    (hdirectories : ∀ directory ∈ directories, files.isDirectory directory = true)
    (hfound : ∀ directory ∈ directories, FindsBelow files directory)
    (hindex : ofDirectories files directories = .ok index) {place : Location} :
    index.Places files scope place ↔ files.IsFirst directories scope place := by
  -- The path of a scope comes from the first directory that has a file with it.
  simp only [Places, find?_ofDirectories hdirectories hfound hindex, List.findSome?_eq_some_iff]
  constructor
  · rintro ⟨path, ⟨before, directory, after, rfl, hfind, hbefore⟩, hplace⟩
    refine ⟨before, directory, after, rfl, fun other hother => ?_, ?_⟩
    · exact (find?_sortedPaths_eq_none_iff (hfound other (by simp [hother]))).1
        (hbefore other hother)
    · exact (isFirstBelow_iff (hfound directory (by simp))).2 ⟨path, hfind, hplace⟩
  · rintro ⟨before, directory, after, rfl, hbefore, hfirst⟩
    obtain ⟨path, hfind, hplace⟩ := (isFirstBelow_iff (hfound directory (by simp))).1 hfirst
    refine ⟨path, ⟨before, directory, after, rfl, hfind, fun other hother => ?_⟩, hplace⟩
    exact (find?_sortedPaths_eq_none_iff (hfound other (by simp [hother]))).2
      (hbefore other hother)

end Index

/-! ## Loading -/

/-- No grammar is what is loaded for the scopes without a file. -/
private theorem load_eq_none_iff : index.load files scope = .ok none ↔ ¬ index.Holds scope := by
  rw [Holds, ← Option.isSome_iff_exists, Option.not_isSome_iff_eq_none, load]
  split
  · rename_i hfind
    exact ⟨fun _ => hfind, fun _ => rfl⟩
  · rename_i path hfind
    refine ⟨fun h => ?_, fun h => by cases hfind.symm.trans h⟩
    -- An indexed scope has a grammar or an error, whatever is in its file now.
    split at h
    · cases h
    · split at h
      · cases h
      · split at h <;> cases h

/-- The grammar of a scope is read from its file, and has the scope if there is one. -/
private theorem load_of_scopeOf? {path : String} (hfind : Dict.find? scope index.paths = some path)
    (hscope : scopeOf? files path = some scope) :
    (∃ grammar, index.load files scope = .ok (some grammar) ∧ grammar.scope = scope) ∨
      index.load files scope = .error .invalidGrammar := by
  obtain ⟨text, hread, hheader⟩ := scopeOf?_eq_some_iff.1 hscope
  cases hgrammar : Grammar.parse? text with
  | none =>
    right
    rw [load, hfind]
    simp only [hread, hgrammar]
  | some grammar =>
    -- The head is the one the file had when it was indexed.
    have hsame : grammar.scope = scope :=
      Option.some.inj ((Grammar.headerScope?_of_parse? hgrammar).symm.trans hheader)
    left
    refine ⟨grammar, ?_, hsame⟩
    rw [load, hfind]
    simp only [hread, hgrammar, hsame, if_true]

/-- Index and loaded grammars agree. A scope is indexed exactly when a file below the directories
names it in its head, and then with the first of these files. Without a file there is no grammar;
otherwise the grammar that is loaded has the scope, or its file is no grammar. Every file that is a
grammar makes its scope indexed. -/
theorem ofDirectories_agrees {directories : List String}
    (hdirectories : ∀ directory ∈ directories, files.isDirectory directory = true)
    (hfound : ∀ directory ∈ directories, FindsBelow files directory) :
    ∃ index, ofDirectories files directories = .ok index ∧ ∀ scope,
      (index.Holds scope ↔ ∃ directory ∈ directories, files.ProvidesBelow directory scope) ∧
      (∀ place, index.Places files scope place ↔ files.IsFirst directories scope place) ∧
      (index.load files scope = .ok none ↔ ¬ index.Holds scope) ∧
      (index.Holds scope →
        (∃ grammar, index.load files scope = .ok (some grammar) ∧ grammar.scope = scope) ∨
          index.load files scope = .error .invalidGrammar) ∧
      ∀ directory ∈ directories, ∀ location names text grammar,
        files.locate directory = .ok location → files.HasJson location names →
        files.at? (location ++ names) = some (.file text) →
        Grammar.parse? text = some grammar → grammar.scope = scope → index.Holds scope := by
  obtain ⟨index, hindex⟩ : ∃ index, ofDirectories files directories = .ok index :=
    ⟨_, ofDirectories_eq hdirectories hfound⟩
  refine ⟨index, hindex, fun scope => ⟨holds_iff hdirectories hfound hindex, fun place =>
    places_iff hdirectories hfound hindex, load_eq_none_iff, ?_, ?_⟩⟩
  · rintro ⟨path, hpath⟩
    -- The indexed file has the scope in its head, since it was found by it.
    refine load_of_scopeOf? hpath ?_
    rw [find?_ofDirectories hdirectories hfound hindex] at hpath
    obtain ⟨directory, -, hfind⟩ := List.exists_of_findSome?_eq_some hpath
    simpa using List.find?_some hfind
  · rintro directory hdirectory location names text grammar hlocate hnames hfile hparse rfl
    -- A file that is a grammar names its scope in its head.
    refine (holds_iff hdirectories hfound hindex).2 ⟨directory, hdirectory, location, names,
      hlocate, hnames, text, hfile, Grammar.headerScope?_of_parse? hparse⟩

/-! A tree in which two files name one scope: the first is only the head of a grammar, and the
second is a whole one. Beside the first there is a file that is no document. -/

/-- The scope of both files. -/
def demo : ScopeName := ⟨"source.demo", by decide, by simp, by simp; decide⟩

def twoFiles : Files where
  workingDirectory := ["home"]
  entries := [(["home"], .directory), (["home", "late"], .directory),
    (["home", "late", "demo.json"], .file "\x7b\"scopeName\":\"source.demo\"\x7d"),
    (["home", "soon"], .directory), (["home", "soon", "a.json"], .file "[ nope"),
    (["home", "soon", "b.json"], .file "[\"source.demo\"]")]

/-- The first of the two files is indexed, and loading it fails, as it is no whole grammar. -/
theorem ofDirectories_agrees_of_repeated_scope :
    (∀ directory ∈ ["./soon", "late"], twoFiles.isDirectory directory = true) ∧
      (∀ directory ∈ ["./soon", "late"], FindsBelow twoFiles directory) ∧
      ∃ index, ofDirectories twoFiles ["./soon", "late"] = .ok index ∧
        index.Places twoFiles demo ["home", "soon", "b.json"] ∧
        index.load twoFiles demo ≠ .ok none := by
  have htree : twoFiles.IsTree := by decide
  have hdirectories : ∀ directory ∈ ["./soon", "late"], twoFiles.isDirectory directory = true := by
    decide
  have hplain : ∀ directory ∈ ["./soon", "late"], Glob.IsPlain directory := by decide
  have hfound : ∀ directory ∈ ["./soon", "late"], FindsBelow twoFiles directory :=
    fun directory h => findsBelow_of_isPlain htree (hplain directory h) (hdirectories directory h)
  refine ⟨hdirectories, hfound, ?_⟩
  obtain ⟨index, hindex, hagrees⟩ := ofDirectories_agrees hdirectories hfound
  obtain ⟨-, hplaces, hload, -⟩ := hagrees demo
  have hprovides : twoFiles.Provides ["home", "soon"] ["b.json"] demo :=
    ⟨⟨⟨"b.json", rfl, by decide⟩, by decide⟩, _, rfl, by decide +kernel⟩
  have hleast : ∀ others, twoFiles.Provides ["home", "soon"] others demo →
      ["b.json"] ≤ others := by
    rintro others ⟨⟨⟨name, hlast, hsuffix⟩, hat⟩, text, htext, hheader⟩
    have hmem := (Files.isSome_at?_iff (by simp)).1 hat
    -- There are three places to look at, and one of them has the head.
    have hcases : others = [] ∨ others = ["a.json"] ∨ others = ["b.json"] := by
      simpa [twoFiles, Dict.keys] using hmem
    rcases hcases with rfl | rfl | rfl
    · cases hlast
    · obtain rfl : "[ nope" = text := by
        cases htext
        rfl
      have hbroken : Grammar.headerScope? "[ nope" = none := by decide +kernel
      rw [hbroken] at hheader
      cases hheader
    · exact le_rfl
  -- The file is the first one, and stands in the first directory that has one.
  have hplace : index.Places twoFiles demo ["home", "soon", "b.json"] :=
    (hplaces _).2 ⟨[], "./soon", ["late"], rfl, by simp, ["home", "soon"], ["b.json"], rfl, rfl,
      hprovides, hleast⟩
  exact ⟨index, hindex, hplace, fun h => hload.1 h (hplace.imp fun _ => And.left)⟩

end GrammarIndex

end Textmate
