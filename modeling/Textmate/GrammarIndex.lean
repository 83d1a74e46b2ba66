import Textmate.Files.Glob
import Textmate.Grammar.Json
import Textmate.Injections
import Textmate.Loader

/-!
# Directories of grammars

An index of the grammar files below a list of directories by their scopes. Of each file only the
scope is read when the index is made; files without a valid one are passed over, and of several
files with one scope the first one counts. The grammar itself is read when it is asked for.
-/

namespace Textmate

/-- The scope that a document names as the scope of its grammar, if it names one; nothing at all if
the document cannot be the head of a grammar. -/
def Grammar.declaredScope? (document : Document) : Option (Option String) := do
  let members ← document.record? ["scopeName"] 1
  members.optional "scopeName" Document.string?

/-- The paths of grammar files by the scopes of the grammars. -/
structure GrammarIndex where
  paths : List (ScopeName × String)
  deriving DecidableEq

namespace GrammarIndex

def empty : GrammarIndex := ⟨[]⟩

/-- The scope of the grammar in a file. -/
def scopeOf? (files : Files) (path : String) : Option ScopeName := do
  let text ← (files.read path).toOption
  let scope ← (← Grammar.declaredScope? (← Document.parse? text))
  ScopeName.ofString? scope

/-- The index with a further file, unless its scope is missing or taken. -/
def addFile (files : Files) (index : GrammarIndex) (path : String) : GrammarIndex :=
  match scopeOf? files path with
  | none => index
  | some scope =>
    -- The first file of a scope counts.
    if Dict.contains scope index.paths then index else ⟨Dict.insert scope path index.paths⟩

/-- The pattern of the grammar files below a directory. Wildcards in the name of the directory keep
their meaning. -/
def pattern (directory : String) : String :=
  Path.join (Path.join directory "**") "*.json"

/-- The index with all grammar files below a directory, in the order of their paths. -/
def addDirectory (files : Files) (index : GrammarIndex) (directory : String) :
    Except Error GrammarIndex :=
  if files.isDirectory directory then
    match Glob.find? files (pattern directory) with
    | none => .error .invalidPattern
    | some paths => .ok ((paths.mergeSort Path.sortLE).foldl (addFile files) index)
  else .error (.noDirectory directory)

/-- The index of the grammar files below a list of directories. -/
def ofDirectories (files : Files) (directories : List String) : Except Error GrammarIndex :=
  directories.foldlM (addDirectory files) empty

/-- The grammar of a scope, read from its file; no grammar at all if the scope is not indexed. -/
def load (index : GrammarIndex) (files : Files) (scope : ScopeName) :
    Except Error (Option Grammar) :=
  match Dict.find? scope index.paths with
  | none => .ok none
  | some path =>
    match files.read path with
    | .error problem => .error (.file problem)
    | .ok text =>
      match Grammar.parse? text with
      | none => .error .invalidGrammar
      | some grammar =>
        -- The file may have changed since its scope was indexed.
        if grammar.scope = scope then .ok (some grammar)
        else .error (.scopeChanged path scope grammar.scope)

/-- The loader that answers with the indexed grammars. -/
def loader (index : GrammarIndex) (files : Files) (injections : InjectionTable) :
    Loader where
  answer scope :=
    match index.load files scope with
    | .error e => .failure e
    | .ok none => .nothing
    | .ok (some grammar) => .grammar grammar
  injections scope := injections.injectedInto scope
  -- Reading a file takes no turn of the executor.
  delay _ := 0

/-- How many turns a resolution with the indexed grammars can take at most. -/
def turnLimit (index : GrammarIndex) (files : Files)
    (injections : InjectionTable) : Nat :=
  let grammars := (Dict.keys index.paths).filterMap fun scope =>
    match index.load files scope with
    | .ok grammar => grammar
    | .error _ => none
  Loader.turnLimit grammars (Dict.values injections) 0

end GrammarIndex

end Textmate
