import Textmate.Files.Basic
import Textmate.Grammar.Include
import Textmate.Scope.Name
import Textmate.Theme.ColorMap

/-!
# Errors

What can go wrong in the library, as causes. The wording of all of them is `Error.message`.
-/

namespace Textmate

/-- What went wrong. -/
inductive Error where
  /-- No loader has a grammar for the scope. -/
  | missingGrammar (scope : ScopeName)
  /-- Loading the grammar of a scope failed. -/
  | loader (scope : ScopeName) (cause : Error)
  /-- A loader gave up without a reason. -/
  | aborted
  /-- A loader failed for a reason of its own. -/
  | backend (reason : String)
  /-- A text is no scope name. -/
  | invalidScope (problem : ScopeName.Problem)
  | invalidInclude (problem : Include.Problem)
  | invalidGrammar
  /-- A document is not of the expected form. -/
  | invalidDocument
  | invalidConfig
  /-- A text is no pattern of paths. -/
  | invalidPattern
  /-- A language number does not fit into a metadata word. -/
  | languageOutOfRange (id : Nat)
  | theme (problem : ColorMap.Problem)
  /-- An engine cannot compile a grammar. -/
  | engine (reason : String)
  | file (problem : FileProblem)
  /-- A directory of grammars is not there. -/
  | noDirectory (path : String)
  /-- The grammar of a file has another scope than when the file was indexed. -/
  | scopeChanged (path : String) (indexed found : ScopeName)
  /-- A configuration would overwrite another one. -/
  | configExists (path : String)
  deriving DecidableEq

namespace Error

/-- The wording of the error. -/
def message : Error → String
  | .missingGrammar scope => "No grammar provided for " ++ scope.text
  | .loader scope cause => "Loading " ++ scope.text ++ " failed: " ++ cause.message
  | .aborted => "load task failed"
  | .backend reason => reason
  | .invalidScope problem => "Invalid scope name: " ++ problem.message
  | .invalidInclude problem => "Invalid include: " ++ problem.message
  | .invalidGrammar => "Invalid grammar: not a grammar in JSON form"
  | .invalidDocument => "not a JSON document of the expected form"
  | .invalidConfig => "not a configuration in TOML form"
  | .invalidPattern => "not a valid path pattern"
  | .languageOutOfRange id => "Language id " ++ Text.decimal id ++ " does not fit in 8 bits"
  | .theme problem => "Theme error: " ++ problem.message
  | .engine reason => "Engine error: " ++ reason
  | .file problem => problem.message
  | .noDirectory path => "grammar directory " ++ path ++ " does not exist"
  | .scopeChanged path indexed found =>
    path ++ " changed its scopeName from " ++ indexed.text ++ " to " ++ found.text
  | .configExists path =>
    "config already exists at " ++ path ++ " (use --force to overwrite)"

end Error

def ScopeName.read (text : String) : Except Error ScopeName :=
  (ScopeName.ofString text).mapError .invalidScope

end Textmate
