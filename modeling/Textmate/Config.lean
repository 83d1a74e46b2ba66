import Textmate.Attributes
import Textmate.Injections
import Textmate.Json.Reader
import Textmate.Toml.Reader
import Textmate.Toml.Writer

/-!
# Configuration files

A configuration says where grammars are found, which scopes are injected where, and which languages
and which theme a style is made with. Scope names in it are checked only when a table of them is
asked for. Configurations are kept in TOML files.

Main statement: writing a configuration without permission to overwrite leaves an existing file
alone (`write_of_holds`).
-/

namespace Textmate

/-- A configuration. -/
structure Config where
  grammarDirectories : List String
  /-- The language of the outermost scope. -/
  language : Option Nat
  theme : Option String
  /-- The scopes that are injected into each scope. -/
  injections : List (String × List String)
  /-- The number of each embedded language. -/
  embeddedLanguages : List (String × Nat)
  deriving Repr, DecidableEq

namespace Config

def empty : Config := ⟨[], none, none, [], []⟩

def starter : Config := { empty with grammarDirectories := ["grammars"], language := some 1 }

/-- The path of the configuration if no other is given. -/
def defaultPath : String := "tmreg.toml"

/-- The configuration that a document stands for. -/
def ofDocument? (document : Document) : Option Config := do
  let members ← document.record?
    ["grammar_dirs", "language_id", "theme", "injections", "embedded_languages"] 3
  pure {
    grammarDirectories :=
      ← members.withDefault "grammar_dirs" [] (Document.list? Document.string?)
    language := ← members.optional "language_id" Document.word?
    theme := ← members.optional "theme" Document.string?
    injections :=
      ← members.withDefault "injections" [] (Document.dict? (Document.list? Document.string?))
    embeddedLanguages :=
      ← members.withDefault "embedded_languages" [] (Document.dict? Document.word?) }

/-- The configuration as a value. -/
def toJson (config : Config) : Json :=
  .ofMembers [("grammar_dirs", .strings config.grammarDirectories),
    ("language_id", .ofOption .natural config.language),
    ("theme", .ofOption .string config.theme),
    ("injections",
      .ofMembers (config.injections.map fun (target, list) => (target, .strings list))),
    ("embedded_languages",
      .ofMembers (config.embeddedLanguages.map fun (scope, id) => (scope, .natural id)))]

/-- The configuration that a table stands for. -/
def ofTable? (table : Toml.Entries) : Option Config := do
  let strings := Toml.Value.list? Toml.Value.string?
  let number := Toml.Value.natural? UInt32.size
  pure {
    -- A table that is missing counts as an empty one.
    grammarDirectories := (← table.optional "grammar_dirs" strings).getD []
    language := ← table.optional "language_id" number
    theme := ← table.optional "theme" Toml.Value.string?
    injections := (← table.optional "injections" (Toml.Value.dict? strings)).getD []
    embeddedLanguages := (← table.optional "embedded_languages" (Toml.Value.dict? number)).getD [] }

/-- The configuration that a TOML text stands for. -/
def parse? (text : String) : Option Config :=
  (Toml.parse? text).bind ofTable?

/-- The TOML text of the configuration. -/
def toToml (config : Config) : String :=
  -- Values come before tables, since a header claims what follows it.
  Toml.writeEntry "grammar_dirs" (Toml.writeStrings config.grammarDirectories) ++
    (config.language.elim "" fun id => Toml.writeEntry "language_id" (Text.decimal id)) ++
    (config.theme.elim "" fun path => Toml.writeEntry "theme" (Toml.writeString path)) ++
    Toml.writeTable "injections"
      (config.injections.map fun (target, list) =>
        Toml.writeEntry target (Toml.writeStrings list)) ++
    Toml.writeTable "embedded_languages"
      (config.embeddedLanguages.map fun (scope, id) => Toml.writeEntry scope (Text.decimal id))

/-- The injected scopes of one target; they are checked before the target. -/
def injectionEntry (entry : String × List String) : Except Error (ScopeName × List ScopeName) := do
  -- Of several wrong names the first one in this order is reported.
  let injected ← entry.2.mapM ScopeName.read
  let target ← ScopeName.read entry.1
  .ok (target, injected)

/-- The scopes that are injected into each scope. -/
def injectionTable (config : Config) : Except Error InjectionTable :=
  config.injections.mapM injectionEntry

/-- What grammars are requested with. -/
def configuration (config : Config) : Except Error Configuration := do
  let embedded ← config.embeddedLanguages.mapM fun (scope, id) => do
    .ok (← ScopeName.read scope, id)
  -- Token types are set by requests only.
  .ok ⟨embedded, []⟩

/-- The configuration in a file, or nothing if there is no such file. -/
def load (files : Files) (path : String) : Except Error (Option Config) :=
  if files.holds path then
    match files.read path with
    | .error problem => .error (.file problem)
    | .ok text =>
      -- A file that is there has to be a configuration.
      match parse? text with
      | none => .error .invalidConfig
      | some config => .ok (some config)
  else .ok none

/-- The files with the configuration written to a path. -/
def write (config : Config) (files : Files) (path : String) (overwrite : Bool) :
    Except Error Files :=
  if files.holds path && !overwrite then .error (.configExists path)
  else (files.write path config.toToml).mapError .file

/-- Writing without permission to overwrite leaves an existing file alone. -/
theorem write_of_holds {config : Config} {files : Files} {path : String}
    (h : files.holds path = true) :
    config.write files path false = .error (.configExists path) := by
  simp [write, h]

end Config

end Textmate
