import Textmate.CommandLine.Report
import Textmate.GrammarIndex
import Textmate.Metadata.Reader
import Textmate.Registry
import Textmate.Theme.Json

/-!
# Running commands

What each command does with the files that it finds, as a function from the files and the arguments
to the output and the files that are left behind. Paths in a configuration are found from its
directory.

Main statement: only the command that writes a configuration changes files (`files_of_run`).
-/

namespace Textmate.CommandLine

/-- A report, or the problem that stands in its way. -/
abbrev Result := Except Problem Report

/-- The result of the library, with its error as the problem. -/
def ofLibrary {α : Type} (result : Except Error α) : Except Problem α :=
  result.mapError .library

/-- The text of the file at a path. -/
def readFile (files : Files) (path : String) : Except Problem String :=
  (files.read path).mapError fun problem => .library (.file problem)

/-- The document in a file, read as a value of a type. -/
def readDocument {α : Type} (read : Document → Option α) (files : Files) (path : String) :
    Except Problem α := do
  match (Document.parse? (← readFile files path)).bind read with
  | none => .error (.library .invalidDocument)
  | some value => .ok value

/-- The configuration at a path; the empty one if there is none. -/
def configAt (files : Files) (path : String) : Except Problem Config :=
  (ofLibrary (Config.load files path)).map (·.getD .empty)

/-- The path of the theme: the one that was asked for, or that of the configuration. -/
def themePath (asked : Option String) (config : Config) (configPath : String) : Option String :=
  asked.or (config.theme.map (Path.besideFile configPath))

/-- The theme in a file. If a table of colors is given, the theme has to keep to it. -/
def themeAt (files : Files) (path : String) (table : Option String) : Except Problem Theme := do
  let source ← readDocument ThemeSource.ofDocument? files path
  let colors ← table.mapM (readDocument (Document.list? Document.string?) files)
  ofLibrary ((Theme.ofSource source colors).mapError .theme)

/-- The table of the attributes of a metadata word. -/
def attributeTable (attributes : Attributes) : String :=
  -- Flags go by their names in small letters here, unlike in values for programs.
  let named (names : FlagNames) (bits : UInt8) (none_ : String) :=
    match names.namesIn bits with
    | [] => none_
    | list =>
      Text.joinWith " | " (list.map fun name => String.ofList (name.toList.map Char.toLower))
  Table.render ["Field", "Bits", "Value"]
    [["language", "0-7", Text.decimal attributes.language],
      ["token type", "8-10", named TokenType.names attributes.tokenType.bits "other"],
      ["font style", "11-13", named FontStyle.names attributes.fontStyle.bits "none"],
      ["foreground", "14-22", Text.decimal attributes.foreground],
      ["background", "23-31", Text.decimal attributes.background]]

/-- The injection that an argument asks for. -/
def readInjection (text : String) : Except Problem (ScopeName × ScopeName) :=
  match Text.splitOnce '=' text.toList with
  | none => .error (.notInjection text)
  | some (target, injected) => do
    let target ← ofLibrary (ScopeName.read (String.ofList (Text.trim target)))
    let injected ← ofLibrary (ScopeName.read (String.ofList (Text.trim injected)))
    .ok (target, injected)

/-- Writes the configuration to start with: the report and the files. -/
def runInit (files : Files) (configPath : String) (overwrite : Bool) :
    Except Problem (Report × Files) := do
  let config := Config.starter
  let files ← ofLibrary (config.write files configPath overwrite)
  let directories := "[\"" ++ Text.joinWith "\", \"" config.grammarDirectories ++ "\"]"
  .ok ({
    lines := [.success ("Wrote " ++ configPath), .status "ℹ️" "Grammar directories" directories]
    data := .ofMembers [("path", .string configPath), ("config", config.toJson)] }, files)

/-- The lines about a resolution. -/
def resolutionLines (scope : ScopeName) (indexed fetches : Nat) (resolution : Resolution) :
    List Line :=
  let listed {α : Type} (title : String) (items : List α) (line : α → Line) : List Line :=
    if items.isEmpty then [] else Line.title title ++ items.map line
  [.header ("Resolved " ++ scope.text), .status "📦" "Indexed grammars" (Text.decimal indexed)] ++
    Line.title "Loaded" ++ resolution.loaded.map Line.found ++
    listed "Missing" resolution.missing Line.missing ++
    listed "Partial" resolution.parts Line.rule ++
    [.empty, .text (Table.measures [("Layers", Text.decimal resolution.layers),
      ("Loaded", Text.decimal resolution.loaded.length),
      ("Full", Text.decimal resolution.whole.length),
      ("Partial", Text.decimal resolution.parts.length),
      ("Missing", Text.decimal resolution.missing.length), ("Fetches", Text.decimal fetches)])]

/-- Loads all that a scope depends on. -/
def runResolve (files : Files) (configPath scope : String) (directories injections : List String) :
    Result := do
  let config ← configAt files configPath
  -- Directories of the call come behind those of the configuration.
  let directories := config.grammarDirectories.map (Path.besideFile configPath) ++ directories
  if directories.isEmpty then .error .noDirectories
  else
    let table ← ofLibrary config.injectionTable
    let table := table.merge (← injections.mapM readInjection)
    let index ← ofLibrary (GrammarIndex.ofDirectories files directories)
    let scope ← ofLibrary (ScopeName.read scope)
    let registry := Registry.empty (index.loader files table) (index.turnLimit files table) .none
    let (result, registry) := registry.resolve scope
    let resolution ← ofLibrary (result.getD (.error .aborted))
    .ok {
      lines := resolutionLines scope index.paths.length registry.cache.fetchCount resolution
      data := resolution.toJson
      remarks := if resolution.isComplete then [] else ["Some referenced grammars were not found"] }

/-- The dependencies of a grammar, or of one rule of it. -/
def dependenciesOf (grammar : Grammar) (rule : Option String) : Except Problem Collector :=
  let definition : Definition := ⟨0, grammar⟩
  match rule with
  | none => .ok (Collector.empty.collectAll definition definition)
  | some name =>
    if (grammar.rule? name).isNone then .error (.noRule grammar.scope name)
    else .ok (Collector.empty.collectRule definition definition name)

/-- Lists the dependencies of the grammar in a file. -/
def runScan (files : Files) (file : String) (rule : Option String) : Result := do
  match Grammar.parse? (← readFile files file) with
  | none => .error (.library .invalidGrammar)
  | some grammar =>
    let collector ← dependenciesOf grammar rule
    let visited := collector.visited.length
    let dependencies := collector.dependencies
    let listing : Line :=
      if dependencies.isEmpty then .success "No cross-scope includes"
      else .text (Table.render ["Kind", "Scope", "Rule"] (dependencies.map fun dependency =>
        [dependency.kind, dependency.scope.text, dependency.rule?.getD ""]))
    .ok {
      lines := [.header ("Dependencies of " ++ grammar.scope.text), .status "📄" "File" file,
        .status "🔍" "Rules visited" (Text.decimal visited), listing]
      data := .ofMembers [("scope", .string grammar.scope.text), ("rule", .ofOption .string rule),
        ("visited_rules", .natural visited),
        ("dependencies", .array (dependencies.map (·.toJson)))] }

/-- Packs attributes into a metadata word. -/
def runPack (language : Nat) (tokenType fontStyle : String) (foreground background : Nat) :
    Result :=
  match TokenType.ofName? tokenType with
  | none => .error (.unknownType tokenType)
  | some type =>
    let word := Metadata.pack ⟨language, type, FontStyle.ofWords fontStyle, foreground, background⟩
    let number := Text.decimal word.bits.toNat
    .ok {
      lines := [.word number,
        .text (Table.measures [("Hex", word.hex), ("Binary", word.binary)])]
      data := .ofMembers [("word", .natural word.bits.toNat), ("hex", .string word.hex),
        ("binary", .string word.binary)]
      warnings :=
        -- Values that do not fit are cut off, with a warning.
        (if maxLanguage < language then
          ["language id " ++ Text.decimal language ++ " is truncated to 8 bits"] else []) ++
        (if maxColor < foreground ∨ maxColor < background then
          ["color indices are truncated to 9 bits"] else []) }

/-- Shows the attributes of a metadata word. -/
def runUnpack (text : String) : Result := do
  let word ← (Metadata.read text).mapError .notWord
  .ok {
    lines := [.header ("Metadata " ++ word.hex), .text (attributeTable word.unpack),
      .word word.binary]
    data := .ofMembers [("word", .natural word.bits.toNat), ("attributes", word.unpack.toJson)] }

/-- Shows the metadata word of a path of scopes. -/
def runStyle (files : Files) (configPath : String) (scopes : List String) (language : Option Nat)
    (theme : Option String) : Result := do
  let config ← configAt files configPath
  -- The language of the call, or else that of the configuration, or else none.
  let classifier ← ofLibrary (Classifier.ofConfiguration
    ((language.or config.language).getD 0) (← ofLibrary config.configuration))
  let theme ← match themePath theme config configPath with
    | none => .ok .default
    | some path => themeAt files path none
  match ← ofLibrary (scopes.mapM ScopeName.read) with
  | [] => .error .noScopes
  | root :: inner =>
    let stack := ScopeStack.ofPath classifier root inner
    let word := theme.apply stack.scopes stack.metadata
    .ok {
      lines := [.header ("Style of " ++ stack.display), .status "📊" "Word" word.hex,
        .text (attributeTable word.unpack)]
      data := .ofMembers [("scopes", .strings (stack.scopes.map (·.text))),
        ("word", .natural word.bits.toNat), ("attributes", word.unpack.toJson)] }

/-- Lists the colors of a theme. -/
def runColors (files : Files) (configPath : String) (theme colorMap : Option String) : Result := do
  let config ← configAt files configPath
  match themePath theme config configPath with
  | none => .error .noTheme
  | some path =>
    let theme ← themeAt files path colorMap
    let colors := theme.colors.colors
    -- Entry zero stands for no color and is not listed.
    let rows := (colors.zipIdx.drop 1).map fun (color, index) => [Text.decimal index, color]
    .ok {
      lines := [.header ("🎨 Colors of " ++ theme.name.getD "unnamed theme"),
        .status "📊" "Rules" (Text.decimal theme.rules.length),
        .text (Table.render ["Index", "Color"] rows)]
      data := .ofMembers [("name", .ofOption .string theme.name),
        ("rules", .natural theme.rules.length), ("colors", .strings colors)] }

/-- The paths of all that a call reads, when the files hold its configuration. -/
def Call.inputs (call : Call) (files : Files) : List String :=
  let config := (configAt files call.config).toOption.getD .empty
  match call.command with
  | .resolve _ directories _ =>
    -- A directory is read as a pattern, which can lead to all below its fixed part.
    (config.grammarDirectories.map (Path.besideFile call.config) ++ directories).map Glob.fixedPart
  | .scan file _ => [file]
  | .style _ _ theme => (themePath theme config call.config).toList
  | .colors theme colorMap => (themePath theme config call.config).toList ++ colorMap.toList
  | _ => []

/-- What a command reports, and the files that it leaves behind. -/
def Call.execute (call : Call) (files : Files) : Except Problem (Report × Files) :=
  match call.command with
  | .init overwrite => runInit files call.config overwrite
  | .resolve scope directories injections =>
    (runResolve files call.config scope directories injections).map (·, files)
  | .scan file rule => (runScan files file rule).map (·, files)
  | .pack language tokenType fontStyle foreground background =>
    (runPack language tokenType fontStyle foreground background).map (·, files)
  | .unpack word => (runUnpack word).map (·, files)
  | .style scopes language theme =>
    (runStyle files call.config scopes language theme).map (·, files)
  | .colors theme colorMap => (runColors files call.config theme colorMap).map (·, files)

/-- Runs the program: what it prints, and the files that it leaves behind. -/
def run (files : Files) (colored : Bool) (args : List String) : Output × Files :=
  match Call.ofArguments args with
  | .error stop => (.ofStop stop, files)
  | .ok call =>
    match call.execute files with
    | .error problem => (.ofProblem call colored problem, files)
    | .ok (report, files) => (.ofReport call colored report, files)

/-- Only the command that writes a configuration changes files. -/
theorem files_of_run {files : Files} {colored : Bool} {args : List String} {call : Call}
    (h : Call.ofArguments args = .ok call) (hinit : ∀ overwrite, call.command ≠ .init overwrite) :
    (run files colored args).2 = files := by
  have hexecute : ∃ result : Result, call.execute files = result.map (·, files) := by
    unfold Call.execute
    split
    · rename_i overwrite hc
      exact absurd hc (hinit overwrite)
    -- All other commands hand on the files as they are.
    all_goals exact ⟨_, rfl⟩
  obtain ⟨result, hr⟩ := hexecute
  simp only [run, h, hr]
  cases result <;> rfl

end Textmate.CommandLine
