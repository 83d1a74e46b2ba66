import Textmate.Grammar.Basic
import Textmate.Json.Decode
import Textmate.Json.Reader

/-!
# Grammars as JSON

Reading and writing the JSON form of grammars. Members with keys that the library does not know are
kept, the last one of a key; a known key may occur only once. Optional members may be `null`, which
counts as absent.
-/

namespace Textmate

namespace Rule

/-- The members of a rule that the library knows. -/
def knownKeys : List String :=
  ["include", "name", "contentName", "match", "begin", "end", "while", "captures", "beginCaptures",
    "endCaptures", "whileCaptures", "patterns", "repository"]

/-- What is read from a member of a rule. -/
inductive Kind where
  | text
  /-- A list of rules. -/
  | rules
  /-- Rules by names. -/
  | table
  /-- Any value. -/
  | unknown
  deriving DecidableEq

/-- What is read from the member with a given key. -/
def kind : String → Kind
  | "include" | "name" | "contentName" | "match" | "begin" | "end" | "while" => .text
  | "captures" | "beginCaptures" | "endCaptures" | "whileCaptures" | "repository" => .table
  | "patterns" => .rules
  | _ => .unknown

/-- What a member of a rule stands for; a known one may be `null`. -/
inductive Part where
  | text (value : Option String)
  | rules (value : Option (List Rule))
  | table (value : Option Repository)
  | unknown (value : Json)

abbrev Parts := List (String × Part)

namespace Parts

def text (key : String) (parts : Parts) : Option String :=
  match Dict.find? key parts with
  | some (.text value) => value
  | _ => none

def rules (key : String) (parts : Parts) : Option (List Rule) :=
  match Dict.find? key parts with
  | some (.rules value) => value
  | _ => none

def table (key : String) (parts : Parts) : Option Repository :=
  match Dict.find? key parts with
  | some (.table value) => value
  | _ => none

/-- The members that the library does not know. -/
def unknown (parts : Parts) : List (String × Json) :=
  parts.filterMap fun
    | (key, .unknown value) => some (key, value)
    | _ => none

/-- The rule with the given members. -/
def toRule (parts : Parts) : Rule where
  includes := parts.text "include"
  name := parts.text "name"
  contentName := parts.text "contentName"
  matching := parts.text "match"
  beginning := parts.text "begin"
  ending := parts.text "end"
  continuing := parts.text "while"
  captures := parts.table "captures"
  beginCaptures := parts.table "beginCaptures"
  endCaptures := parts.table "endCaptures"
  whileCaptures := parts.table "whileCaptures"
  patterns := parts.rules "patterns"
  repository := parts.table "repository"
  extra := parts.unknown

end Parts

mutual

def ofDocument? : Document → Option Rule
  | .object members => (parts? members).map fun parts => Parts.toRule (Dict.ofList parts)
  | _ => none

/-- What the members of an object stand for, read as members of a rule. -/
def parts? : List (Option String × Document) → Option Parts
  | [] => some []
  | (key, document) :: rest =>
    match key, parts? rest with
    | some key, some parts =>
      -- An unknown member may be repeated, a known one may not.
      if knownKeys.contains key ∧ rest.any (·.1 == some key) then none
      else
        let part : Option Part := match kind key with
          -- The key alone decides how the value is read.
          | .text => (Document.option? Document.string? document).map .text
          | .rules => (list? document).map .rules
          | .table => (table? document).map .table
          | .unknown => document.value?.map .unknown
        part.map fun part => (key, part) :: parts
    | _, _ => none

/-- A list of rules, or `null`. -/
def list? : Document → Option (Option (List Rule))
  | .null => some none
  | .array items => (ofItems? items).map some
  | _ => none

/-- Rules by names, or `null`. -/
def table? : Document → Option (Option Repository)
  | .null => some none
  -- Of several rules with one name the last one counts.
  | .object members => (ofEntries? members).map fun entries => some (Dict.ofList entries)
  | _ => none

/-- The rules that the items of an array stand for. -/
def ofItems? : List Document → Option (List Rule)
  | [] => some []
  | item :: items =>
    match ofDocument? item, ofItems? items with
    | some rule, some rules => some (rule :: rules)
    | _, _ => none

/-- The named rules that the members of an object stand for. -/
def ofEntries? : List (Option String × Document) → Option Repository
  | [] => some []
  | (name, item) :: members =>
    match name, ofDocument? item, ofEntries? members with
    | some name, some rule, some rules => some ((name, rule) :: rules)
    | _, _, _ => none

end

/-- A member if it is there. -/
def member {α : Type} (key : String) (toJson : α → Json) (value : Option α) :
    List (String × Json) :=
  match value with
  | none => []
  | some v => [(key, toJson v)]

mutual

/-- The rule as a value. -/
def toJson : Rule → Json
  | ⟨includes, name, contentName, matching, beginning, ending, continuing, captures, beginCaptures,
      endCaptures, whileCaptures, patterns, repository, extra⟩ =>
    .ofMembers (member "include" .string includes ++ member "name" .string name ++
      member "contentName" .string contentName ++ member "match" .string matching ++
      member "begin" .string beginning ++ member "end" .string ending ++
      member "while" .string continuing ++ tableMember "captures" captures ++
      tableMember "beginCaptures" beginCaptures ++ tableMember "endCaptures" endCaptures ++
      tableMember "whileCaptures" whileCaptures ++ listMember "patterns" patterns ++
      tableMember "repository" repository ++ extra)

/-- Rules as the member of an object, if they are there. -/
def listMember (key : String) : Option (List Rule) → List (String × Json)
  | none => []
  | some rules => [(key, .array (toItems rules))]

/-- Named rules as the member of an object, if they are there. -/
def tableMember (key : String) : Option (List (String × Rule)) → List (String × Json)
  | none => []
  | some rules => [(key, .object (toEntries rules))]

def toItems : List Rule → List Json
  | [] => []
  | rule :: rules => rule.toJson :: toItems rules

/-- Named rules as the members of an object. -/
def toEntries : List (String × Rule) → List (String × Json)
  | [] => []
  | (name, rule) :: rules => (name, rule.toJson) :: toEntries rules

end

end Rule

namespace Grammar

/-- The members of a grammar that the library knows. -/
def knownKeys : List String :=
  ["scopeName", "name", "patterns", "repository", "injections", "injectionSelector", "fileTypes",
    "firstLineMatch"]

/-- The greatest depth to which arrays and objects of a grammar may be nested. -/
def maxDepth : Nat := 127

def scope? (document : Document) : Option ScopeName :=
  document.string?.bind ScopeName.ofString?

def rules? (document : Document) : Option Repository :=
  (Rule.table? document).bind id

/-- The members that the library does not know, each with a value. -/
def unknown? : Document.Members → Option (List (String × Json))
  | [] => some []
  | (key, document) :: rest =>
    match key, unknown? rest with
    | some key, some extra =>
      -- A known member is read by the field that it belongs to.
      if knownKeys.contains key then some extra
      else document.value?.map fun value => (key, value) :: extra
    | _, _ => none

/-- The grammar with the given members. -/
def ofMembers? (members : Document.Members) : Option Grammar := do
  pure {
    scope := ← members.required "scopeName" scope?
    name := ← members.optional "name" Document.string?
    -- The lists and tables of a grammar, unlike those of a rule, are not null.
    patterns := ← members.withDefault "patterns" [] fun d => (Rule.list? d).bind id
    repository := ← members.withDefault "repository" [] rules?
    injections := ← members.withDefault "injections" [] rules?
    injectionSelector := ← members.optional "injectionSelector" Document.string?
    fileTypes := ← members.withDefault "fileTypes" [] (Document.list? Document.string?)
    firstLineMatch := ← members.optional "firstLineMatch" Document.string?
    extra := Dict.ofList (← unknown? members) }

/-- The grammar that a document of any depth stands for. -/
def ofObject? : Document → Option Grammar
  | .object members => ofMembers? members
  | _ => none

/-- The grammar that a value stands for. -/
def ofJson? (value : Json) : Option Grammar :=
  ofObject? (.ofJson value)

/-- The grammar that a document stands for. -/
def ofDocument? (document : Document) : Option Grammar := do
  -- A document that is too deep is refused before anything is read from it.
  guard (document.depth ≤ maxDepth)
  ofObject? document

def parse? (text : String) : Option Grammar :=
  (Document.parse? text).bind ofDocument?

/-- The grammar as a value. -/
def toJson (grammar : Grammar) : Json :=
  let nonEmpty (key : String) (isEmpty : Bool) (value : Json) : List (String × Json) :=
    -- Empty lists and tables are left out, but for the patterns and the repository.
    if isEmpty then [] else [(key, value)]
  .ofMembers ([("scopeName", .string grammar.scope.text)] ++
    Rule.member "name" .string grammar.name ++
    [("patterns", .array (Rule.toItems grammar.patterns)),
      ("repository", .object (Rule.toEntries grammar.repository))] ++
    nonEmpty "injections" grammar.injections.isEmpty
      (.object (Rule.toEntries grammar.injections)) ++
    Rule.member "injectionSelector" .string grammar.injectionSelector ++
    nonEmpty "fileTypes" grammar.fileTypes.isEmpty (.strings grammar.fileTypes) ++
    Rule.member "firstLineMatch" .string grammar.firstLineMatch ++ grammar.extra)

end Grammar

end Textmate
