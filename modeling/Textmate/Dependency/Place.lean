import Textmate.Grammar.Basic

/-!
# Places of rules

A rule is found in a grammar at a *place*: the steps that lead to it from the grammar. Rules with
equal content at different places are different rules, and so are rules at the same place of two
grammars that were registered apart, even if the grammars are equal. So a registered grammar carries
a serial number, which tells it apart from the other grammars that were registered for its scope.

A step says at which position of a list it goes on, in a dictionary of rules too, so two rules never
have the same place.
-/

namespace Textmate

/-- A grammar that was registered, with a number that no other grammar of its scope has. -/
structure Definition where
  serial : Nat
  grammar : Grammar

/-- A step from a grammar or a rule to a rule directly inside. -/
inductive Step where
  | pattern (index : Nat)
  /-- To one of the rules that are injected where a selector matches. -/
  | injection (index : Nat)
  /-- To a rule of the repository. -/
  | named (index : Nat)
  /-- To the rule for a capture, in one of the four capture tables. -/
  | capture (table : Fin 4) (index : Nat)
  deriving DecidableEq

/-- The place of a rule. -/
structure Place where
  /-- The scope of the registered grammar. -/
  scope : ScopeName
  /-- The number of the registered grammar. -/
  serial : Nat
  /-- The steps to the rule, the last one first. -/
  steps : List Step
  deriving DecidableEq

def Place.step (place : Place) (step : Step) : Place :=
  { place with steps := step :: place.steps }

/-- A rule together with its place. -/
structure Site where
  place : Place
  rule : Rule

namespace Site

def ofPatterns (place : Place) (rules : List Rule) : List Site :=
  rules.zipIdx.map fun (rule, index) => ⟨place.step (.pattern index), rule⟩

def ofEntries (place : Place) (step : Nat → Step) (entries : Repository) :
    List (String × Site) :=
  entries.zipIdx.map fun ((name, rule), index) => (name, ⟨place.step (step index), rule⟩)

def patterns (site : Site) : List Site :=
  ofPatterns site.place (site.rule.patterns.getD [])

def captureTable (site : Site) (table : Fin 4) (entries : Option Repository) : List Site :=
  (ofEntries site.place (.capture table) (entries.getD [])).map (·.2)

def captures (site : Site) : List Site :=
  site.captureTable 0 site.rule.captures ++ site.captureTable 1 site.rule.beginCaptures ++
    site.captureTable 2 site.rule.endCaptures ++ site.captureTable 3 site.rule.whileCaptures

/-- The repository of the rule, if it has one. -/
def repository? (site : Site) : Option (List (String × Site)) :=
  site.rule.repository.map (ofEntries site.place .named)

end Site

namespace Definition

/-- The place from which all steps into the grammar start. -/
def origin (definition : Definition) : Place :=
  ⟨definition.grammar.scope, definition.serial, []⟩

/-- The rules at the top level: the patterns, and the injections behind them. -/
def top (definition : Definition) : List Site :=
  Site.ofPatterns definition.origin definition.grammar.patterns ++
    (Site.ofEntries definition.origin .injection definition.grammar.injections).map (·.2)

def repository (definition : Definition) : List (String × Site) :=
  Site.ofEntries definition.origin .named definition.grammar.repository

end Definition

namespace Rule

mutual

/-- The places of a rule and of all rules inside it, when the rule is at a given place. -/
def places (place : Place) : Rule → List Place
  | ⟨_, _, _, _, _, _, _, captures, beginCaptures, endCaptures, whileCaptures, patterns,
      repository, _⟩ =>
    place :: (optionalPatternPlaces place patterns ++
      optionalEntryPlaces place (.capture 0) captures ++
      optionalEntryPlaces place (.capture 1) beginCaptures ++
      optionalEntryPlaces place (.capture 2) endCaptures ++
      optionalEntryPlaces place (.capture 3) whileCaptures ++
      optionalEntryPlaces place .named repository)

/-- The places in patterns that may be absent. -/
def optionalPatternPlaces (place : Place) : Option (List Rule) → List Place
  | none => []
  | some rules => patternPlaces place 0 rules

/-- The places in a table that may be absent. -/
def optionalEntryPlaces (place : Place) (step : Nat → Step) :
    Option (List (String × Rule)) → List Place
  | none => []
  | some entries => entryPlaces place step 0 entries

/-- The places in patterns, the first of which has the given index. -/
def patternPlaces (place : Place) (index : Nat) : List Rule → List Place
  | [] => []
  | rule :: rules =>
    rule.places (place.step (.pattern index)) ++ patternPlaces place (index + 1) rules

/-- The places in a table, the first entry of which has the given index. -/
def entryPlaces (place : Place) (step : Nat → Step) (index : Nat) :
    List (String × Rule) → List Place
  | [] => []
  | (_, rule) :: entries =>
    rule.places (place.step (step index)) ++ entryPlaces place step (index + 1) entries

end

end Rule

/-- The places of all rules of a grammar. -/
def Definition.places (definition : Definition) : List Place :=
  Rule.patternPlaces definition.origin 0 definition.grammar.patterns ++
    Rule.entryPlaces definition.origin .injection 0 definition.grammar.injections ++
    Rule.entryPlaces definition.origin .named 0 definition.grammar.repository

end Textmate
