import Textmate.Json.Basic
import Textmate.Scope.Name

/-!
# Grammars

A grammar is a tree of rules: the patterns at its top level, a repository of named rules, and rules
that are injected where a selector matches. The library follows the includes of rules and leaves
regular expressions to a tokenizer engine; members of a grammar that it does not know are kept as
values.

Dictionaries list their entries in the order of their keys.
-/

namespace Textmate

/-- A rule. -/
structure Rule where
  /-- The text of what the rule includes. -/
  includes : Option String
  /-- Scope of what the rule matches. -/
  name : Option String
  /-- Scope of what lies between begin and end. -/
  contentName : Option String
  /-- Pattern of a rule that matches at once. -/
  matching : Option String
  /-- Pattern at which the rule begins. -/
  beginning : Option String
  /-- Pattern at which the rule ends. -/
  ending : Option String
  /-- Pattern that each further line of the rule has to match. -/
  continuing : Option String
  /-- Rules for the captures of all patterns. -/
  captures : Option (List (String × Rule))
  /-- Rules for the captures of the first pattern. -/
  beginCaptures : Option (List (String × Rule))
  /-- Rules for the captures of the last pattern. -/
  endCaptures : Option (List (String × Rule))
  /-- Rules for the captures of the pattern of further lines. -/
  whileCaptures : Option (List (String × Rule))
  patterns : Option (List Rule)
  /-- Named rules for the includes inside the rule. -/
  repository : Option (List (String × Rule))
  /-- Members that the library does not know. -/
  extra : List (String × Json)

abbrev Repository := List (String × Rule)

namespace Rule

def empty : Rule :=
  ⟨none, none, none, none, none, none, none, none, none, none, none, none, none, []⟩

def including (text : String) : Rule :=
  { empty with includes := some text }

def grouping (patterns : List Rule) : Rule :=
  { empty with patterns := some patterns }

/-- A rule with one regular expression and the scope of its matches. -/
def matchingAs (expression name : String) : Rule :=
  { empty with matching := some expression, name := some name }

def captureTables (rule : Rule) : List Repository :=
  [rule.captures, rule.beginCaptures, rule.endCaptures, rule.whileCaptures].filterMap id

end Rule

/-- A grammar. -/
structure Grammar where
  scope : ScopeName
  name : Option String
  /-- The rules at the top level. -/
  patterns : List Rule
  repository : Repository
  /-- Rules for the places that selectors match. -/
  injections : Repository
  /-- Selector of the scopes into which the grammar injects itself. -/
  injectionSelector : Option String
  /-- Endings of the names of files in the grammar's language. -/
  fileTypes : List String
  /-- Pattern of the first line of files in the grammar's language. -/
  firstLineMatch : Option String
  /-- Members that the library does not know. -/
  extra : List (String × Json)

namespace Grammar

def empty (scope : ScopeName) : Grammar :=
  ⟨scope, none, [], [], [], none, [], none, []⟩

/-- The grammar with a further rule at its top level. -/
def addPattern (grammar : Grammar) (rule : Rule) : Grammar :=
  { grammar with patterns := grammar.patterns ++ [rule] }

def setRule (grammar : Grammar) (name : String) (rule : Rule) : Grammar :=
  { grammar with repository := Dict.insert name rule grammar.repository }

/-- The grammar with a rule for the places that a selector matches. -/
def setInjection (grammar : Grammar) (selector : String) (rule : Rule) : Grammar :=
  { grammar with injections := Dict.insert selector rule grammar.injections }

def rule? (grammar : Grammar) (name : String) : Option Rule :=
  Dict.find? name grammar.repository

end Grammar

end Textmate
