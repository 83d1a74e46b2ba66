import Textmate.Error
import Textmate.Scope.Selector
import Textmate.Text.Pattern
import Textmate.Text.WordChar

/-!
# Attributes of scopes

Two properties of scope names decide about the metadata of a token.

* The language: the number of the longest embedded language that starts the scope.
* The token type: that of the first of the words `comment`, `string`, `regex` and `meta.embedded`
  which stands in the scope between two boundaries of words. Selectors can set another type for the
  paths that they match; of several the last one counts.

A `Classifier` answers both for the scopes of one grammar. It finds the language with one pattern
for all scopes of its table, and remembers what it was asked.

Main statement: in a classifier every language fits into a metadata word (`language_le`).
-/

namespace Textmate

/-- What a grammar is requested with. -/
structure Configuration where
  /-- The number of each embedded language. -/
  embeddedLanguages : List (ScopeName × Nat)
  /-- The token type that each selector sets. -/
  tokenTypes : List (String × TokenType)
  deriving DecidableEq

namespace Configuration

def empty : Configuration := ⟨[], []⟩

/-- The configuration that a document stands for. -/
def ofDocument? (document : Document) : Option Configuration := do
  let members ← document.record? ["embedded_languages", "token_types"] 0
  let languages ← members.withDefault "embedded_languages" [] (Document.dict? Document.word?)
  let named ← languages.mapM fun (scope, id) => (ScopeName.ofString? scope).map (·, id)
  let types ← members.withDefault "token_types" [] (Document.dict? TokenType.ofDocument?)
  pure ⟨named, types⟩

end Configuration

/-- Language and token type of a scope. -/
structure ScopeAttributes where
  /-- The language, zero for that of the scope around. -/
  language : Nat
  /-- The token type, none for that of the scope around. -/
  tokenType : Option TokenType
  deriving Repr, DecidableEq

/-- What the attributes of a scope change in the metadata of the scope around. -/
def ScopeAttributes.toPatch (a : ScopeAttributes) : Patch :=
  { Patch.empty with
    -- Zero is no language, so it changes nothing.
    language := if a.language = 0 then none else some a.language
    tokenType := a.tokenType }

/-- The words that stand for token types. -/
def typeWords : List (List Char × TokenType) :=
  [("comment".toList, .comment), ("string".toList, .string), ("regex".toList, .regex),
    ("meta.embedded".toList, .other)]

/-- The type of a word that stands at the start of a text, with boundaries on both sides; `before`
is the character in front of the text. -/
def typeAtStart? (before : Option Char) (cs : List Char) : Option TokenType :=
  -- The word has to begin at a boundary and to end at one.
  if Text.isBoundary before cs.head? then
    typeWords.findSome? fun (word, type) =>
      match Text.afterStart? word cs with
      | some rest => if Text.isBoundary word.getLast? rest.head? then some type else none
      | none => none
  else none

/-- The type of the first word in a text that stands for one. -/
def firstType? (before : Option Char) : List Char → Option TokenType
  | [] => none
  -- A word further to the left wins, whatever the order of the words is.
  | c :: cs => (typeAtStart? before (c :: cs)).or (firstType? (some c) cs)

/-- The token type of a scope by the words in its name. -/
def ScopeName.standardType? (scope : ScopeName) : Option TokenType :=
  firstType? none scope.text.toList

/-- Finds the language of a scope among those of a table. -/
structure LanguageFinder where
  /-- The numbers of the languages by the texts of their scopes. -/
  languages : List (String × Nat)
  /-- What matches the starts of scopes with a language. -/
  pattern : Text.Pattern

namespace LanguageFinder

/-- The patterns for the scopes of a table as texts, in the order in which they are tried. -/
def alternatives (embedded : List (ScopeName × Nat)) : List String :=
  let texts := embedded.map fun (scope, _) =>
    String.ofList (Text.Pattern.escape scope.text.toList)
  -- In the order of texts a scope stands in front of those that go on from it.
  (Dict.keys (Dict.ofList (texts.map fun text => (text, ())))).reverse

/-- One of several scopes at the start of a text, with the end of the text or a dot behind it. -/
def patternOf (first : String) (others : List String) : Text.Pattern :=
  let scopes := .firstOf (.ofEscaped first.toList) (others.map fun text => .ofEscaped text.toList)
  .both .start (.both (.group scopes) (.either .stop (.literal '.')))

/-- The finder for a table, unless the table is empty. -/
def ofTable? (embedded : List (ScopeName × Nat)) : Option LanguageFinder :=
  match alternatives embedded with
  | [] => none
  | first :: others =>
    -- The texts in the table are those of the scopes, as they stand in a match.
    some ⟨embedded.map fun (scope, id) => (scope.text, id), patternOf first others⟩

/-- The language that is found for a scope. -/
def find? (finder : LanguageFinder) (scope : ScopeName) : Option Nat := do
  let place ← finder.pattern.first? scope.text.toList
  -- The group holds the scope without the dot behind it.
  let piece ← place.kept
  Dict.find? (String.ofList piece) finder.languages

end LanguageFinder

/-- The language of the longest scope of a table that starts a scope. -/
def languageOf? (embedded : List (ScopeName × Nat)) (scope : ScopeName) : Option Nat :=
  (LanguageFinder.ofTable? embedded).bind (·.find? scope)

/-- Answers for the scopes of one grammar. -/
structure Classifier where
  initial : Nat
  /-- The number of each embedded language. -/
  embedded : List (ScopeName × Nat)
  /-- The selectors that set token types, in the order in which they are tried. -/
  overrides : List (Selector × TokenType)
  /-- The answers for the scopes that were asked for so far. -/
  known : List (ScopeName × ScopeAttributes)

namespace Classifier

/-- The first language number that does not fit into a metadata word. -/
def outOfRange? (initial : Nat) (embedded : List (ScopeName × Nat)) : Option Nat :=
  (initial :: embedded.map (·.2)).find? (maxLanguage < ·)

/-- The classifier of a grammar with a language and a configuration. -/
def ofConfiguration (initial : Nat) (configuration : Configuration) : Except Error Classifier :=
  match outOfRange? initial configuration.embeddedLanguages with
  | some id => .error (.languageOutOfRange id)
  | none =>
    .ok ⟨initial, configuration.embeddedLanguages,
      configuration.tokenTypes.flatMap fun (text, type) =>
        (Selector.parseList text).map (·, type), []⟩

def root (classifier : Classifier) : ScopeAttributes :=
  ⟨classifier.initial, none⟩

/-- What the name of a scope inside the grammar's own scope says about it. -/
def classify (classifier : Classifier) (scope : ScopeName) : ScopeAttributes :=
  ⟨(languageOf? classifier.embedded scope).getD 0, scope.standardType?⟩

/-- The attributes of a scope inside the grammar's own scope, and the classifier that remembers
them. -/
def ask (classifier : Classifier) (scope : ScopeName) : ScopeAttributes × Classifier :=
  -- What was asked before is not looked for again.
  match Dict.find? scope classifier.known with
  | some attributes => (attributes, classifier)
  | none =>
    let attributes := classifier.classify scope
    (attributes, { classifier with known := Dict.insert scope attributes classifier.known })

/-- The attributes of several scopes, asked for one after another. -/
def askAll (classifier : Classifier) : List ScopeName → List ScopeAttributes × Classifier
  | [] => ([], classifier)
  | scope :: scopes =>
    let (attributes, asked) := classifier.ask scope
    let (others, last) := asked.askAll scopes
    (attributes :: others, last)

def attributes (classifier : Classifier) (scope : ScopeName) : ScopeAttributes :=
  (classifier.ask scope).1

/-- The token type that the last matching selector sets for a path of scopes, outermost first. -/
def override? (classifier : Classifier) (path : List ScopeName) : Option TokenType :=
  -- Of several selectors that match, the last one counts.
  ((classifier.overrides.filter fun (selector, _) => selector.selects path).getLast?).map (·.2)

/-- A classifier is made when all languages are in range, and then it has the rules of the
configuration and remembers nothing. -/
theorem ofConfiguration_eq_ok_iff {initial : Nat} {configuration : Configuration}
    {classifier : Classifier} : ofConfiguration initial configuration = .ok classifier ↔
      outOfRange? initial configuration.embeddedLanguages = none ∧
        classifier = ⟨initial, configuration.embeddedLanguages,
          configuration.tokenTypes.flatMap fun (text, type) =>
            (Selector.parseList text).map (·, type), []⟩ := by
  unfold ofConfiguration
  cases outOfRange? initial configuration.embeddedLanguages with
  | some id => simp
  | none => simp [eq_comm]

/-- No language is out of range when all of them fit into a metadata word. -/
theorem outOfRange?_eq_none_iff {initial : Nat} {embedded : List (ScopeName × Nat)} :
    outOfRange? initial embedded = none ↔
      initial ≤ maxLanguage ∧ ∀ entry ∈ embedded, entry.2 ≤ maxLanguage := by
  simp only [outOfRange?, List.find?_eq_none, List.forall_mem_cons, List.forall_mem_map,
    decide_eq_true_eq, Nat.not_lt]

/-- In a classifier every language fits into a metadata word. -/
theorem language_le {initial : Nat} {configuration : Configuration} {classifier : Classifier}
    (h : ofConfiguration initial configuration = .ok classifier) :
    classifier.initial ≤ maxLanguage ∧ ∀ entry ∈ classifier.embedded, entry.2 ≤ maxLanguage := by
  obtain ⟨hnone, rfl⟩ := ofConfiguration_eq_ok_iff.1 h
  exact outOfRange?_eq_none_iff.1 hnone

end Classifier

end Textmate
