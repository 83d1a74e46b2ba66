import Textmate.Attributes
import Textmate.Dependency.Place
import Textmate.Injections
import Textmate.Theme.Basic
import Textmate.Token

/-!
# The grammar store

A store holds the registered grammars, the scopes injected into each, the current theme, and the
grammars that were compiled under it. Compiling is the work of an *engine*, which gets a snapshot of
the store. A compiled grammar is kept for its scope until the theme changes, so the first
configuration with which a scope is requested counts.

Main statements: registering a grammar changes what its own scope stands for, and nothing else
(`lookup_register`, `injectionsInto_register`).
-/

namespace Textmate

/-- All that an engine needs to compile a grammar. -/
structure Source where
  scope : ScopeName
  language : Nat
  /-- Answers for scopes inside the grammar. -/
  classifier : Classifier
  definitions : List (ScopeName × Definition)
  /-- The scopes injected into each scope. -/
  injections : InjectionTable
  theme : Theme

namespace Source

def grammar? (source : Source) (scope : ScopeName) : Option Grammar :=
  (Dict.find? scope source.definitions).map (·.grammar)

def root? (source : Source) : Option Grammar :=
  source.grammar? source.scope

/-- The scopes injected into the scope of the grammar. -/
def injected (source : Source) : List ScopeName :=
  source.injections.injectedInto source.scope

def listedInjections (source : Source) : List Grammar :=
  source.injected.filterMap source.grammar?

/-- All grammars that are injected: first the registered ones among the injected scopes, then the
others that inject themselves by a selector, in the order of their scopes. -/
def injectionGrammars (source : Source) : List Grammar :=
  let listed := source.listedInjections
  let grammars := (Dict.values source.definitions).map (·.grammar)
  -- A grammar that is listed is not injected a second time for its selector.
  let others := grammars.filter fun grammar =>
    grammar.injectionSelector.isSome && !listed.any (·.scope = grammar.scope)
  listed ++ others.mergeSort fun a b => a.scope.text ≤ b.scope.text

/-- Scope, language and sizes of the snapshot. -/
def describe (source : Source) : String :=
  "GrammarSource \x7b scope_name: " ++ source.scope.describe ++
    ", language_id: " ++ Text.decimal source.language ++
    ", grammars: " ++ Text.decimal source.definitions.length ++
    ", injections: " ++ Text.decimal source.injections.length ++ " \x7d"

end Source

/-- A compiled grammar, which turns lines into tokens. The state behind the line before is given
from the second line on. -/
structure Tokenizer where
  scope : ScopeName
  tokenize : String → Option StateStack → TokenizedLine
  /-- The packed tokens of a line. -/
  pack : String → Option StateStack → PackedLine

/-- What compiles grammars. -/
structure Engine where
  name : String
  /-- Compiles a grammar; the number counts the calls of the engine. -/
  compile : Nat → Source → Except Error Tokenizer

/-- The engine that compiles nothing. -/
def Engine.none : Engine :=
  ⟨"none", fun _ source =>
    .error (.engine ("no tokenizer engine configured to compile " ++ source.scope.text))⟩

/-- A compiled grammar with the call of the engine that made it. -/
structure Handle where
  number : Nat
  source : Source
  tokenizer : Tokenizer

/-- A grammar store. -/
structure Store where
  engine : Engine
  /-- The registered grammars by their scopes. -/
  definitions : List (ScopeName × Definition)
  /-- The scopes injected into each scope. -/
  injections : InjectionTable
  /-- The compiled grammars by their scopes. -/
  compiled : List (ScopeName × Handle)
  theme : Theme
  /-- How often the engine was called so far. -/
  calls : Nat

namespace Store

/-- The store without grammars and with the default theme. -/
def empty (engine : Engine) : Store :=
  ⟨engine, [], [], [], .default, 0⟩

def lookup (store : Store) (scope : ScopeName) : Option Definition :=
  Dict.find? scope store.definitions

def injectionsInto (store : Store) (scope : ScopeName) : List ScopeName :=
  store.injections.injectedInto scope

/-- The scopes of the registered grammars, in order. -/
def scopes (store : Store) : List ScopeName :=
  Dict.keys store.definitions

/-- A grammar as the next one that is registered for its scope. -/
def define (store : Store) (grammar : Grammar) : Definition :=
  match store.lookup grammar.scope with
  | none => ⟨0, grammar⟩
  | some earlier => ⟨earlier.serial + 1, grammar⟩

/-- The store with a grammar registered for its scope, in the place of an earlier one. An empty list
of injected scopes leaves an earlier list in place. -/
def register (store : Store) (grammar : Grammar) (injected : List ScopeName) : Store :=
  { store with
    definitions := Dict.insert grammar.scope (store.define grammar) store.definitions
    injections :=
      -- No list says nothing about what was injected before.
      if injected.isEmpty then store.injections
      else Dict.insert grammar.scope injected store.injections }

/-- What an engine gets to compile a grammar. -/
def snapshot (store : Store) (scope : ScopeName) (language : Nat) (classifier : Classifier) :
    Source :=
  ⟨scope, language, classifier, store.definitions, store.injections, store.theme⟩

/-- The compiled grammar of a registered scope, and the store in which it is kept. Nothing is
compiled when the scope has a compiled grammar or is not registered. A call of the engine counts
also when it fails. -/
def compile (store : Store) (scope : ScopeName) (language : Nat) (configuration : Configuration) :
    Except Error (Option Handle) × Store :=
  -- What was compiled is kept, whatever was registered or is configured by now.
  match Dict.find? scope store.compiled with
  | some handle => (.ok (some handle), store)
  | none =>
    match store.lookup scope with
    | none => (.ok none, store)
    | some _ =>
      match Classifier.ofConfiguration language configuration with
      | .error e => (.error e, store)
      | .ok classifier =>
        let source := store.snapshot scope language classifier
        let number := store.calls + 1
        -- The call counts from here on, whether or not it succeeds.
        match store.engine.compile number source with
        | .error e => (.error e, { store with calls := number })
        | .ok tokenizer =>
          let handle : Handle := ⟨number, source, tokenizer⟩
          (.ok (some handle),
            { store with calls := number, compiled := Dict.insert scope handle store.compiled })

/-- The store with another theme, for which nothing was compiled yet. -/
def setTheme (store : Store) (source : ThemeSource) (table : Option (List String)) :
    Except Error Store :=
  match Theme.ofSource source table with
  | .error problem => .error (.theme problem)
  -- The compiled grammars have taken their colors from the theme before.
  | .ok theme => .ok { store with theme := theme, compiled := [] }

/-- The colors of the current theme in the order of their indices. -/
def colors (store : Store) : List String :=
  store.theme.colors.colors

/-- Engine and sizes of the store. -/
def describe (store : Store) : String :=
  "MemoryStore \x7b engine: \"" ++ store.engine.name ++
    "\", grammars: " ++ Text.decimal store.definitions.length ++
    ", compiled: " ++ Text.decimal store.compiled.length ++ " \x7d"

/-- Registering a grammar changes what its own scope stands for, and nothing else. -/
theorem lookup_register (store : Store) (grammar : Grammar) (injected : List ScopeName)
    (scope : ScopeName) :
    (store.register grammar injected).lookup scope =
      if grammar.scope = scope then some (store.define grammar) else store.lookup scope :=
  Dict.find?_insert _ _ _ _

/-- Registering a grammar changes the scopes injected into its own scope, if any are given. -/
theorem injectionsInto_register (store : Store) (grammar : Grammar) (injected : List ScopeName)
    (scope : ScopeName) :
    (store.register grammar injected).injectionsInto scope =
      if grammar.scope = scope ∧ injected ≠ [] then injected else store.injectionsInto scope := by
  cases injected with
  | nil => simp [register, injectionsInto]
  | cons first rest =>
    simp only [register, injectionsInto, InjectionTable.injectedInto, List.isEmpty_cons,
      Bool.false_eq_true, if_false, Dict.find?_insert]
    -- The list is that of the grammar's own scope.
    by_cases h : grammar.scope = scope <;> simp [h]

end Store

end Textmate
