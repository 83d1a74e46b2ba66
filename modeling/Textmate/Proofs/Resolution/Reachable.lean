import Mathlib.Logic.Relation
import Textmate.Proofs.Cache.Answers
import Textmate.Proofs.Grammar.Places

/-!
# What can be reached from a scope

The grammars that a loader answers with form a graph. From the whole of a grammar one gets to the
rules at its top level, from a rule to what is inside and to what it includes, and from a scope to
the grammars that are injected into it. The graph knows nothing of the order in which a resolution
comes to its nodes, nor of what it has asked for before.

## Key results

- `Loader.grammar?_scope`: the grammars of an honest loader have the scopes that were asked for
- `Reaches`: reachability in the graph
-/

namespace Textmate

namespace Loader

/-- The grammar of a scope, if the loader has one. -/
def grammar? (loader : Loader) (scope : ScopeName) : Option Grammar :=
  (loader.definition? scope).map (·.grammar)

/-- The rules at the top level of the grammar of a scope. -/
def topRules (loader : Loader) (scope : ScopeName) : List Rule :=
  ((loader.grammar? scope).map Grammar.topRules).getD []

/-- A rule of the repository of the grammar of a scope. -/
def rule? (loader : Loader) (scope : ScopeName) (name : String) : Option Rule :=
  (loader.grammar? scope).bind (·.rule? name)

/-- No rule of the grammars has a repository of its own. -/
def IsFlat (loader : Loader) : Prop :=
  ∀ scope grammar, loader.grammar? scope = some grammar → grammar.IsFlat

/-- The grammars of an honest loader have the scopes that were asked for. -/
theorem grammar?_scope {loader : Loader} (hl : loader.Honest) {scope : ScopeName}
    {definition : Definition} (h : loader.definition? scope = some definition) :
    definition.grammar.scope = scope := by
  unfold definition? at h
  split at h
  · rename_i grammar hanswer
    cases h
    exact hl scope grammar hanswer
  · cases h

/-- A loader of flat grammars is flat. -/
theorem isFlat_ofGrammars {grammars : List Grammar} (h : ∀ grammar ∈ grammars, grammar.IsFlat)
    (injections : List (ScopeName × List ScopeName)) : (ofGrammars grammars injections).IsFlat := by
  intro scope grammar hgrammar
  obtain ⟨definition, hdefinition, rfl⟩ := Option.map_eq_some_iff.1 hgrammar
  unfold definition? at hdefinition
  simp only [ofGrammars] at hdefinition
  -- A grammar that is answered is one of the list.
  cases hfind : grammars.find? (·.scope = scope) with
  | none =>
    rw [hfind] at hdefinition
    cases hdefinition
  | some found =>
    rw [hfind] at hdefinition
    cases hdefinition
    exact h _ (List.mem_of_find?_eq_some hfind)

end Loader

/-- A place in the graph of grammars. -/
inductive Node where
  | scope (scope : ScopeName)
  /-- The top level of the grammar of a scope. -/
  | whole (scope : ScopeName)
  /-- A rule of the grammar of a scope. -/
  | rule (scope : ScopeName) (rule : Rule)

/-- Where an include in the grammar of the `current` scope leads, when tokenizing starts with the
`initial` one. -/
inductive Include.LeadsTo (loader : Loader) (initial current : ScopeName) : Include → Node → Prop
  -- The base is where tokenizing started, not the grammar of the include.
  | base : LeadsTo loader initial current .base (.whole initial)
  | self : LeadsTo loader initial current .self (.whole current)
  | rule {name : String} {rule : Rule} (h : loader.rule? current name = some rule) :
    LeadsTo loader initial current (.rule name) (.rule current rule)
  | grammar {text : String} {scope : ScopeName} (h : ScopeName.ofString? text = some scope) :
    LeadsTo loader initial current (.grammar text) (.whole scope)
  | scope {text name : String} {scope : ScopeName} (h : ScopeName.ofString? text = some scope) :
    LeadsTo loader initial current (.grammarRule text name) (.scope scope)
  | grammarRule {text name : String} {scope : ScopeName} {rule : Rule}
    (h : ScopeName.ofString? text = some scope) (hrule : loader.rule? scope name = some rule) :
    LeadsTo loader initial current (.grammarRule text name) (.rule scope rule)

/-- One step in the graph of grammars. -/
inductive Link (loader : Loader) (initial : ScopeName) : Node → Node → Prop
  -- What is injected belongs to the scope, whether or not all its rules are reached.
  | scope (scope : ScopeName) : Link loader initial (.whole scope) (.scope scope)
  | top {scope : ScopeName} {rule : Rule} (h : rule ∈ loader.topRules scope) :
    Link loader initial (.whole scope) (.rule scope rule)
  | injected {scope other : ScopeName} (h : other ∈ loader.injected scope) :
    Link loader initial (.scope scope) (.whole other)
  | inner {scope : ScopeName} {rule inner : Rule} (h : inner ∈ rule.inner) :
    Link loader initial (.rule scope rule) (.rule scope inner)
  | target {scope : ScopeName} {rule : Rule} {target : Include} {node : Node}
    (h : rule.include? = some target) (hleads : target.LeadsTo loader initial scope node) :
    Link loader initial (.rule scope rule) node

/-- Any number of steps in the graph of grammars. -/
abbrev Reaches (loader : Loader) (initial : ScopeName) : Node → Node → Prop :=
  Relation.ReflTransGen (Link loader initial)

end Textmate
