import Textmate.Dependency.Basic
import Textmate.Dependency.Place
import Textmate.Grammar.Include

/-!
# Collecting dependencies

A collector walks through the rules of a grammar and notes which other scopes they include. The walk
goes from a rule to the patterns inside it, to the rules of its captures, and last to what it
includes. Includes that lead into the grammar itself or into the *base*, the grammar where
tokenizing starts, are followed; every other scope is a dependency.

Each rule is visited once. The walk keeps the places that were not yet visited, `fresh`; a visit
takes its place out, so the walk ends however the includes turn in circles.
-/

namespace Textmate

/-- Where a walk is: between which grammars, and with which repositories around it. -/
structure Context where
  base : Definition
  /-- The grammar that the walk is in. -/
  current : Definition
  /-- The repositories in which names are looked up, the innermost first. -/
  repositories : List (List (String × Site))

namespace Context

/-- The context at the top level of a grammar. -/
def atTop (base current : Definition) : Context :=
  ⟨base, current, [current.repository]⟩

/-- The context inside a rule. -/
def inside (context : Context) (site : Site) : Context :=
  match site.repository? with
  | none => context
  | some repository => { context with repositories := repository :: context.repositories }

/-- The rule of a name in the innermost repository that has it. -/
def lookup (context : Context) (name : String) : List Site :=
  (context.repositories.findSome? (Dict.find? name)).toList

/-- The context at the top level of the grammar of a scope, if that is the grammar that the walk is
in or the base. -/
def local? (context : Context) (scope : String) : Option Context :=
  -- The grammar that the walk is in counts before the base, if both have the scope.
  if context.current.grammar.scope.text = scope then some (.atTop context.base context.current)
  else if context.base.grammar.scope.text = scope then some (.atTop context.base context.base)
  else none

/-- Where an include leads. -/
inductive Target where
  | rules (sites : List Site) (context : Context)
  | scope (dependency : Dependency)

def Target.nothing (context : Context) : Target := .rules [] context

/-- The top level of the grammar that a context is in. -/
def topLevel (context : Context) : Target :=
  .rules context.current.top context

/-- Where an include leads from a context. An include of a rule of the current grammar stays in the
repositories around it. A scope that is no scope name leads nowhere. -/
def follow (context : Context) : Include → Target
  | .base => topLevel (.atTop context.base context.base)
  | .self => topLevel (.atTop context.base context.current)
  | .rule name => .rules (context.lookup name) context
  | .grammar scope =>
    match context.local? scope with
    | some other => topLevel other
    | none => ((ScopeName.ofString? scope).map fun s => .scope (.whole s)).getD (.nothing context)
  | .grammarRule scope name =>
    -- In the grammar itself the repositories around the include come first.
    if context.current.grammar.scope.text = scope then .rules (context.lookup name) context
    else match context.local? scope with
      | some other => .rules (other.lookup name) other
      | none =>
        ((ScopeName.ofString? scope).map fun s => .scope (.part s name)).getD (.nothing context)

end Context

/-- What a walk still has to do. -/
inductive WalkTask where
  | visit (site : Site) (context : Context)
  /-- To go where an include leads. -/
  | follow (target : Include) (context : Context)

namespace WalkTask

/-- Whether the task is to go where an include leads. -/
def isFollow : WalkTask → Bool
  | visit _ _ => false
  | follow _ _ => true

/-- The tasks of visiting rules in a context. -/
def visits (sites : List Site) (context : Context) : List WalkTask :=
  sites.map (visit · context)

/-- What visiting a rule leads to: the rules inside it, and then what it includes. A text that is no
include leads nowhere. -/
def ofVisit (site : Site) (context : Context) : List WalkTask :=
  let context := context.inside site
  let target := site.rule.includes.bind fun text => (Include.parse text).toOption
  -- The include is followed from inside the rule, so the rule's own repository is searched too.
  visits (site.patterns ++ site.captures) context ++ (target.map (follow · context)).toList

/-- Visits are no includes. -/
theorem countP_isFollow_visits (sites : List Site) (context : Context) :
    (visits sites context).countP isFollow = 0 := by
  simp [visits, List.countP_map, Function.comp_def, isFollow]

end WalkTask

/-- The places that a walk visited and the dependencies that it noted, both in order. -/
structure Findings where
  visited : List Place
  /-- Dependencies; one that several rules ask for is noted several times. -/
  dependencies : List Dependency

namespace Findings

def empty : Findings := ⟨[], []⟩

/-- The findings with a visited place in front. -/
def visit (findings : Findings) (place : Place) : Findings :=
  { findings with visited := place :: findings.visited }

def note (findings : Findings) (dependency : Dependency) : Findings :=
  { findings with dependencies := dependency :: findings.dependencies }

end Findings

/-- Does a list of tasks one after another, where only the `fresh` places are still to be
visited. -/
def walk (fresh : List Place) : List WalkTask → Findings
  | [] => .empty
  | .visit site context :: tasks =>
    if h : site.place ∈ fresh then
      -- There is one fresh place less, which is why the walk ends.
      have : (fresh.erase site.place).length < fresh.length := by
        rw [List.length_erase_of_mem h]
        have := List.length_pos_of_mem h
        omega
      (walk (fresh.erase site.place) (WalkTask.ofVisit site context ++ tasks)).visit site.place
    else walk fresh tasks
  | .follow target context :: tasks =>
    match context.follow target with
    | .rules sites context => walk fresh (WalkTask.visits sites context ++ tasks)
    | .scope dependency => (walk fresh tasks).note dependency
-- A visit takes a place out, an include turns into visits, and a seen place drops its task.
termination_by tasks => (fresh.length, tasks.countP WalkTask.isFollow, tasks.length)
decreasing_by
  · exact Prod.Lex.left _ _ this
  · apply Prod.Lex.right
    simp only [List.countP_cons, WalkTask.isFollow]
    exact Prod.Lex.right _ (by simp)
  · apply Prod.Lex.right
    apply Prod.Lex.left
    rw [List.countP_append, WalkTask.countP_isFollow_visits, List.countP_cons_of_pos rfl]
    omega
  · apply Prod.Lex.right
    apply Prod.Lex.left
    rw [List.countP_cons_of_pos rfl]
    omega

/-- The dependencies found in one or several walks. -/
structure Collector where
  /-- All dependencies in the order in which they were found. -/
  dependencies : List Dependency
  /-- The places of all rules that were visited. -/
  visited : List Place

namespace Collector

def empty : Collector := ⟨[], []⟩

/-- The places of a grammar and its base that were not yet visited. -/
def fresh (collector : Collector) (base current : Definition) : List Place :=
  -- Two definitions of one scope differ in their origins, and then both are searched.
  let all := if base.origin = current.origin then current.places
    else base.places ++ current.places
  all.filter (· ∉ collector.visited)

/-- Walks from a list of rules. -/
def collect (collector : Collector) (base current : Definition) (sites : List Site) : Collector :=
  let findings := walk (collector.fresh base current)
    (WalkTask.visits sites (.atTop base current))
  -- A place that an earlier walk of the same layer visited is not fresh in this one.
  ⟨collector.dependencies ++ findings.dependencies, collector.visited ++ findings.visited⟩

/-- Walks through all that is reached from the top level of a grammar. -/
def collectAll (collector : Collector) (base current : Definition) : Collector :=
  collector.collect base current current.top

/-- Walks through all that is reached from one rule of a grammar's repository. -/
def collectRule (collector : Collector) (base current : Definition) (name : String) : Collector :=
  collector.collect base current ((Context.atTop base current).lookup name)

def addInjections (collector : Collector) (scopes : List ScopeName) : Collector :=
  { collector with dependencies := collector.dependencies ++ scopes.map .whole }

end Collector

end Textmate
