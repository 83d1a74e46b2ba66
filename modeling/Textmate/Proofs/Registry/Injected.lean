import Mathlib.Data.List.Sort
import Textmate.Proofs.Dict
import Textmate.Proofs.Injections
import Textmate.Proofs.Registry.Themes
import Textmate.Proofs.Resolution.Mentions

/-!
# Injected grammars

What is injected into a grammar comes from two tables: the grammars that are listed for its scope,
and those that inject themselves by a selector. A snapshot has the tables in some order, and only
the order of the listed scopes counts.

## Key results

- `Source.injectionGrammars_of_keyed`: which grammars are injected, in which order and how often
- `Registry.ordered_performAll`: the tables of a registry, after any operations
-/

namespace Textmate

/-! ## Snapshots -/

namespace Source

variable {source other : Source} {grammar : Grammar} {scope : ScopeName}

/-- Every grammar is registered for its own scope, and no scope stands twice in a table. The order
in which the scopes stand there is left open. -/
structure Keyed (source : Source) : Prop where
  scope_eq : ∀ entry ∈ source.definitions, entry.2.grammar.scope = entry.1
  definitions_nodup : (Dict.keys source.definitions).Nodup
  injections_nodup : (Dict.keys source.injections).Nodup

/-- Another snapshot for the same scope, with the entries of both tables in another order. -/
structure Reorders (source other : Source) : Prop where
  scope_eq : other.scope = source.scope
  definitions : other.definitions.Perm source.definitions
  injections : other.injections.Perm source.injections

/-- The grammar is the one that is registered for its scope. -/
def Registers (source : Source) (grammar : Grammar) : Prop :=
  source.grammar? grammar.scope = some grammar

/-- The grammars of a snapshot are those that are registered for their scopes. -/
private theorem Keyed.mem_grammars_iff (h : source.Keyed) :
    grammar ∈ (Dict.values source.definitions).map (·.grammar) ↔ source.Registers grammar := by
  -- As no scope stands twice in the table, the entry of a scope is the one that is found.
  rw [Registers, grammar?, Option.map_eq_some_iff, List.mem_map]
  refine exists_congr fun definition => and_congr_left fun hgrammar => ?_
  rw [Dict.find?_eq_some_iff h.definitions_nodup]
  constructor
  · intro hmem
    obtain ⟨entry, hentry, rfl⟩ := List.mem_map.1 hmem
    rwa [← hgrammar, h.scope_eq entry hentry]
  · exact fun hmem => List.mem_map_of_mem hmem

/-- The grammar found for a scope has this scope. -/
private theorem Keyed.scope_of_grammar? (h : source.Keyed)
    (hfind : source.grammar? scope = some grammar) :
    grammar.scope = scope := by
  obtain ⟨definition, hdefinition, rfl⟩ := Option.map_eq_some_iff.1 hfind
  exact h.scope_eq _ (Dict.mem_of_find? hdefinition)

/-- Different grammars of a snapshot have different scopes. -/
private theorem Keyed.nodup_scopes (h : source.Keyed) :
    (((Dict.values source.definitions).map (·.grammar)).map (·.scope)).Nodup := by
  have hkeys : ((Dict.values source.definitions).map (·.grammar)).map (·.scope) =
      Dict.keys source.definitions := by
    rw [Dict.values, List.map_map, List.map_map]
    exact List.map_congr_left h.scope_eq
  rw [hkeys]
  exact h.definitions_nodup

/-! ## Listed grammars -/

/-- The listed grammars have the listed scopes that are registered, in the order of the list. -/
private theorem Keyed.scopes_listedInjections (h : source.Keyed) :
    source.listedInjections.map (·.scope) =
      source.injected.filter fun scope => (source.grammar? scope).isSome := by
  rw [listedInjections, List.map_filterMap, ← List.filterMap_eq_filter]
  refine List.filterMap_congr fun scope _ => ?_
  cases hfind : source.grammar? scope with
  | none => simp [Option.guard, hfind]
  -- What is found for the scope has the scope, so the scope stays in the list.
  | some grammar => simp [Option.guard, hfind, h.scope_of_grammar? hfind]

/-- The listed grammars are the registered ones whose scopes are listed. -/
private theorem Keyed.mem_listedInjections_iff (h : source.Keyed) :
    grammar ∈ source.listedInjections ↔
      source.Registers grammar ∧ grammar.scope ∈ source.injected := by
  rw [listedInjections, List.mem_filterMap]
  constructor
  · rintro ⟨scope, hscope, hfind⟩
    obtain rfl := h.scope_of_grammar? hfind
    exact ⟨hfind, hscope⟩
  · exact fun ⟨hfind, hscope⟩ => ⟨_, hscope, hfind⟩

/-! ## Grammars with a selector -/

/-- Sorting puts grammars with different scopes in the order of their scopes. -/
private theorem pairwise_lt_mergeSort {grammars : List Grammar}
    (h : (grammars.map (·.scope)).Nodup) :
    (grammars.mergeSort fun a b => a.scope.text ≤ b.scope.text).Pairwise
      fun a b => a.scope < b.scope := by
  have hle : (grammars.mergeSort fun a b => a.scope.text ≤ b.scope.text).Pairwise
      fun a b => decide (a.scope.text ≤ b.scope.text) = true :=
    List.pairwise_mergeSort (by intro a b c; simpa using String.le_trans)
      (by intro a b; simpa using String.le_total a.scope.text b.scope.text) grammars
  have hne : (grammars.mergeSort fun a b => a.scope.text ≤ b.scope.text).Pairwise
      fun a b => a.scope ≠ b.scope :=
    List.pairwise_map.1 (((List.mergeSort_perm grammars _).map _).nodup_iff.2 h)
  -- Sorted and pairwise different together is strictly sorted.
  exact hle.imp₂ (fun _ _ hle hne => ScopeName.lt_of_le_of_ne (of_decide_eq_true hle) hne) hne

/-- The grammars that follow the listed ones. -/
private theorem Keyed.exists_selecting (h : source.Keyed) :
    ∃ selecting, source.injectionGrammars = source.listedInjections ++ selecting ∧
      selecting.Pairwise (fun a b => a.scope < b.scope) ∧
      ∀ grammar, grammar ∈ selecting ↔ source.Registers grammar ∧
        grammar.injectionSelector.isSome ∧
        grammar.scope ∉ source.listedInjections.map (·.scope) := by
  refine ⟨_, rfl, pairwise_lt_mergeSort ?_, fun grammar => ?_⟩
  · -- Sorting needs different scopes, which the tables give.
    exact h.nodup_scopes.sublist (List.filter_sublist.map _)
  · rw [List.mem_mergeSort, List.mem_filter, h.mem_grammars_iff]
    simp

/-- A registered grammar is injected if it is listed or has a selector. -/
private theorem Keyed.mem_injectionGrammars_iff (h : source.Keyed) :
    grammar ∈ source.injectionGrammars ↔ source.Registers grammar ∧
      (grammar.scope ∈ source.injected ∨ grammar.injectionSelector.isSome) := by
  obtain ⟨selecting, heq, -, hmem⟩ := h.exists_selecting
  -- A registered grammar whose scope is among the listed ones is listed itself.
  have hlisted (hregisters : source.Registers grammar) :
      grammar.scope ∈ source.listedInjections.map (·.scope) ↔ grammar.scope ∈ source.injected := by
    rw [h.scopes_listedInjections, List.mem_filter, hregisters]
    simp
  rw [heq, List.mem_append, hmem, h.mem_listedInjections_iff]
  by_cases hregisters : source.Registers grammar
  · rw [hlisted hregisters]
    tauto
  · tauto

/-- A grammar is injected more than once only if it is listed more than once. -/
private theorem Keyed.count_injectionGrammars_le (h : source.Keyed) (scope : ScopeName) :
    (source.injectionGrammars.map (·.scope)).count scope ≤
      max 1 (source.injected.count scope) := by
  obtain ⟨selecting, heq, hpairwise, hmem⟩ := h.exists_selecting
  -- The listed grammars are a part of the list.
  have hlisted : (source.listedInjections.map (·.scope)).count scope ≤
      source.injected.count scope := by
    rw [h.scopes_listedInjections]
    exact List.filter_sublist.count_le scope
  have hnodup : (selecting.map (·.scope)).Nodup :=
    List.pairwise_map.2 (hpairwise.imp ScopeName.ne_of_lt)
  have honce := List.nodup_iff_count_le_one.1 hnodup scope
  rw [heq, List.map_append, List.count_append]
  by_cases hmore : scope ∈ source.listedInjections.map (·.scope)
  · -- No grammar of the scope is among the others.
    have hnone : (selecting.map (·.scope)).count scope = 0 := by
      refine List.count_eq_zero.2 fun hselecting => ?_
      obtain ⟨grammar, hgrammar, rfl⟩ := List.mem_map.1 hselecting
      exact ((hmem grammar).1 hgrammar).2.2 hmore
    omega
  · rw [List.count_eq_zero.2 hmore]
    omega

/-! ## Other orders -/

/-- Lists in the order of scopes are equal when they have the same grammars. -/
private theorem eq_of_pairwise_lt {grammars others : List Grammar}
    (h : grammars.Pairwise fun a b => a.scope < b.scope)
    (h' : others.Pairwise fun a b => a.scope < b.scope)
    (hmem : ∀ grammar, grammar ∈ grammars ↔ grammar ∈ others) : grammars = others := by
  -- A list in strict order has no choice left but its members.
  have hirrefl : Std.Irrefl fun a b : Grammar => a.scope < b.scope :=
    ⟨fun a => String.lt_irrefl a.scope.text⟩
  have hantisymm : Std.Antisymm fun a b : Grammar => a.scope < b.scope :=
    ⟨fun a b hlt hgt => absurd (String.lt_trans hlt hgt) (String.lt_irrefl a.scope.text)⟩
  exact h.eq_of_mem_iff h' hmem

/-- Reordered tables list the same scopes. -/
private theorem Reorders.injected_eq (h : source.Reorders other) (hkeyed : source.Keyed) :
    other.injected = source.injected := by
  rw [injected, injected, InjectionTable.injectedInto, InjectionTable.injectedInto, h.scope_eq,
    Dict.find?_perm source.scope hkeyed.injections_nodup h.injections.symm]

/-- Reordered tables have the same grammar for each scope. -/
private theorem Reorders.grammar?_eq (h : source.Reorders other) (hkeyed : source.Keyed) :
    other.grammar? = source.grammar? := by
  funext scope
  rw [grammar?, grammar?, Dict.find?_perm scope hkeyed.definitions_nodup h.definitions.symm]

/-- Reordered tables are keyed as well. -/
private theorem Reorders.keyed (h : source.Reorders other) (hkeyed : source.Keyed) :
    other.Keyed where
  scope_eq entry hentry := hkeyed.scope_eq entry (h.definitions.mem_iff.1 hentry)
  definitions_nodup := (h.definitions.map _).nodup_iff.2 hkeyed.definitions_nodup
  injections_nodup := (h.injections.map _).nodup_iff.2 hkeyed.injections_nodup

/-- The order of the tables makes no difference. -/
private theorem Reorders.injectionGrammars_eq (h : source.Reorders other) (hkeyed : source.Keyed) :
    other.injectionGrammars = source.injectionGrammars := by
  obtain ⟨selecting, heq, hpairwise, hmem⟩ := hkeyed.exists_selecting
  obtain ⟨others, heq', hpairwise', hmem'⟩ := (h.keyed hkeyed).exists_selecting
  have hlisted : other.listedInjections = source.listedInjections := by
    rw [listedInjections, listedInjections, h.injected_eq hkeyed, h.grammar?_eq hkeyed]
  -- Two lists in the order of scopes with the same grammars are the same.
  have hselecting : others = selecting := eq_of_pairwise_lt hpairwise' hpairwise fun grammar => by
    rw [hmem, hmem', hlisted, Registers, Registers, h.grammar?_eq hkeyed]
  rw [heq, heq', hlisted, hselecting]

end Source

/-! ## Stores -/

namespace Store

variable {store next : Store}

/-- Both tables list their scopes in order, and every grammar is registered for its own scope. -/
structure Ordered (store : Store) : Prop where
  scope_eq : ∀ scope definition, store.lookup scope = some definition →
    definition.grammar.scope = scope
  definitions : Dict.Sorted store.definitions
  injections : Dict.Sorted store.injections

/-- An empty store has nothing out of order. -/
private theorem ordered_empty (engine : Engine) : (empty engine).Ordered :=
  ⟨fun _ _ h => (nomatch h), Dict.sorted_nil, Dict.sorted_nil⟩

/-- A grammar that is registered goes to its place in both tables. -/
private theorem Ordered.register (h : store.Ordered) (grammar : Grammar)
    (injected : List ScopeName) :
    (store.register grammar injected).Ordered := by
  refine ⟨fun scope definition hlookup => ?_, h.definitions.insert _ _, ?_⟩
  · -- The new definition is that of the grammar, whose scope is its key.
    rw [lookup_register] at hlookup
    split at hlookup
    · rename_i heq
      cases hlookup
      rw [grammar_define, heq]
    · exact h.scope_eq scope definition hlookup
  · simp only [Store.register]
    split
    · exact h.injections
    · exact h.injections.insert _ _

/-- Compiling leaves both tables alone. -/
private theorem CompilesTo.ordered {scope : ScopeName} {language : Nat}
    {configuration : Configuration} {result : Except Error (Option Handle)}
    (h : store.CompilesTo scope language configuration (result, next)) (ho : store.Ordered) :
    next.Ordered := by
  cases h <;> exact ⟨ho.scope_eq, ho.definitions, ho.injections⟩

/-- A snapshot of an ordered store is keyed. -/
private theorem Ordered.keyed_snapshot (h : store.Ordered) (scope : ScopeName) (language : Nat)
    (classifier : Classifier) : (store.snapshot scope language classifier).Keyed where
  scope_eq entry hentry :=
    h.scope_eq entry.1 entry.2 (Dict.find?_of_mem h.definitions.nodup hentry)
  definitions_nodup := h.definitions.nodup
  injections_nodup := h.injections.nodup

end Store

/-! ## Registries -/

namespace Library

variable {loader : Loader} {library next : Library}

/-- A step of a load keeps the tables in order: if it registers, it does so in place. -/
private theorem Step.ordered (h : Step loader library next) (ho : library.store.Ordered) :
    next.store.Ordered := by
  -- Only the answer that ends a load changes the store.
  rcases h.effect with ⟨hstore, -⟩ | ⟨scope, -, hstore, -⟩
  · rwa [hstore]
  · rw [hstore]
    unfold accept
    split
    · exact ho.register _ _
    · exact ho
    · exact ho

/-- So do any number of steps. -/
private theorem Steps.ordered (h : Steps loader library next) (ho : library.store.Ordered) :
    next.store.Ordered :=
  h.keep (·.store.Ordered) ho fun _ _ hstep ho => hstep.ordered ho

end Library

namespace Registry

variable {registry : Registry}

/-- Loading a grammar with all it needs keeps the tables in order. -/
private theorem ordered_resolve (h : registry.store.Ordered) (scope : ScopeName) :
    (registry.resolve scope).2.store.Ordered :=
  (Library.steps_resolve registry.loader registry.limit registry.library scope).ordered h

/-- Compiling a grammar keeps the tables in order. -/
private theorem ordered_grammarFor (h : registry.store.Ordered) (scope : ScopeName) (language : Nat)
    (configuration : Configuration) :
    (registry.grammarFor scope language configuration).2.store.Ordered := by
  rw [grammarFor_store]
  exact (registry.store.compilesTo_compile scope language configuration).ordered h

/-- Each operation keeps the tables in order. -/
private theorem ordered_perform (h : registry.store.Ordered) (operation : Operation) :
    (registry.perform operation).store.Ordered := by
  cases operation with
  | resolve scope => exact ordered_resolve h scope
  | load scope language configuration =>
    have hresolve := ordered_resolve h scope
    simp only [perform, load]
    -- The grammar is compiled only after everything it needs was loaded.
    split
    · rename_i next heq
      rwa [heq] at hresolve
    · rename_i e next heq
      rwa [heq] at hresolve
    · rename_i resolution next heq
      rw [heq] at hresolve
      exact ordered_grammarFor hresolve scope language configuration
  | add grammar injected language embedded =>
    have hregister :
        (registry.withStore (registry.store.register grammar injected)).store.Ordered :=
      h.register grammar injected
    exact ordered_grammarFor hregister grammar.scope language ⟨embedded, []⟩
  | grammarFor scope language configuration =>
    exact ordered_grammarFor h scope language configuration
  -- A theme that is not read leaves the store, and one that is leaves the tables.
  | setTheme source table =>
    simp only [perform, setTheme, Store.setTheme]
    cases Theme.ofSource source table with
    | error problem => exact h
    | ok theme => exact ⟨h.scope_eq, h.definitions, h.injections⟩

/-- Operations keep the tables of a registry in order. -/
theorem ordered_performAll (h : registry.store.Ordered) (operations : List Operation) :
    (registry.performAll operations).store.Ordered := by
  induction operations generalizing registry with
  | nil => exact h
  | cons operation operations ih => exact ih (ordered_perform h operation)

end Registry

/-! ## All injected grammars -/

namespace Source

/-- In a snapshot whose grammars are registered for their own scopes, the injected grammars are the
registered ones among the listed scopes, in the order of the list, and behind them, in the order of
their scopes, all others that have a selector. So a grammar is injected if it is listed or has a
selector, and more than once only if it is listed more than once. The order of the tables makes no
difference. All snapshots of a registry are such snapshots. -/
theorem injectionGrammars_of_keyed :
    (∀ source : Source, source.Keyed →
      (∃ selecting,
        source.injectionGrammars = source.injected.filterMap source.grammar? ++ selecting ∧
        selecting.Pairwise (fun a b => a.scope < b.scope) ∧
        ∀ grammar, grammar ∈ selecting ↔
          source.Registers grammar ∧ grammar.injectionSelector.isSome ∧
          grammar.scope ∉ (source.injected.filterMap source.grammar?).map (·.scope)) ∧
      (∀ grammar, grammar ∈ source.injectionGrammars ↔
        source.Registers grammar ∧
          (grammar.scope ∈ source.injected ∨ grammar.injectionSelector.isSome)) ∧
      (∀ scope, (source.injectionGrammars.map (·.scope)).count scope ≤
        max 1 (source.injected.count scope)) ∧
      ∀ other, source.Reorders other → other.injectionGrammars = source.injectionGrammars) ∧
    ∀ (loader : Loader) (limit : Nat) (engine : Engine) (operations : List Registry.Operation)
      (scope : ScopeName) (language : Nat) (classifier : Classifier),
      (((Registry.empty loader limit engine).performAll operations).store.snapshot scope language
        classifier).Keyed := by
  refine ⟨fun source h => ?_, fun loader limit engine operations scope language classifier => ?_⟩
  · exact ⟨h.exists_selecting, fun grammar => h.mem_injectionGrammars_iff,
      h.count_injectionGrammars_le, fun other hother => hother.injectionGrammars_eq h⟩
  · -- A registry begins with empty tables, and operations keep the order of its tables.
    have hempty : (Registry.empty loader limit engine).store.Ordered := Store.ordered_empty engine
    exact (Registry.ordered_performAll hempty operations).keyed_snapshot scope language classifier

/-- A snapshot with tables in no order, for a scope that lists a grammar with a selector twice and a
scope that is not registered. -/
theorem injectionGrammars_of_keyed_of_listed_twice :
    let a : ScopeName := ⟨"source.a", by decide, by simp, by simp; decide⟩
    let b : ScopeName := ⟨"source.b", by decide, by simp, by simp; decide⟩
    let c : ScopeName := ⟨"source.c", by decide, by simp, by simp; decide⟩
    let d : ScopeName := ⟨"source.d", by decide, by simp, by simp; decide⟩
    let definition (scope : ScopeName) : Definition :=
      ⟨0, { Grammar.empty scope with injectionSelector := some "L:text" }⟩
    let source : Source := ⟨a, 0, ⟨0, [], [], []⟩,
      [(c, definition c), (b, definition b), (a, definition a)],
      [(c, [a]), (a, [b, d, b])], .default⟩
    let other : Source := { source with definitions := source.definitions.reverse }
    source.injectionGrammars.map (·.scope) = [b, b, a, c] ∧
      other.injectionGrammars = source.injectionGrammars := by
  intro a b c d definition source other
  have hkeyed : source.Keyed := ⟨by simp [source, definition, Grammar.empty], by decide, by decide⟩
  -- The definitions are the same ones, from the last to the first.
  have hreorders : source.Reorders other := ⟨rfl, List.reverse_perm _, .refl _⟩
  exact ⟨by cbv, (injectionGrammars_of_keyed.1 source hkeyed).2.2.2 other hreorders⟩

end Source

end Textmate
