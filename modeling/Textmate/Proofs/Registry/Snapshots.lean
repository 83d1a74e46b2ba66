import Mathlib.Data.List.Induction
import Mathlib.Data.List.Permutation
import Textmate.Proofs.Resolution.Loaded
import Textmate.Registry

/-!
# What compiled grammars were compiled from

An operation of a registry first registers grammars and then compiles one, from a snapshot of all
that is registered at that time. Grammars are never taken out again, but a compiled grammar is kept
and its snapshot stays what it was. So what a load hands out knows all that the load has found only
if all of that was registered when the grammar was compiled.

## Key results

- `perform_follows`: what an operation does to the store
- `traced_performAll`: every compiled grammar comes from an operation, and from what was registered
- `load_snapshot_complete_iff`: when the snapshot behind a loaded grammar has all that was loaded
- `load_snapshot_incomplete`: a grammar that was compiled before its load has less
-/

namespace Textmate

namespace Store

/-- The store of an operation that registers grammars and then compiles at most one. -/
structure Follows (store next : Store) : Prop where
  lookup_isSome : ∀ scope, (store.lookup scope).isSome → (next.lookup scope).isSome
  /-- Calls of the engine are counted on. -/
  calls_le : store.calls ≤ next.calls
  /-- A compiled grammar was compiled before, or now from all that is registered. -/
  compiled : ∀ scope handle, Dict.find? scope next.compiled = some handle →
    Dict.find? scope store.compiled = some handle ∨
      store.calls < handle.number ∧ handle.number ≤ next.calls ∧
        handle.source.definitions = next.definitions

/-- A store that registers first and then goes on has done both. -/
private theorem Extends.then {store middle next : Store} (h : store.Extends middle)
    (h' : middle.Follows next) : store.Follows next :=
  ⟨fun scope hs => h'.lookup_isSome scope (h.lookup_isSome scope hs), h.calls_eq ▸ h'.calls_le,
    fun scope handle hfind => h.compiled_eq ▸ h.calls_eq ▸ h'.compiled scope handle hfind⟩

/-- A store follows itself. -/
private theorem Follows.refl (store : Store) : store.Follows store :=
  ⟨fun _ h => h, Nat.le_refl _, fun _ _ h => Or.inl h⟩

/-- Registering alone compiles nothing. -/
private theorem Extends.follows {store next : Store} (h : store.Extends next) :
    store.Follows next :=
  h.then (.refl next)

/-- What compiling does: it finds a grammar that was compiled before, or it compiles none, or it
compiles one from all that is registered, and keeps it. -/
private theorem compile_cases (store : Store) (scope : ScopeName) (language : Nat)
    (configuration : Configuration) :
    (∃ handle, Dict.find? scope store.compiled = some handle ∧
      store.compile scope language configuration = (.ok (some handle), store)) ∨
    (∃ result calls, (∀ handle, result ≠ .ok (some handle)) ∧ store.calls ≤ calls ∧
      store.compile scope language configuration = (result, { store with calls := calls })) ∨
    ∃ handle : Handle, handle.number = store.calls + 1 ∧
      handle.source.definitions = store.definitions ∧
      store.compile scope language configuration =
        (.ok (some handle), { store with
          calls := store.calls + 1, compiled := Dict.insert scope handle store.compiled }) := by
  -- The cases are those of the function: kept, not registered, and the three ends of a call.
  unfold compile
  split
  · rename_i handle hfind
    exact Or.inl ⟨handle, hfind, rfl⟩
  · refine Or.inr ?_
    split
    · -- A scope without a grammar: the engine is not called.
      exact Or.inl ⟨.ok none, store.calls, by simp, Nat.le_refl _, rfl⟩
    · split
      · rename_i e _
        exact Or.inl ⟨.error e, store.calls, by simp, Nat.le_refl _, rfl⟩
      · dsimp only
        split
        · rename_i e _
          -- The engine fails, and its call is counted all the same.
          exact Or.inl ⟨.error e, store.calls + 1, by simp, Nat.le_succ _, rfl⟩
        · exact Or.inr ⟨_, by rfl, by rfl, rfl⟩

/-- Compiling a grammar is at most one call of the engine, and registers nothing. -/
private theorem compile_follows (store : Store) (scope : ScopeName) (language : Nat)
    (configuration : Configuration) :
    store.Follows (store.compile scope language configuration).2 := by
  rcases store.compile_cases scope language configuration with
    ⟨handle, -, heq⟩ | ⟨result, calls, -, hcalls, heq⟩ | ⟨handle, hnumber, hsource, heq⟩
  · rw [heq]
    exact .refl store
  · rw [heq]
    exact ⟨fun _ h => h, hcalls, fun _ _ h => Or.inl h⟩
  · -- The new grammar has the number of the call, all others were there before.
    rw [heq]
    refine ⟨fun _ h => h, Nat.le_succ _, fun other found hfind => ?_⟩
    dsimp only at hfind ⊢
    rw [Dict.find?_insert] at hfind
    split at hfind
    · cases hfind
      exact Or.inr ⟨by omega, by omega, hsource⟩
    · exact Or.inl hfind

/-- The compiled grammar that is handed out is kept for its scope. -/
private theorem find?_of_compile {store : Store} {scope : ScopeName} {language : Nat}
    {configuration : Configuration} {handle : Handle}
    (h : (store.compile scope language configuration).1 = .ok (some handle)) :
    Dict.find? scope (store.compile scope language configuration).2.compiled = some handle := by
  -- It was kept before, or it was compiled now; otherwise nothing is handed out.
  rcases store.compile_cases scope language configuration with
    ⟨found, hfind, heq⟩ | ⟨result, calls, hnone, -, heq⟩ | ⟨found, -, -, heq⟩
  · rw [heq] at h ⊢
    cases h
    exact hfind
  · rw [heq] at h
    exact absurd h (hnone handle)
  · rw [heq] at h ⊢
    cases h
    exact (Dict.find?_insert _ _ _ _).trans (if_pos rfl)

end Store

namespace Registry

/-! ## One operation -/

/-- What can be done with a registry. -/
inductive Operation where
  /-- Loads all that a scope depends on. -/
  | resolve (scope : ScopeName)
  /-- Loads all that a scope depends on, and compiles its grammar. -/
  | load (scope : ScopeName) (language : Nat) (configuration : Configuration)
  /-- Registers a grammar and compiles it. -/
  | add (grammar : Grammar) (injected : List ScopeName) (language : Nat)
    (embedded : List (ScopeName × Nat))
  | grammarFor (scope : ScopeName) (language : Nat) (configuration : Configuration)
  | setTheme (source : ThemeSource) (table : Option (List String))

/-- The registry after an operation. A theme with an error is not set. -/
def perform (registry : Registry) : Operation → Registry
  | .resolve scope => (registry.resolve scope).2
  | .load scope language configuration => (registry.load scope language configuration).2
  | .add grammar injected language embedded => (registry.add grammar injected language embedded).2
  | .grammarFor scope language configuration => (registry.grammarFor scope language configuration).2
  | .setTheme source table =>
    match registry.setTheme source table with
    | .ok next => next
    | .error _ => registry

def performAll (registry : Registry) (operations : List Operation) : Registry :=
  operations.foldl perform registry

/-- A resolution registers grammars and compiles nothing. -/
theorem resolve_extends (registry : Registry) (scope : ScopeName) :
    registry.store.Extends (registry.resolve scope).2.store :=
  Library.Steps.extends
    (Library.steps_resolve registry.loader registry.limit registry.library scope)

/-- A compiled grammar is asked for in the store. -/
theorem grammarFor_store (registry : Registry) (scope : ScopeName) (language : Nat)
    (configuration : Configuration) :
    (registry.grammarFor scope language configuration).2.store =
      (registry.store.compile scope language configuration).2 := by
  unfold grammarFor
  dsimp only
  split <;> rfl

/-- Asking for a compiled grammar compiles at most one. -/
private theorem grammarFor_follows (registry : Registry) (scope : ScopeName) (language : Nat)
    (configuration : Configuration) :
    registry.store.Follows (registry.grammarFor scope language configuration).2.store := by
  rw [grammarFor_store]
  exact registry.store.compile_follows scope language configuration

/-- A load registers grammars and then compiles at most one. -/
private theorem load_follows (registry : Registry) (scope : ScopeName) (language : Nat)
    (configuration : Configuration) :
    registry.store.Follows (registry.load scope language configuration).2.store := by
  -- Whatever the end of the resolution, what it has registered stays.
  have hresolve := registry.resolve_extends scope
  unfold load
  split
  · rename_i next heq
    rw [heq] at hresolve
    exact hresolve.follows
  · rename_i e next heq
    rw [heq] at hresolve
    exact hresolve.follows
  · rename_i resolution next heq
    rw [heq] at hresolve
    exact hresolve.then (next.grammarFor_follows scope language configuration)

/-- A theme can be set if it can be read. Then it is in force, and nothing is compiled under it
yet. -/
theorem setTheme_eq_ok_iff {registry next : Registry} {source : ThemeSource}
    {table : Option (List String)} :
    registry.setTheme source table = .ok next ↔
      ∃ theme, Theme.ofSource source table = .ok theme ∧
        next = registry.withStore { registry.store with theme := theme, compiled := [] } := by
  unfold setTheme Store.setTheme
  cases Theme.ofSource source table with
  | error problem => simp [Except.map]
  | ok theme => simp [Except.map, eq_comm]

/-- A change of the theme compiles nothing. -/
private theorem setTheme_follows {registry next : Registry} {source : ThemeSource}
    {table : Option (List String)} (h : registry.setTheme source table = .ok next) :
    registry.store.Follows next.store := by
  -- There is no compiled grammar left to account for.
  obtain ⟨theme, -, rfl⟩ := setTheme_eq_ok_iff.1 h
  exact ⟨fun _ hs => hs, Nat.le_refl _, fun _ _ hfind => nomatch hfind⟩

/-- An operation registers grammars and then compiles at most one. -/
theorem perform_follows (registry : Registry) (operation : Operation) :
    registry.store.Follows (registry.perform operation).store := by
  cases operation with
  | resolve scope => exact (registry.resolve_extends scope).follows
  | load scope language configuration => exact registry.load_follows scope language configuration
  | add grammar injected language embedded =>
    -- The grammar is compiled from the store in which it is registered.
    exact (Store.register_extends registry.store grammar injected).then
      (grammarFor_follows (registry.withStore _) grammar.scope language ⟨embedded, []⟩)
  | grammarFor scope language configuration =>
    exact registry.grammarFor_follows scope language configuration
  | setTheme source table =>
    simp only [perform]
    split
    · rename_i next heq
      exact setTheme_follows heq
    · exact .refl registry.store

/-! ## Any number of operations -/

/-- More operations go on from where the first ones ended. -/
private theorem performAll_append (registry : Registry) (operations later : List Operation) :
    registry.performAll (operations ++ later) =
      (registry.performAll operations).performAll later :=
  List.foldl_append

/-- Operations register grammars and count calls of the engine on. -/
private theorem performAll_grows (registry : Registry) (operations : List Operation) :
    (∀ scope, (registry.store.lookup scope).isSome →
      ((registry.performAll operations).store.lookup scope).isSome) ∧
    registry.store.calls ≤ (registry.performAll operations).store.calls := by
  induction operations generalizing registry with
  | nil => exact ⟨fun _ h => h, Nat.le_refl _⟩
  | cons operation operations ih =>
    -- One operation neither forgets a grammar nor a call.
    have hfirst := registry.perform_follows operation
    obtain ⟨hlookup, hcalls⟩ := ih (registry.perform operation)
    exact ⟨fun scope hs => hlookup scope (hfirst.lookup_isSome scope hs),
      Nat.le_trans hfirst.calls_le hcalls⟩

/-- A compiled grammar comes from one of the operations, which had nothing else to compile it from
than all that was registered when the operation ended. -/
structure Traced (registry : Registry) (operations : List Operation) (handle : Handle) : Prop where
  /-- The operation compiled it from all that was registered. -/
  made : ∃ earlier, earlier <+: operations ∧
    handle.number ≤ (registry.performAll earlier).store.calls ∧
    handle.source.definitions = (registry.performAll earlier).store.definitions
  /-- From then on all of that has been registered. -/
  kept : ∀ earlier, earlier <+: operations →
    handle.number ≤ (registry.performAll earlier).store.calls →
    ∀ scope, (handle.source.grammar? scope).isSome →
      ((registry.performAll earlier).store.lookup scope).isSome

/-- A snapshot has the scopes that were registered when it was taken. -/
private theorem isSome_grammar?_iff {handle : Handle} {store : Store}
    (h : handle.source.definitions = store.definitions) (scope : ScopeName) :
    (handle.source.grammar? scope).isSome ↔ (store.lookup scope).isSome := by
  rw [Source.grammar?, Option.isSome_map, h, Store.lookup]

/-- Every compiled grammar comes from an operation, and from what was registered. -/
theorem traced_performAll {registry : Registry} (h : registry.store.compiled = [])
    (operations : List Operation) {scope : ScopeName} {handle : Handle}
    (hfind : Dict.find? scope (registry.performAll operations).store.compiled = some handle) :
    registry.Traced operations handle := by
  induction operations using List.reverseRecOn with
  | nil =>
    -- Before the first operation nothing is compiled.
    have hnone : Dict.find? scope registry.store.compiled = some handle := hfind
    rw [h] at hnone
    cases hnone
  | append_singleton operations operation ih =>
    -- The induction is on the last operation: it has compiled the grammar, or it has kept it.
    have hlast : registry.performAll (operations ++ [operation]) =
        (registry.performAll operations).perform operation := performAll_append _ _ _
    have hfollows := (registry.performAll operations).perform_follows operation
    rw [← hlast] at hfollows
    rcases hfollows.compiled scope handle hfind with hold | ⟨hlt, hle, hsource⟩
    · -- Compiled before: nothing that was registered is lost.
      have htraced := ih hold
      obtain ⟨earlier, hearlier, hnumber, hmade⟩ := htraced.made
      refine ⟨⟨earlier, hearlier.trans (List.prefix_append _ _), hnumber, hmade⟩, ?_⟩
      intro other hother hothernumber name hname
      rcases List.prefix_concat_iff.1 hother with rfl | hprefix
      · refine hfollows.lookup_isSome name ?_
        refine htraced.kept operations (List.prefix_refl _) ?_ name hname
        obtain ⟨later, rfl⟩ := hearlier
        rw [performAll_append]
        exact Nat.le_trans hnumber (performAll_grows _ later).2
      · exact htraced.kept other hprefix hothernumber name hname
    · -- Compiled now: no shorter list of operations has come so far.
      refine ⟨⟨_, List.prefix_refl _, hle, hsource⟩, ?_⟩
      intro other hother hothernumber name hname
      rcases List.prefix_concat_iff.1 hother with rfl | ⟨later, rfl⟩
      · exact (isSome_grammar?_iff hsource name).1 hname
      · -- By then the engine had not been called as often as the number says.
        rw [performAll_append] at hlt
        have := (performAll_grows (registry.performAll other) later).2
        omega

/-! ## Loads -/

/-- A grammar that is handed out is kept for its scope. -/
private theorem find?_of_grammarFor {registry : Registry} {scope : ScopeName} {language : Nat}
    {configuration : Configuration} {handle : Handle}
    (h : (registry.grammarFor scope language configuration).1 = .ok handle) :
    Dict.find? scope (registry.grammarFor scope language configuration).2.store.compiled =
      some handle := by
  rw [grammarFor_store]
  -- Only a compiled grammar is handed out; the other answers are errors.
  refine Store.find?_of_compile ?_
  unfold grammarFor at h
  dsimp only at h
  split at h
  · cases h
  · cases h
  · rename_i found hfound
    cases h
    exact hfound

/-- A load hands out a grammar only after a resolution, and keeps it for its scope. -/
private theorem load_eq_ok {registry : Registry} {scope : ScopeName} {language : Nat}
    {configuration : Configuration} {handle : Handle}
    (h : (registry.load scope language configuration).1 = some (.ok handle)) :
    ∃ resolution, (registry.resolve scope).1 = some (.ok resolution) ∧
      Dict.find? scope (registry.load scope language configuration).2.store.compiled =
        some handle ∧
      (registry.resolve scope).2.store.Follows
        (registry.load scope language configuration).2.store := by
  unfold load at h ⊢
  -- The resolution has no result, fails, or ends with a report.
  split at h
  · cases h
  · cases h
  · rename_i resolution next heq
    rw [heq]
    exact ⟨resolution, rfl, find?_of_grammarFor (Option.some.inj h),
      next.grammarFor_follows scope language configuration⟩

/-- Whatever was done with a registry, the snapshot behind a loaded grammar has all that its load
has found exactly when all of that was registered at the end of every earlier operation by whose end
the grammar had been compiled. So it does when the load itself compiles the grammar. -/
theorem load_snapshot_complete_iff (loader : Loader) (limit : Nat) (engine : Engine)
    (operations : List Operation) {scope : ScopeName} {language : Nat}
    {configuration : Configuration} {handle : Handle}
    (h : (((empty loader limit engine).performAll operations).load scope language
      configuration).1 = some (.ok handle)) :
    ∃ resolution,
      (((empty loader limit engine).performAll operations).resolve scope).1 =
        some (.ok resolution) ∧
      ((∀ name ∈ resolution.loaded, (handle.source.grammar? name).isSome) ↔
        ∀ earlier, earlier <+: operations →
          handle.number ≤ ((empty loader limit engine).performAll earlier).store.calls →
          ∀ name ∈ resolution.loaded,
            (((empty loader limit engine).performAll earlier).store.lookup name).isSome) := by
  obtain ⟨resolution, hresolve, hfind, hfollows⟩ := load_eq_ok h
  have hlast : (empty loader limit engine).performAll
      (operations ++ [.load scope language configuration]) =
        (((empty loader limit engine).performAll operations).load scope language
          configuration).2 := performAll_append _ _ _
  -- The load counts as one more operation.
  rw [← hlast] at hfind hfollows
  have htraced := traced_performAll (by rfl) _ hfind
  refine ⟨resolution, hresolve, ?_, ?_⟩
  · -- What the snapshot has was registered when it was taken, and has been from then on.
    intro hcomplete earlier hearlier hnumber name hname
    exact htraced.kept earlier (hearlier.trans (List.prefix_append _ _)) hnumber name
      (hcomplete name hname)
  · intro hregistered name hname
    -- What the snapshot has was registered at the end of the operation that compiled it.
    obtain ⟨earlier, hearlier, hnumber, hsource⟩ := htraced.made
    rw [isSome_grammar?_iff hsource]
    rcases List.prefix_concat_iff.1 hearlier with rfl | hprefix
    · -- The load itself has compiled the grammar, behind its resolution.
      exact hfollows.lookup_isSome name (Library.lookup_isSome_of_resolve hresolve hname)
    · exact hregistered earlier hprefix hnumber name hname

/-! ## A grammar that was compiled before its load -/

/-- An engine whose tokenizers find no tokens. -/
def tokenless : Engine :=
  ⟨"tokenless", fun _ source => .ok ⟨source.scope,
    fun _ state => ⟨[], state.getD (.root 1 (.rootOf source.classifier source.scope)), false⟩,
    fun _ state => ⟨[], state.getD (.root 1 (.rootOf source.classifier source.scope)), false⟩⟩⟩

/-- The scope of a grammar that includes another one. -/
def outer : ScopeName := ⟨"source.outer", by decide, by simp, by simp; decide⟩

def inner : ScopeName := ⟨"source.inner", by decide, by simp, by simp; decide⟩

def outerGrammar : Grammar := (Grammar.empty outer).addPattern (.including inner.text)

def twoGrammars : Registry :=
  empty (.ofGrammars [outerGrammar, .empty inner] []) 20 tokenless

/-- A check of what a load hands out gives the compiled grammar that it was made on. -/
private theorem exists_handle {result : Option (Except Error Handle)} {p : Handle → Bool}
    (h : (result.bind Except.toOption).any p = true) :
    ∃ handle, result = some (.ok handle) ∧ p handle = true := by
  rcases result with _ | e | handle
  · cases h
  · cases h
  · exact ⟨handle, rfl, h⟩

/-- A load that compiles the grammar itself compiles it with the included one. -/
theorem load_snapshot_complete_after_resolve :
    ∃ handle, ((twoGrammars.performAll [.resolve outer]).load outer 0 ⟨[], []⟩).1 =
        some (.ok handle) ∧
      ∃ resolution, ((twoGrammars.performAll [.resolve outer]).resolve outer).1 =
          some (.ok resolution) ∧
        ∀ name ∈ resolution.loaded, (handle.source.grammar? name).isSome := by
  have hcheck : (((twoGrammars.performAll [.resolve outer]).load outer 0 ⟨[], []⟩).1.bind
      Except.toOption).any (·.number == 1) = true := by cbv
  obtain ⟨handle, hload, hnumber⟩ := exists_handle hcheck
  obtain ⟨resolution, hresolve, hiff⟩ := load_snapshot_complete_iff _ _ _ _ hload
  refine ⟨handle, hload, resolution, hresolve, hiff.2 fun earlier hearlier hle => ?_⟩
  -- No operation before the load has called the engine.
  obtain ⟨later, hlater⟩ := hearlier
  have hcalls : (twoGrammars.performAll [.resolve outer]).store.calls = 0 := by cbv
  rw [← hlater, performAll_append] at hcalls
  have hgrows := (performAll_grows (twoGrammars.performAll earlier) later).2
  have hone : handle.number = 1 := eq_of_beq hnumber
  have hle' : handle.number ≤ (twoGrammars.performAll earlier).store.calls := hle
  omega

/-- A grammar that was registered and compiled without asking the loader is kept as it was compiled:
a later load finds the grammar that it includes and hands out the old one, which does not have
it. -/
theorem load_snapshot_incomplete :
    ¬ ∀ (loader : Loader) (limit : Nat) (engine : Engine) (operations : List Operation)
        (scope : ScopeName) (language : Nat) (configuration : Configuration)
        (resolution : Resolution) (handle : Handle),
      (((empty loader limit engine).performAll operations).resolve scope).1 =
        some (.ok resolution) →
      (((empty loader limit engine).performAll operations).load scope language
        configuration).1 = some (.ok handle) →
      ∀ name ∈ resolution.loaded, (handle.source.grammar? name).isSome := by
  intro h
  -- The load resolves to both scopes, but the grammar was compiled when one was registered.
  have hresolve : ((twoGrammars.performAll [.add outerGrammar [] 0 []]).resolve outer).1 =
      some (.ok ⟨some outer, 2, [outer, inner], [outer, inner], [], []⟩) := by cbv
  have hcheck : (((twoGrammars.performAll [.add outerGrammar [] 0 []]).load outer 0
      ⟨[], []⟩).1.bind Except.toOption).any
        (fun handle => !(handle.source.grammar? inner).isSome) = true := by cbv
  obtain ⟨handle, hload, hnone⟩ := exists_handle hcheck
  have hsome := h _ _ _ _ outer 0 ⟨[], []⟩ _ handle hresolve hload inner (by simp)
  rw [hsome] at hnone
  cases hnone

end Registry

end Textmate
