import Textmate.Proofs.Registry.Snapshots

/-!
# Compiled grammars follow the theme

A compiled grammar has taken its colors from the theme under which it was compiled. A store keeps it
until the theme changes, whatever is registered or configured in the meantime. So every grammar that
is handed out was compiled under the theme in force, and under one theme a scope has one compiled
grammar.

An operation makes at most one request to the store, and the request calls the engine at most once.
`Store.CompilesTo` and `perform_cases` say all that this can lead to.

## Key results

- `compilesTo_compile`: what a request for a compiled grammar leads to
- `perform_cases`: what an operation leads to
- `current_performAll`: every compiled grammar was compiled under the theme in force
- `compileCount_le_one`: under one theme a scope is compiled at most once
- `handles_follow_theme`: what the operations of a registry hand out
-/

namespace Textmate

/-- A call of the engine has made the compiled grammar, from a snapshot with the theme. -/
structure Handle.MadeUnder (handle : Handle) (engine : Engine) (theme : Theme) : Prop where
  made : engine.compile handle.number handle.source = .ok handle.tokenizer
  theme_eq : handle.source.theme = theme

namespace Store

/-! ## One request -/

/-- What the engine gets when the compiled grammar of a scope is requested, if it is called: a scope
whose compiled grammar is kept or that is not registered does not come to it, nor does a
configuration with a language that does not fit. -/
def asked? (store : Store) (scope : ScopeName) (language : Nat) (configuration : Configuration) :
    Option Source :=
  if (Dict.find? scope store.compiled).isSome || (store.lookup scope).isNone then none
  else
    (Classifier.ofConfiguration language configuration).toOption.map
      (store.snapshot scope language)

/-- A kept compiled grammar does not come to the engine. -/
private theorem asked?_of_find? {store : Store} {scope : ScopeName} {handle : Handle}
    (h : Dict.find? scope store.compiled = some handle) (language : Nat)
    (configuration : Configuration) : store.asked? scope language configuration = none := by
  rw [asked?, h]
  rfl

/-- What a request for the compiled grammar of a scope leads to. -/
inductive CompilesTo (store : Store) (scope : ScopeName) (language : Nat)
    (configuration : Configuration) : Except Error (Option Handle) × Store → Prop
  /-- The compiled grammar was kept. -/
  | kept (handle : Handle) (hfind : Dict.find? scope store.compiled = some handle) :
    CompilesTo store scope language configuration (.ok (some handle), store)
  /-- The engine was not called. -/
  | refused (result : Except Error (Option Handle))
      (hfind : Dict.find? scope store.compiled = none)
      (hasked : store.asked? scope language configuration = none)
      (hresult : ∀ handle, result ≠ .ok (some handle)) :
    CompilesTo store scope language configuration (result, store)
  /-- The engine was called and failed. -/
  | failed (source : Source) (e : Error) (hfind : Dict.find? scope store.compiled = none)
      (hasked : store.asked? scope language configuration = some source)
      (hengine : store.engine.compile (store.calls + 1) source = .error e) :
    CompilesTo store scope language configuration
      (.error e, { store with calls := store.calls + 1 })
  /-- The engine has compiled the grammar, which is kept from now on. -/
  | made (source : Source) (tokenizer : Tokenizer)
      (hfind : Dict.find? scope store.compiled = none)
      (hasked : store.asked? scope language configuration = some source)
      (hengine : store.engine.compile (store.calls + 1) source = .ok tokenizer) :
    CompilesTo store scope language configuration
      (.ok (some ⟨store.calls + 1, source, tokenizer⟩),
        { store with
          calls := store.calls + 1
          compiled := Dict.insert scope ⟨store.calls + 1, source, tokenizer⟩ store.compiled })

/-- These are all the ends of a request. -/
theorem compilesTo_compile (store : Store) (scope : ScopeName) (language : Nat)
    (configuration : Configuration) :
    CompilesTo store scope language configuration
      (store.compile scope language configuration) := by
  unfold compile
  -- The cases are those of the function, in its order.
  split
  · rename_i handle hfind
    exact .kept handle hfind
  · rename_i hfind
    split
    · rename_i hlookup
      refine .refused _ hfind ?_ (by simp)
      rw [asked?, hlookup]
      simp
    · rename_i definition hlookup
      split
      · rename_i e hclassifier
        refine .refused _ hfind ?_ (by simp)
        simp [asked?, hfind, hlookup, hclassifier, Except.toOption]
      · rename_i classifier hclassifier
        -- From here on the engine is called, with the same snapshot at both ends.
        have hasked : store.asked? scope language configuration =
            some (store.snapshot scope language classifier) := by
          simp [asked?, hfind, hlookup, hclassifier, Except.toOption]
        dsimp only
        split
        · rename_i e hengine
          exact .failed _ e hfind hasked hengine
        · rename_i tokenizer hengine
          exact .made _ tokenizer hfind hasked hengine

/-- What the engine gets is a snapshot of the store. -/
theorem exists_snapshot_of_asked? {store : Store} {scope : ScopeName} {language : Nat}
    {configuration : Configuration} {source : Source}
    (h : store.asked? scope language configuration = some source) :
    ∃ classifier, source = store.snapshot scope language classifier := by
  unfold asked? at h
  split at h
  · cases h
  · obtain ⟨classifier, -, heq⟩ := Option.map_eq_some_iff.1 h
    exact ⟨classifier, heq.symm⟩

/-- The engine gets the theme of the store. -/
private theorem theme_of_asked? {store : Store} {scope : ScopeName} {language : Nat}
    {configuration : Configuration} {source : Source}
    (h : store.asked? scope language configuration = some source) : source.theme = store.theme := by
  obtain ⟨classifier, rfl⟩ := exists_snapshot_of_asked? h
  rfl

/-- All compiled grammars were made by the engine under the theme in force. -/
def Current (store : Store) : Prop :=
  ∀ scope handle, Dict.find? scope store.compiled = some handle →
    handle.MadeUnder store.engine store.theme

namespace CompilesTo

variable {store next : Store} {scope : ScopeName} {language : Nat}
  {configuration : Configuration} {result : Except Error (Option Handle)}

/-- A request leaves the theme and the engine alone. -/
private theorem theme_eq (h : store.CompilesTo scope language configuration (result, next)) :
    next.theme = store.theme ∧ next.engine = store.engine := by
  cases h <;> exact ⟨rfl, rfl⟩

/-- Without a compiled grammar to hand out, none is kept or lost. -/
private theorem compiled_eq (h : store.CompilesTo scope language configuration (result, next))
    (hresult : ∀ handle, result ≠ .ok (some handle)) : next.compiled = store.compiled := by
  cases h with
  | kept handle _ => exact absurd rfl (hresult handle)
  | refused => rfl
  | failed => rfl
  | made source tokenizer _ _ _ => exact absurd rfl (hresult _)

/-- A compiled grammar is kept. -/
private theorem find?_of_find? (h : store.CompilesTo scope language configuration (result, next))
    {other : ScopeName} {handle : Handle} (hfind : Dict.find? other store.compiled = some handle) :
    Dict.find? other next.compiled = some handle := by
  cases h with
  | kept _ _ => exact hfind
  | refused => exact hfind
  | failed => exact hfind
  | made source tokenizer hnone _ _ =>
    -- The new compiled grammar is for a scope that had none.
    have hne : scope ≠ other := by
      rintro rfl
      rw [hnone] at hfind
      cases hfind
    rw [Dict.find?_insert, if_neg hne]
    exact hfind

/-- A compiled grammar that is handed out is kept from now on, and if the scope had one it is
that. -/
theorem find?_of_ok {handle : Handle}
    (h : store.CompilesTo scope language configuration (.ok (some handle), next)) :
    Dict.find? scope next.compiled = some handle ∧
      ∀ found, Dict.find? scope store.compiled = some found → found = handle := by
  cases h with
  | kept _ hfind =>
    refine ⟨hfind, fun found hfound => ?_⟩
    rw [hfind, Option.some.injEq] at hfound
    exact hfound.symm
  | refused _ _ _ hresult => exact absurd rfl (hresult handle)
  | made source tokenizer hnone _ _ =>
    -- One is compiled only when the scope had none.
    refine ⟨(Dict.find?_insert _ _ _ _).trans (if_pos rfl), fun found hfound => ?_⟩
    rw [hnone] at hfound
    cases hfound

/-- A request compiles under the theme in force. -/
private theorem current (h : store.CompilesTo scope language configuration (result, next))
    (hcurrent : store.Current) : next.Current := by
  cases h with
  | kept _ _ => exact hcurrent
  | refused => exact hcurrent
  | failed => exact hcurrent
  | made source tokenizer _ hasked hengine =>
    intro other handle hfind
    rw [Dict.find?_insert] at hfind
    split at hfind
    · -- The new grammar was compiled with the theme in force.
      cases hfind
      have htheme := theme_of_asked? hasked
      exact ⟨hengine, htheme⟩
    · exact hcurrent other handle hfind

end CompilesTo

end Store

namespace Registry

/-! ## One operation -/

/-- What an operation answers. -/
inductive Answer where
  | resolution (result : Option (Except Error Resolution))
  /-- The compiled grammar, or nothing if it takes more than the limit of turns. -/
  | handle (result : Option (Except Error Handle))
  | theme (result : Except Error Unit)

def answer (registry : Registry) : Operation → Answer
  | .resolve scope => .resolution (registry.resolve scope).1
  | .load scope language configuration => .handle (registry.load scope language configuration).1
  | .add grammar injected language embedded =>
    .handle (some (registry.add grammar injected language embedded).1)
  | .grammarFor scope language configuration =>
    .handle (some (registry.grammarFor scope language configuration).1)
  | .setTheme source table => .theme ((registry.setTheme source table).map fun _ => ())

/-- The operation succeeds and hands out a compiled grammar. -/
def HandsOut (registry : Registry) (operation : Operation) (handle : Handle) : Prop :=
  registry.answer operation = .handle (some (.ok handle))

/-- The operation succeeds in setting a theme. -/
def ChangesTheme (registry : Registry) (operation : Operation) : Prop :=
  registry.answer operation = .theme (.ok ())

/-- The scope whose compiled grammar an operation asks for. -/
def Operation.target? : Operation → Option ScopeName
  | .resolve _ => none
  | .load scope _ _ => some scope
  | .add grammar _ _ _ => some grammar.scope
  | .grammarFor scope _ _ => some scope
  | .setTheme _ _ => none

/-- A request for the compiled grammar of a scope, with the store that gets it. -/
structure Request where
  store : Store
  scope : ScopeName
  language : Nat
  configuration : Configuration

/-- The request that an operation makes to the store, after it has loaded or registered what it
has to. -/
def request? (registry : Registry) : Operation → Option Request
  | .resolve _ => none
  | .load scope language configuration =>
    match registry.resolve scope with
    | (some (.ok _), next) => some ⟨next.store, scope, language, configuration⟩
    | _ => none
  | .add grammar injected language embedded =>
    some ⟨registry.store.register grammar injected, grammar.scope, language, ⟨embedded, []⟩⟩
  | .grammarFor scope language configuration =>
    some ⟨registry.store, scope, language, configuration⟩
  | .setTheme _ _ => none

/-- What a request leads to. -/
def Request.compile (request : Request) : Except Error (Option Handle) × Store :=
  request.store.compile request.scope request.language request.configuration

/-- The engine compiles the grammar of a scope in an operation, and succeeds. -/
def compiles (registry : Registry) (operation : Operation) (scope : ScopeName) : Bool :=
  match registry.request? operation with
  | none => false
  | some request =>
    match request.store.asked? request.scope request.language request.configuration with
    | none => false
    | some source =>
      request.scope = scope && (request.store.engine.compile (request.store.calls + 1) source).isOk

/-- A compiled grammar is handed out when the store has one or compiles one. -/
theorem grammarFor_eq_ok_iff {registry : Registry} {scope : ScopeName} {language : Nat}
    {configuration : Configuration} {handle : Handle} :
    (registry.grammarFor scope language configuration).1 = .ok handle ↔
      (registry.store.compile scope language configuration).1 = .ok (some handle) := by
  unfold grammarFor
  dsimp only
  split <;> simp_all

/-- A theme that is not read leaves the registry as it was. -/
private theorem perform_setTheme_error {registry : Registry} {source : ThemeSource}
    {table : Option (List String)} {e : Error} (h : registry.setTheme source table = .error e) :
    registry.perform (.setTheme source table) = registry := by
  simp only [perform, h]

/-- A theme that was set is the one read from its source, and nothing is compiled under it yet. -/
private theorem store_of_changesTheme {registry : Registry} {source : ThemeSource}
    {table : Option (List String)} (h : registry.ChangesTheme (.setTheme source table)) :
    Theme.ofSource source table = .ok (registry.perform (.setTheme source table)).store.theme ∧
      (registry.perform (.setTheme source table)).store.compiled = [] := by
  cases htheme : registry.setTheme source table with
  | error e =>
    rw [ChangesTheme, answer, htheme] at h
    cases h
  | ok next =>
    obtain ⟨theme, hsource, rfl⟩ := setTheme_eq_ok_iff.1 htheme
    simp only [perform, htheme]
    exact ⟨hsource, rfl⟩

/-- What an operation leads to: one request for a compiled grammar, or none at all, or a change of
the theme. -/
theorem perform_cases (registry : Registry) (operation : Operation) :
    (∃ request, registry.request? operation = some request ∧
      registry.store.Extends request.store ∧ operation.target? = some request.scope ∧
      (registry.perform operation).store = request.compile.2 ∧
      ¬ registry.ChangesTheme operation ∧
      ∀ handle, registry.HandsOut operation handle ↔ request.compile.1 = .ok (some handle)) ∨
    (registry.request? operation = none ∧
      registry.store.Extends (registry.perform operation).store ∧
      ¬ registry.ChangesTheme operation ∧ ∀ handle, ¬ registry.HandsOut operation handle) ∨
    registry.request? operation = none ∧ registry.ChangesTheme operation ∧
      (registry.perform operation).store.compiled = [] ∧
      (registry.perform operation).store.engine = registry.store.engine ∧
      ∀ handle, ¬ registry.HandsOut operation handle := by
  cases operation with
  | resolve scope =>
    refine Or.inr (Or.inl ⟨rfl, registry.resolve_extends scope, fun htheme => ?_, fun _ hout => ?_⟩)
    · cases htheme
    · cases hout
  | load scope language configuration =>
    have hextends := registry.resolve_extends scope
    simp only [request?, HandsOut, ChangesTheme, answer, perform, load]
    -- Only a resolution that has succeeded is followed by a request.
    split
    · rename_i resolution next heq
      rw [heq] at hextends ⊢
      refine Or.inl ⟨_, rfl, hextends, rfl, ?_, fun h => (by cases h), fun handle => ?_⟩
      · exact next.grammarFor_store scope language configuration
      · rw [Answer.handle.injEq, Option.some.injEq, grammarFor_eq_ok_iff]
        rfl
    · rename_i hfail
      refine Or.inr (Or.inl ⟨rfl, ?_, fun h => (by cases h), fun handle => ?_⟩)
      · split
        · rename_i heq
          rw [heq] at hextends
          exact hextends
        · rename_i heq
          rw [heq] at hextends
          exact hextends
        · rename_i resolution next heq
          exact absurd heq (hfail resolution next)
      · split
        · exact fun h => by cases h
        · exact fun h => by cases h
        · rename_i resolution next heq
          exact absurd heq (hfail resolution next)
  | add grammar injected language embedded =>
    -- The request comes after the grammar was registered.
    refine Or.inl ⟨_, rfl, Store.register_extends registry.store grammar injected, rfl, ?_,
      fun h => (by cases h), fun handle => ?_⟩
    · exact grammarFor_store (registry.withStore _) grammar.scope language ⟨embedded, []⟩
    · rw [HandsOut, answer, Answer.handle.injEq, Option.some.injEq, add, grammarFor_eq_ok_iff]
      rfl
  | grammarFor scope language configuration =>
    refine Or.inl ⟨_, rfl, .refl registry.store, rfl, ?_, fun h => (by cases h), fun handle => ?_⟩
    · exact registry.grammarFor_store scope language configuration
    · rw [HandsOut, answer, Answer.handle.injEq, Option.some.injEq, grammarFor_eq_ok_iff]
      rfl
  | setTheme source table =>
    cases htheme : registry.setTheme source table with
    | error e =>
      refine Or.inr (Or.inl ⟨rfl, ?_, ?_, fun _ h => by cases h⟩)
      · -- An error counts as an operation that leads to nothing.
        rw [perform_setTheme_error htheme]
        exact .refl registry.store
      · rw [ChangesTheme, answer, htheme]
        exact fun h => by cases h
    | ok next =>
      refine Or.inr (Or.inr ⟨rfl, ?_, ?_⟩)
      · rw [ChangesTheme, answer, htheme]
        rfl
      · obtain ⟨theme, -, rfl⟩ := setTheme_eq_ok_iff.1 htheme
        simp only [perform, htheme]
        exact ⟨rfl, rfl, fun _ h => by cases h⟩

/-! ## Any number of operations -/

/-- None of the operations changes the theme. -/
def KeepsTheme (registry : Registry) : List Operation → Prop
  | [] => True
  | operation :: rest =>
    ¬ registry.ChangesTheme operation ∧ (registry.perform operation).KeepsTheme rest

/-- How often the engine compiles the grammar of a scope in a list of operations, with success. -/
def compileCount (registry : Registry) (scope : ScopeName) : List Operation → Nat
  | [] => 0
  | operation :: rest =>
    (if registry.compiles operation scope then 1 else 0) +
      (registry.perform operation).compileCount scope rest

/-- All compiled grammars were made by the engine under the theme in force. -/
private theorem current_perform {registry : Registry} (h : registry.store.Current)
    (operation : Operation) :
    (registry.perform operation).store.Current ∧
      (registry.perform operation).store.engine = registry.store.engine := by
  -- Loading and registering leave what was compiled as it was.
  have hextends {next : Store} (hnext : registry.store.Extends next) : next.Current := by
    intro scope handle hfind
    rw [hnext.compiled_eq] at hfind
    rw [hnext.engine_eq, hnext.theme_eq]
    exact h scope handle hfind
  rcases registry.perform_cases operation with
    ⟨request, -, hrequest, -, hstore, -, -⟩ | ⟨-, hnext, -, -⟩ | ⟨-, -, hempty, hengine, -⟩
  · have hcompile := request.store.compilesTo_compile request.scope request.language
      request.configuration
    rw [hstore]
    exact ⟨hcompile.current (hextends hrequest), hcompile.theme_eq.2.trans hrequest.engine_eq⟩
  · exact ⟨hextends hnext, hnext.engine_eq⟩
  · -- Under a new theme nothing is compiled yet.
    refine ⟨fun scope handle hfind => ?_, hengine⟩
    rw [hempty] at hfind
    cases hfind

/-- Operations compile under the theme in force, whatever it has become. -/
theorem current_performAll {registry : Registry} (h : registry.store.Current)
    (operations : List Operation) :
    (registry.performAll operations).store.Current ∧
      (registry.performAll operations).store.engine = registry.store.engine := by
  induction operations generalizing registry with
  | nil => exact ⟨h, rfl⟩
  | cons operation operations ih =>
    obtain ⟨hcurrent, hengine⟩ := current_perform h operation
    obtain ⟨hlast, hengine'⟩ := ih hcurrent
    exact ⟨hlast, hengine'.trans hengine⟩

/-- A compiled grammar is kept until the theme changes. -/
private theorem find?_perform {registry : Registry} {operation : Operation}
    (hkeeps : ¬ registry.ChangesTheme operation) {scope : ScopeName} {handle : Handle}
    (hfind : Dict.find? scope registry.store.compiled = some handle) :
    Dict.find? scope (registry.perform operation).store.compiled = some handle := by
  -- By what the operation does: a request, nothing to compiled grammars, or a new theme.
  rcases registry.perform_cases operation with
    ⟨request, -, hrequest, -, hstore, -, -⟩ | ⟨-, hnext, -, -⟩ | ⟨-, hchanges, -⟩
  · rw [hstore]
    rw [← hrequest.compiled_eq] at hfind
    exact (Store.compilesTo_compile _ _ _ _).find?_of_find? hfind
  · rw [hnext.compiled_eq]
    exact hfind
  · exact absurd hchanges hkeeps

/-- A compiled grammar is kept while no operation changes the theme. -/
private theorem find?_performAll {registry : Registry} {operations : List Operation}
    (hkeeps : registry.KeepsTheme operations) {scope : ScopeName} {handle : Handle}
    (hfind : Dict.find? scope registry.store.compiled = some handle) :
    Dict.find? scope (registry.performAll operations).store.compiled = some handle := by
  induction operations generalizing registry with
  | nil => exact hfind
  | cons operation operations ih => exact ih hkeeps.2 (find?_perform hkeeps.1 hfind)

/-- A compiled grammar is handed out only where an operation asks for one. -/
private theorem exists_target_of_handsOut {registry : Registry} {operation : Operation}
    {handle : Handle}
    (h : registry.HandsOut operation handle) : ∃ scope, operation.target? = some scope := by
  rcases registry.perform_cases operation with
    ⟨request, -, -, htarget, -⟩ | ⟨-, -, -, hnone⟩ | ⟨-, -, -, -, hnone⟩
  · exact ⟨request.scope, htarget⟩
  · exact absurd h (hnone handle)
  · exact absurd h (hnone handle)

/-- The compiled grammar that an operation hands out is the one that is kept. -/
private theorem find?_of_handsOut {registry : Registry} {operation : Operation} {handle : Handle}
    (h : registry.HandsOut operation handle) {scope : ScopeName}
    (hscope : operation.target? = some scope) :
    Dict.find? scope (registry.perform operation).store.compiled = some handle ∧
      ∀ found, Dict.find? scope registry.store.compiled = some found → found = handle := by
  rcases registry.perform_cases operation with
    ⟨request, -, hrequest, htarget, hstore, -, hiff⟩ | ⟨-, -, -, hnone⟩ | ⟨-, -, -, -, hnone⟩
  · rw [htarget, Option.some.injEq] at hscope
    -- What the operation hands out is what its request has compiled.
    have hcompile : request.store.CompilesTo request.scope request.language request.configuration
        (.ok (some handle), request.compile.2) := by
      rw [← (hiff handle).1 h]
      exact Store.compilesTo_compile _ _ _ _
    rw [hstore, ← hrequest.compiled_eq, ← hscope]
    exact hcompile.find?_of_ok
  · exact absurd h (hnone handle)
  · exact absurd h (hnone handle)

/-- Without a compiled grammar to hand out, an operation that keeps the theme changes none. -/
private theorem compiled_perform {registry : Registry} {operation : Operation}
    (h : ∀ handle, ¬ registry.HandsOut operation handle)
    (hkeeps : ¬ registry.ChangesTheme operation) :
    (registry.perform operation).store.compiled = registry.store.compiled := by
  rcases registry.perform_cases operation with
    ⟨request, -, hrequest, -, hstore, -, hiff⟩ | ⟨-, hnext, -, -⟩ | ⟨-, hchanges, -⟩
  · -- A request that hands out nothing has compiled nothing.
    have hcompile := request.store.compilesTo_compile request.scope request.language
      request.configuration
    rw [hstore, ← hrequest.compiled_eq]
    exact hcompile.compiled_eq fun handle hok => h handle ((hiff handle).2 hok)
  · exact hnext.compiled_eq
  · exact absurd hchanges hkeeps

/-! ## How often a scope is compiled -/

/-- Where an operation compiles a grammar there is a request, and the engine was called. -/
private theorem exists_of_compiles {registry : Registry} {operation : Operation} {scope : ScopeName}
    (h : registry.compiles operation scope = true) :
    ∃ request source tokenizer, registry.request? operation = some request ∧
      request.scope = scope ∧
      request.store.asked? request.scope request.language request.configuration = some source ∧
      request.store.engine.compile (request.store.calls + 1) source = .ok tokenizer := by
  unfold compiles at h
  split at h
  · cases h
  · rename_i request hrequest
    split at h
    · cases h
    · rename_i source hasked
      -- The scope is that of the request, and the engine succeeds.
      rw [Bool.and_eq_true, decide_eq_true_eq] at h
      cases hengine : request.store.engine.compile (request.store.calls + 1) source with
      | error e =>
        rw [hengine] at h
        cases h.2
      | ok tokenizer => exact ⟨request, source, tokenizer, hrequest, h.1, hasked, hengine⟩

/-- While the compiled grammar of a scope is kept, the engine does not compile the scope. -/
private theorem compiles_eq_false {registry : Registry} {scope : ScopeName} {handle : Handle}
    (hfind : Dict.find? scope registry.store.compiled = some handle) (operation : Operation) :
    registry.compiles operation scope = false := by
  rw [Bool.eq_false_iff]
  intro h
  -- The request would have found the grammar that is kept.
  obtain ⟨request, source, -, hrequest, rfl, hasked, -⟩ := exists_of_compiles h
  rcases registry.perform_cases operation with
    ⟨other, hother, hextends, -⟩ | ⟨hnone, -⟩ | ⟨hnone, -⟩
  · obtain rfl := Option.some.inj (hother.symm.trans hrequest)
    rw [← hextends.compiled_eq] at hfind
    rw [Store.asked?_of_find? hfind] at hasked
    cases hasked
  · rw [hnone] at hrequest
    cases hrequest
  · rw [hnone] at hrequest
    cases hrequest

/-- What the engine compiles is kept. -/
private theorem exists_find?_of_compiles {registry : Registry} {operation : Operation}
    {scope : ScopeName} (h : registry.compiles operation scope = true) :
    ∃ handle, Dict.find? scope (registry.perform operation).store.compiled = some handle := by
  obtain ⟨request, source, tokenizer, hrequest, rfl, hasked, hengine⟩ := exists_of_compiles h
  rcases registry.perform_cases operation with
    ⟨other, hother, -, -, hstore, -⟩ | ⟨hnone, -⟩ | ⟨hnone, -⟩
  · obtain rfl := Option.some.inj (hother.symm.trans hrequest)
    rw [hstore, Request.compile]
    -- Of the ends of a request only one has a call of the engine that succeeds.
    generalize hends : other.store.compile other.scope other.language other.configuration = ends
    have hcompile := other.store.compilesTo_compile other.scope other.language other.configuration
    rw [hends] at hcompile
    cases hcompile with
    | kept handle hfind => exact ⟨handle, hfind⟩
    | refused _ _ hnone _ =>
      rw [hnone] at hasked
      cases hasked
    | failed source' e _ hasked' hengine' =>
      obtain rfl := Option.some.inj (hasked'.symm.trans hasked)
      rw [hengine'] at hengine
      cases hengine
    | made source' tokenizer' _ _ _ =>
      exact ⟨_, (Dict.find?_insert _ _ _ _).trans (if_pos rfl)⟩
  · -- An operation without a request has the engine compile nothing.
    rw [hnone] at hrequest
    cases hrequest
  · rw [hnone] at hrequest
    cases hrequest

/-- While a compiled grammar is kept, no operation compiles its scope. -/
private theorem compileCount_eq_zero {registry : Registry} {scope : ScopeName} {handle : Handle}
    (hfind : Dict.find? scope registry.store.compiled = some handle) {operations : List Operation}
    (hkeeps : registry.KeepsTheme operations) : registry.compileCount scope operations = 0 := by
  induction operations generalizing registry with
  | nil => rfl
  | cons operation operations ih =>
    rw [compileCount, compiles_eq_false hfind, ih (find?_perform hkeeps.1 hfind) hkeeps.2]
    rfl

/-- While the theme stays, the engine compiles a scope at most once. -/
theorem compileCount_le_one {registry : Registry} {operations : List Operation}
    (hkeeps : registry.KeepsTheme operations) (scope : ScopeName) :
    registry.compileCount scope operations ≤ 1 := by
  induction operations generalizing registry with
  | nil => exact Nat.zero_le 1
  | cons operation operations ih =>
    rw [compileCount]
    split
    · rename_i hcompiles
      -- A scope that has a compiled grammar is not compiled again.
      obtain ⟨handle, hfind⟩ := exists_find?_of_compiles hcompiles
      have hzero := compileCount_eq_zero hfind hkeeps.2
      omega
    · rw [Nat.zero_add]
      exact ih hkeeps.2

/-! ## What is handed out -/

/-- Whatever was done with a registry:

* a compiled grammar that is handed out was made by the engine under the theme in force;
* between two changes of the theme the engine compiles a scope at most once, and all operations that
  ask for the compiled grammar of a scope, with whatever configurations, hand out the same one;
* an operation that fails to hand out a compiled grammar leaves those that are kept as they are;
* a theme that is set is the one read from its source, and nothing that was compiled before is kept;
* a theme that cannot be set leaves everything as it is, and later operations answer as if it had
  not been tried. -/
theorem handles_follow_theme (loader : Loader) (limit : Nat) (engine : Engine)
    (operations : List Operation) :
    let registry := (empty loader limit engine).performAll operations
    (∀ operation handle, registry.HandsOut operation handle →
      handle.MadeUnder engine (registry.perform operation).store.theme) ∧
    (∀ span scope, registry.KeepsTheme span → registry.compileCount scope span ≤ 1) ∧
    (∀ first span last scope handle other, registry.HandsOut first handle →
      first.target? = some scope → (registry.perform first).KeepsTheme span →
      last.target? = some scope →
      ((registry.perform first).performAll span).HandsOut last other → other = handle) ∧
    (∀ operation, (∀ handle, ¬ registry.HandsOut operation handle) →
      ¬ registry.ChangesTheme operation →
      (registry.perform operation).store.compiled = registry.store.compiled) ∧
    (∀ source table, registry.ChangesTheme (.setTheme source table) →
      let after := registry.perform (.setTheme source table)
      Theme.ofSource source table = .ok after.store.theme ∧ after.store.compiled = []) ∧
    ∀ source table e, registry.answer (.setTheme source table) = .theme (.error e) →
      let after := registry.perform (.setTheme source table)
      after.store.theme = registry.store.theme ∧ after.store.colors = registry.store.colors ∧
        after.store.compiled = registry.store.compiled ∧
        ∀ later operation, (after.performAll later).answer operation =
          (registry.performAll later).answer operation := by
  intro registry
  have hempty : (empty loader limit engine).store.Current := fun _ _ h => nomatch h
  obtain ⟨hcurrent, hengine⟩ : registry.store.Current ∧ registry.store.engine = engine :=
    current_performAll hempty operations
  refine ⟨fun operation handle h => ?_, fun span scope hkeeps => compileCount_le_one hkeeps scope,
    fun first span last scope handle other hfirst htarget hspan htarget' hlast => ?_,
    fun operation => compiled_perform, fun source table h => store_of_changesTheme h,
    fun source table e h => ?_⟩
  · -- What is handed out is kept, and all that is kept was made under the theme.
    obtain ⟨scope, htarget⟩ := exists_target_of_handsOut h
    obtain ⟨hcurrent', hengine'⟩ := current_perform hcurrent operation
    rw [← hengine, ← hengine']
    exact hcurrent' scope handle (find?_of_handsOut h htarget).1
  · -- The first one is kept over the span, and what is kept is handed out again.
    obtain ⟨hfind, -⟩ := find?_of_handsOut hfirst htarget
    exact ((find?_of_handsOut hlast htarget').2 handle (find?_performAll hspan hfind)).symm
  · have hsame : registry.perform (.setTheme source table) = registry := by
      cases htheme : registry.setTheme source table with
      | error problem => exact perform_setTheme_error htheme
      | ok next =>
        rw [answer, htheme] at h
        cases h
    rw [hsame]
    exact ⟨rfl, rfl, rfl, fun _ _ => rfl⟩

/-! ### A registry with two themes in turn -/

/-- A theme with red as the foreground of the defaults. -/
def redSource : ThemeSource :=
  ⟨some "red", [⟨none, none, ⟨none, some "#FF0000", none⟩⟩]⟩

def redTheme : Theme :=
  ⟨some "red", ⟨some .plain, some 1, some 2⟩, [], .growable ["#FF0000", "#FFFFFF"]⟩

def loadOuter : Operation := .load outer 0 ⟨[], []⟩

/-- Asks again for what `loadOuter` hands out, with another language and another configuration. -/
def askOuter : Operation := .grammarFor outer 7 ⟨[(inner, 2)], []⟩

/-- Asks for a language that does not fit. -/
def askBeyond : Operation := .grammarFor inner (maxLanguage + 1) ⟨[], []⟩

def loadedOuter : Registry := twoGrammars.perform loadOuter

def loadedRed : Registry :=
  loadedOuter.withStore { loadedOuter.store with theme := redTheme, compiled := [] }

/-- The red theme can be set and is in force then. -/
private theorem setTheme_redSource : loadedOuter.setTheme redSource none = .ok loadedRed :=
  setTheme_eq_ok_iff.2 ⟨redTheme, by rfl, rfl⟩

/-- The answer is a compiled grammar. -/
def Answer.isHandle : Answer → Bool
  | .handle (some (.ok _)) => true
  | _ => false

/-- An operation hands out the compiled grammar with which it is answered. -/
private theorem isHandle_answer_iff {registry : Registry} {operation : Operation} :
    (registry.answer operation).isHandle = true ↔ ∃ handle, registry.HandsOut operation handle := by
  unfold Answer.isHandle HandsOut
  constructor
  · intro h
    split at h
    · rename_i handle heq
      exact ⟨handle, heq⟩
    · cases h
  · rintro ⟨handle, heq⟩
    rw [heq]

/-- A grammar is compiled once under the first theme, whatever is configured later, and again under
the next theme. A language that does not fit, and a theme with a color beyond its table, change
nothing in between. -/
theorem handles_follow_two_themes :
    loadedOuter.perform (.setTheme redSource none) = loadedRed ∧
    ∃ first second,
      twoGrammars.HandsOut loadOuter first ∧
      first.MadeUnder tokenless loadedOuter.store.theme ∧
      loadedOuter.HandsOut askOuter first ∧
      twoGrammars.compileCount outer [loadOuter, askOuter] ≤ 1 ∧
      (loadedOuter.perform askBeyond).store.compiled = loadedOuter.store.compiled ∧
      (loadedOuter.perform (.setTheme redSource (some ["#000000"]))).HandsOut askOuter first ∧
      Theme.ofSource redSource none = .ok loadedRed.store.theme ∧ loadedRed.store.compiled = [] ∧
      loadedRed.HandsOut askOuter second ∧
      second.MadeUnder tokenless (loadedRed.perform askOuter).store.theme ∧
      second.source.theme ≠ first.source.theme := by
  have hred : loadedOuter.perform (.setTheme redSource none) = loadedRed := by
    simp only [perform, setTheme_redSource]
  have hfollow := handles_follow_theme (.ofGrammars [outerGrammar, .empty inner] []) 20 tokenless
  have htwo : empty (.ofGrammars [outerGrammar, .empty inner] []) 20 tokenless = twoGrammars := rfl
  rw [htwo] at hfollow
  -- What holds before the load, after it, and after the change of the theme.
  obtain ⟨hmade, hcount, hsame, -⟩ := hfollow []
  obtain ⟨-, -, -, hkeeps, hset, hunset⟩ := hfollow [loadOuter]
  obtain ⟨hmadeRed, -⟩ := hfollow [loadOuter, .setTheme redSource none]
  obtain ⟨first, hfirst⟩ : ∃ handle, twoGrammars.HandsOut loadOuter handle :=
    isHandle_answer_iff.1 (by cbv)
  obtain ⟨found, hfound⟩ : ∃ handle, loadedOuter.HandsOut askOuter handle :=
    isHandle_answer_iff.1 (by cbv)
  obtain ⟨second, hsecond⟩ : ∃ handle, loadedRed.HandsOut askOuter handle :=
    isHandle_answer_iff.1 (by cbv)
  obtain rfl : found = first :=
    hsame loadOuter [] askOuter outer first found hfirst rfl trivial rfl hfound
  have hfirstMade := hmade loadOuter found hfirst
  have hsecondRed : (loadedOuter.perform (.setTheme redSource none)).HandsOut askOuter second := by
    rw [hred]
    exact hsecond
  have hsecondMade : second.MadeUnder tokenless
      ((loadedOuter.perform (.setTheme redSource none)).perform askOuter).store.theme :=
    hmadeRed askOuter second hsecondRed
  rw [hred] at hsecondMade
  have hchanges : loadedOuter.ChangesTheme (.setTheme redSource none) := by
    rw [ChangesTheme, answer, setTheme_redSource]
    rfl
  obtain ⟨hsource, hcompiled⟩ : Theme.ofSource redSource none =
      .ok (loadedOuter.perform (.setTheme redSource none)).store.theme ∧
        (loadedOuter.perform (.setTheme redSource none)).store.compiled = [] :=
    hset redSource none hchanges
  rw [hred] at hsource hcompiled
  -- A theme that fails leaves every later answer as it is.
  obtain ⟨-, -, -, hlater⟩ := hunset redSource (some ["#000000"]) _ (by rfl)
  have hagain := (hlater [] askOuter).trans hfound
  refine ⟨hred, found, second, hfirst, hfirstMade, hfound, hcount _ outer ⟨?_, ?_, trivial⟩,
    hkeeps askBeyond ?_ ?_, hagain, hsource, hcompiled, hsecond,
    hsecondMade, fun heq => ?_⟩
  · intro h
    cases h
  · intro h
    cases h
  · intro handle h
    have hno : (loadedOuter.answer askBeyond).isHandle = false := by cbv
    exact Bool.false_ne_true (hno.symm.trans (isHandle_answer_iff.2 ⟨handle, h⟩))
  · intro h
    cases h
  · -- The themes have different names.
    rw [hfirstMade.theme_eq, hsecondMade.theme_eq] at heq
    have hname : (loadedRed.perform askOuter).store.theme.name = some "red" := by cbv
    have hunnamed : loadedOuter.store.theme.name = none := by cbv
    have hnames : some "red" = none := (hname.symm.trans (congrArg Theme.name heq)).trans hunnamed
    cases hnames

end Registry

end Textmate
