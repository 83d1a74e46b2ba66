import Textmate.Proofs.Registry.Themes

/-!
# What registering a grammar changes

A grammar that is registered takes the place of what its scope stood for, and no other scope
changes. Two things of the scope may stay as they were: its list of injected scopes when the
registration comes without one, and its compiled grammar, which is kept until the theme changes
whatever is registered.

## Key results

- `add_takes_effect`: what a registration changes, and what its compiled grammar was compiled from
- `add_again_leaves_old`: an old list of injected scopes and an old compiled grammar stay in place
-/

namespace Textmate

/-- A grammar and its list of injected scopes stand in the place of what its scope had before, and
all other scopes have what they had. -/
structure Store.Replaces (store next : Store) (grammar : Grammar) (injected : List ScopeName) :
    Prop where
  own : (next.lookup grammar.scope).map (·.grammar) = some grammar
  injected_eq : next.injectionsInto grammar.scope = injected
  others : ∀ other, other ≠ grammar.scope → next.lookup other = store.lookup other ∧
    next.injectionsInto other = store.injectionsInto other

/-- A grammar was compiled, with a list of scopes injected into it. -/
structure Handle.CompiledFrom (handle : Handle) (grammar : Grammar) (injected : List ScopeName) :
    Prop where
  scope_eq : handle.source.scope = grammar.scope
  root_eq : handle.source.root? = some grammar
  injected_eq : handle.source.injected = injected

namespace Store

/-- The list of injected scopes of a grammar that is registered: a list without scopes says nothing,
and leaves what was injected before. -/
def injectedAfter (store : Store) (grammar : Grammar) (injected : List ScopeName) :
    List ScopeName :=
  if injected = [] then store.injectionsInto grammar.scope else injected

/-- Registering replaces what the scope had. -/
private theorem replaces_register (store : Store) (grammar : Grammar) (injected : List ScopeName) :
    store.Replaces (store.register grammar injected) grammar
      (store.injectedAfter grammar injected) where
  own := by
    rw [lookup_register, if_pos rfl, define]
    split <;> rfl
  injected_eq := by
    -- An empty list is not registered, so that the old one stays.
    rw [injectionsInto_register, injectedAfter]
    by_cases h : injected = [] <;> simp [h]
  others := by
    intro other hother
    have hne : ¬ grammar.scope = other := fun h => hother h.symm
    rw [lookup_register, if_neg hne, injectionsInto_register, if_neg fun h => hne h.1]
    exact ⟨rfl, rfl⟩

/-- Compiling changes no definition and no list of injected scopes. -/
private theorem CompilesTo.replaces {store middle next : Store} {grammar : Grammar}
    {injected : List ScopeName} {scope : ScopeName} {language : Nat}
    {configuration : Configuration} {result : Except Error (Option Handle)}
    (h : middle.CompilesTo scope language configuration (result, next))
    (hreplaces : store.Replaces middle grammar injected) :
    store.Replaces next grammar injected := by
  cases h <;> exact ⟨hreplaces.own, hreplaces.injected_eq, hreplaces.others⟩

/-- A compiled grammar is the kept one, or else it was compiled from a snapshot of the store. -/
private theorem CompilesTo.exists_snapshot {store next : Store} {scope : ScopeName} {language : Nat}
    {configuration : Configuration} {handle : Handle}
    (h : store.CompilesTo scope language configuration (.ok (some handle), next))
    (hnone : Dict.find? scope store.compiled = none) :
    ∃ classifier, handle.source = store.snapshot scope language classifier := by
  cases h with
  | kept _ hfind =>
    rw [hnone] at hfind
    cases hfind
  -- Refusing hands out no grammar.
  | refused _ _ _ hresult => exact absurd rfl (hresult handle)
  | made source tokenizer _ hasked _ => exact exists_snapshot_of_asked? hasked

end Store

namespace Registry

/-- What the store does when a compiled grammar is handed out. -/
private theorem compilesTo_of_grammarFor {registry : Registry} {scope : ScopeName} {language : Nat}
    {configuration : Configuration} {handle : Handle}
    (h : (registry.grammarFor scope language configuration).1 = .ok handle) :
    registry.store.CompilesTo scope language configuration
      (.ok (some handle), (registry.grammarFor scope language configuration).2.store) := by
  -- Handing out is compiling, and the store is the one behind it.
  have hresult := grammarFor_eq_ok_iff.1 h
  have hcompiles := registry.store.compilesTo_compile scope language configuration
  rw [grammarFor_store, ← hresult]
  exact hcompiles

/-- A registration that succeeds puts the grammar and its injected scopes in the place of what its
scope had, and changes no other scope. Its compiled grammar was compiled from just that, unless one
was kept for the scope. -/
theorem add_takes_effect (registry : Registry) (grammar : Grammar) (injected : List ScopeName)
    (language : Nat) (embedded : List (ScopeName × Nat)) {handle : Handle}
    (h : (registry.add grammar injected language embedded).1 = .ok handle) :
    registry.store.Replaces (registry.add grammar injected language embedded).2.store grammar
      (registry.store.injectedAfter grammar injected) ∧
    (∀ kept, Dict.find? grammar.scope registry.store.compiled = some kept → handle = kept) ∧
    (Dict.find? grammar.scope registry.store.compiled = none →
      handle.CompiledFrom grammar (registry.store.injectedAfter grammar injected)) := by
  have hregister := registry.store.replaces_register grammar injected
  -- Registering comes first, then the grammar is compiled from the new store.
  have hcompiles : (registry.store.register grammar injected).CompilesTo grammar.scope language
      ⟨embedded, []⟩
      (.ok (some handle), (registry.add grammar injected language embedded).2.store) :=
    compilesTo_of_grammarFor h
  refine ⟨hcompiles.replaces hregister, fun kept hkept => ?_, fun hnone => ?_⟩
  · -- A kept one is handed out as it is.
    exact (hcompiles.find?_of_ok.2 kept hkept).symm
  · -- The snapshot is one of the store with the grammar.
    obtain ⟨classifier, hsource⟩ := hcompiles.exists_snapshot hnone
    refine ⟨?_, ?_, ?_⟩
    · rw [hsource]
      rfl
    · rw [hsource]
      exact hregister.own
    · rw [hsource]
      exact hregister.injected_eq

/-! ### A grammar that is registered a second time -/

/-- A grammar was registered for the scope, and another scope injected into it. -/
def addedOnce : Registry :=
  twoGrammars.performAll [.add outerGrammar [inner] 0 []]

/-- After a change of the theme a grammar is compiled as it is registered, with the scope that was
injected before. -/
theorem add_after_theme :
    ∃ handle, ((addedOnce.perform (.setTheme ⟨none, []⟩ none)).add (.empty outer) [] 0 []).1 =
        .ok handle ∧
      handle.CompiledFrom (.empty outer) [inner] := by
  have hcheck : ((addedOnce.perform (.setTheme ⟨none, []⟩ none)).add (.empty outer) [] 0
      []).1.toOption.any (fun _ => true) = true := by rfl
  obtain ⟨handle, hadd, -⟩ := Except.exists_ok_of_any hcheck
  have heffect := add_takes_effect _ _ _ _ _ hadd
  exact ⟨handle, hadd, heffect.2.2 (by rfl)⟩

/-- A grammar that is registered without injected scopes while another one is compiled for its
scope: the list of injected scopes stays, and the other one is handed out. -/
theorem add_again_leaves_old :
    ∃ handle, (addedOnce.add (.empty outer) [] 0 []).1 = .ok handle ∧
      ¬ addedOnce.store.Replaces (addedOnce.add (.empty outer) [] 0 []).2.store (.empty outer) [] ∧
      ¬ handle.CompiledFrom (.empty outer) [] := by
  have hcheck : (addedOnce.add (.empty outer) [] 0 []).1.toOption.any
      (fun handle => handle.source.root?.any (!·.patterns.isEmpty)) = true := by rfl
  have hinjected :
      (addedOnce.add (.empty outer) [] 0 []).2.store.injectionsInto outer = [inner] := by rfl
  obtain ⟨handle, hadd, hpatterns⟩ := Except.exists_ok_of_any hcheck
  refine ⟨handle, hadd, fun hreplaces => ?_, fun hcompiled => ?_⟩
  · -- The list that is in place is the old one, and not the empty one.
    have hempty : [inner] = [] := hinjected.symm.trans hreplaces.injected_eq
    cases hempty
  · -- The new grammar has no patterns.
    rw [hcompiled.root_eq] at hpatterns
    cases hpatterns

end Registry

end Textmate
