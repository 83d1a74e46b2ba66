import Textmate.Proofs.Cache.Loads
import Textmate.Proofs.List

/-!
# What loads leave in the store

When every grammar that a loader answers with has the scope that was asked for, a load changes what
the store has for its own scope only, and it is the only load that does. So the loader alone decides
what a finished load has left: the definition, the injected scopes and the outcome. No other load
and no order of events has a part in it.

## Key results

- `Step.reflects`: what is in the store is what the loader answered for the loads that ended
-/

namespace Textmate

namespace Loader

/-- Every grammar that the loader answers with has the scope that was asked for. -/
def Honest (loader : Loader) : Prop :=
  ∀ scope grammar, loader.answer scope = .grammar grammar → grammar.scope = scope

/-- The scope under which the answer for a scope is registered, which is that of the grammar. -/
def registers? (loader : Loader) (scope : ScopeName) : Option ScopeName :=
  match loader.answer scope with
  | .grammar grammar => some grammar.scope
  | _ => none

/-- An honest loader has its grammars registered for the scopes that were asked for. -/
theorem Honest.eq_of_registers? {loader : Loader} (hl : loader.Honest) {scope other : ScopeName}
    (h : loader.registers? scope = some other) : other = scope := by
  unfold registers? at h
  split at h
  · rename_i grammar hanswer
    rw [← hl scope grammar hanswer]
    exact (Option.some.inj h).symm
  · cases h

/-- What a scope stands for when its load has ended. -/
def definition? (loader : Loader) (scope : ScopeName) : Option Definition :=
  match loader.answer scope with
  | .grammar grammar => some ⟨0, grammar⟩
  | _ => none

/-- The scopes injected into a scope when its load has ended. -/
def injected (loader : Loader) (scope : ScopeName) : List ScopeName :=
  match loader.answer scope with
  | .grammar _ => loader.injections scope
  | _ => []

/-- How the load of a scope ends. -/
def outcome (loader : Loader) (scope : ScopeName) : Outcome :=
  match loader.answer scope with
  | .failure cause => .error (.loader scope cause)
  | _ => .ok ()

/-- The loader that has a list of grammars and lists of injected scopes at once. -/
def ofGrammars (grammars : List Grammar) (injections : List (ScopeName × List ScopeName)) :
    Loader :=
  ⟨fun scope => match grammars.find? (·.scope = scope) with
      | some grammar => .grammar grammar
      | none => .nothing,
    fun scope => (Dict.find? scope injections).getD [], fun _ => 0⟩

/-- A loader of given grammars answers with the one that has the scope. -/
theorem honest_ofGrammars (grammars : List Grammar)
    (injections : List (ScopeName × List ScopeName)) : (ofGrammars grammars injections).Honest := by
  intro scope grammar h
  simp only [ofGrammars] at h
  split at h
  · rename_i found hfind
    cases h
    simpa using List.find?_some hfind
  · cases h

end Loader

/-- A store has for a scope what the loader answered. -/
structure Store.Agrees (store : Store) (loader : Loader) (scope : ScopeName) : Prop where
  lookup_eq : store.lookup scope = loader.definition? scope
  injectionsInto_eq : store.injectionsInto scope = loader.injected scope

/-- Another store has for a scope what the store has. -/
structure Store.Keeps (store next : Store) (scope : ScopeName) : Prop where
  lookup_eq : next.lookup scope = store.lookup scope
  injectionsInto_eq : next.injectionsInto scope = store.injectionsInto scope

namespace Library

/-- What the loads that ended have left is what the loader answered. -/
structure Reflects (library : Library) (loader : Loader) : Prop where
  /-- An outcome is the one of the loader's answer. -/
  outcome_eq : ∀ scope outcome, library.outcome? scope = some outcome →
    outcome = loader.outcome scope
  /-- The store agrees with the loader when the load has ended. -/
  agrees : ∀ scope outcome, library.outcome? scope = some outcome →
    library.store.Agrees loader scope
  /-- Before that the store has nothing for the scope. -/
  lookup_eq_none : ∀ scope, library.outcome? scope = none → library.store.lookup scope = none
  /-- Before that nothing is injected into the scope. -/
  injectionsInto_eq_nil : ∀ scope, library.outcome? scope = none →
    library.store.injectionsInto scope = []

/-- Without loads there is nothing in the store. -/
theorem reflects_empty (loader : Loader) (engine : Engine) : (empty engine).Reflects loader :=
  ⟨(fun _ _ h => nomatch h), (fun _ _ h => nomatch h), (fun _ _ => rfl), fun _ _ => rfl⟩

/-- A load ends with the outcome of the answer. -/
theorem accept_outcome (loader : Loader) (store : Store) (scope : ScopeName) :
    (accept loader store scope).2 = loader.outcome scope := by
  unfold accept Loader.outcome
  cases loader.answer scope <;> rfl

/-- The end of a load leaves all scopes alone but that of the grammar. -/
theorem keeps_accept {loader : Loader} (store : Store) {scope other : ScopeName}
    (h : loader.registers? scope ≠ some other) :
    store.Keeps (accept loader store scope).1 other := by
  unfold accept Loader.registers? at *
  cases hanswer : loader.answer scope with
  | grammar grammar =>
    rw [hanswer] at h
    -- Only a grammar registers something, and it does so under its own scope.
    have hscope : ¬ grammar.scope = other := fun heq => h (congrArg some heq)
    refine ⟨?_, ?_⟩
    · rw [Store.lookup_register, if_neg hscope]
    · rw [Store.injectionsInto_register, if_neg fun hand => hscope hand.1]
  | nothing => exact ⟨rfl, rfl⟩
  | failure cause => exact ⟨rfl, rfl⟩

/-- So the end of a load of an honest loader leaves other scopes alone. -/
theorem lookup_accept_of_ne {loader : Loader} (hl : loader.Honest) (store : Store)
    {scope other : ScopeName} (hne : other ≠ scope) :
    (accept loader store scope).1.lookup other = store.lookup other ∧
      (accept loader store scope).1.injectionsInto other = store.injectionsInto other := by
  -- An honest loader registers nothing under another scope.
  have hkeeps := keeps_accept store fun h => hne (hl.eq_of_registers? h)
  exact ⟨hkeeps.lookup_eq, hkeeps.injectionsInto_eq⟩

/-- A load leaves the loader's answer for its own scope, if there was nothing before. -/
theorem agrees_accept {loader : Loader} (hl : loader.Honest) {store : Store}
    {scope : ScopeName} (hlookup : store.lookup scope = none)
    (hinjections : store.injectionsInto scope = []) :
    (accept loader store scope).1.Agrees loader scope := by
  -- Only a grammar changes the store; an honest loader has given it the scope of the load.
  unfold accept
  cases h : loader.answer scope with
  | grammar grammar =>
    have hscope : grammar.scope = scope := hl scope grammar h
    refine ⟨?_, ?_⟩
    · rw [Store.lookup_register, if_pos hscope, Store.define, hscope, hlookup]
      simp only [Loader.definition?, h]
    · -- An empty list is not registered, and there was none before either.
      rw [Store.injectionsInto_register, hinjections]
      simp only [Loader.injected, h, hscope, true_and]
      split
      · rfl
      · rename_i hnil
        rw [not_not] at hnil
        exact hnil.symm
  | nothing =>
    refine ⟨?_, ?_⟩
    · simp only [hlookup, Loader.definition?, h]
    · simp only [hinjections, Loader.injected, h]
  | failure cause =>
    refine ⟨?_, ?_⟩
    · simp only [hlookup, Loader.definition?, h]
    · simp only [hinjections, Loader.injected, h]

/-- A step of a load leaves nothing else than the answers. -/
theorem Step.reflects {loader : Loader} (hl : loader.Honest) {library next : Library}
    (hr : library.Reflects loader) (h : Step loader library next) : next.Reflects loader := by
  rcases h.effect with ⟨hstore, hkeep⟩ | ⟨ended, hnone, hstore, hend⟩
  · -- Nothing has changed in the store or the outcomes.
    refine ⟨fun s o ho => ?_, fun s o ho => ?_, fun s ho => ?_, fun s ho => ?_⟩
    · exact hr.outcome_eq s o (hkeep s ▸ ho)
    · exact hstore ▸ hr.agrees s o (hkeep s ▸ ho)
    · exact hstore ▸ hr.lookup_eq_none s (hkeep s ▸ ho)
    · exact hstore ▸ hr.injectionsInto_eq_nil s (hkeep s ▸ ho)
  · -- A load has ended: its own scope is settled by the answer, the others are left alone.
    refine ⟨fun s o ho => ?_, fun s o ho => ?_, fun s ho => ?_, fun s ho => ?_⟩
    · rw [hend] at ho
      split at ho
      · rename_i hs
        -- The outcome is the one of the load that has ended.
        rw [Option.some.injEq, accept_outcome] at ho
        rw [← ho, hs]
      · exact hr.outcome_eq s o ho
    · rw [hstore]
      rw [hend] at ho
      split at ho
      · rename_i hs
        rw [hs]
        -- Before its load the scope had nothing in the store.
        exact agrees_accept hl (hr.lookup_eq_none ended hnone)
          (hr.injectionsInto_eq_nil ended hnone)
      · rename_i hs
        -- Another scope agreed before, and the store still has the same for it.
        obtain ⟨hlookup, hinjections⟩ := lookup_accept_of_ne hl library.store hs
        have hold := hr.agrees s o ho
        exact ⟨hlookup.trans hold.lookup_eq, hinjections.trans hold.injectionsInto_eq⟩
    · rw [hend] at ho
      split at ho
      · cases ho
      · rename_i hs
        rw [hstore, (lookup_accept_of_ne hl library.store hs).1]
        exact hr.lookup_eq_none s ho
    · rw [hend] at ho
      split at ho
      · cases ho
      · rename_i hs
        rw [hstore, (lookup_accept_of_ne hl library.store hs).2]
        exact hr.injectionsInto_eq_nil s ho

/-- So do any number of steps. -/
theorem Steps.reflects {loader : Loader} (hl : loader.Honest) {library next : Library}
    (hr : library.Reflects loader) (h : Steps loader library next) : next.Reflects loader :=
  h.keep (·.Reflects loader) hr fun _ _ hstep hr => hstep.reflects hl hr

/-- The outcomes of scopes whose loads have ended are those of the loader's answers. -/
theorem Reflects.outcomes?_eq {library : Library} {loader : Loader} (hr : library.Reflects loader)
    {scopes : List ScopeName} {outcomes : List Outcome}
    (h : library.outcomes? scopes = some outcomes) : outcomes = scopes.map loader.outcome :=
  List.eq_map_of_forall₂ ((List.mapM_eq_some_iff.1 h).imp hr.outcome_eq)

/-- When the outcomes of scopes are known, the store agrees with the loader on them. -/
theorem Reflects.agrees_of_outcomes? {library : Library} {loader : Loader}
    (hr : library.Reflects loader) {scopes : List ScopeName} {outcomes : List Outcome}
    (h : library.outcomes? scopes = some outcomes) {scope : ScopeName} (hs : scope ∈ scopes) :
    library.store.Agrees loader scope := by
  -- Each of the scopes has one of the outcomes.
  obtain ⟨outcome, -, ho⟩ := (List.mapM_eq_some_iff.1 h).exists_of_mem hs
  exact hr.agrees scope outcome ho

end Library

end Textmate
