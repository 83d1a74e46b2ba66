import Mathlib.Data.List.Induction
import Textmate.Proofs.Cache.Answers
import Textmate.Proofs.Cache.Callers

/-!
# What callers have seen

A grammar is registered when its load ends, and the load is settled when a caller looks at it after
that. Between the two a grammar can be found that is not yet settled. So two facts are kept apart:
what the store has for a scope belongs to the end of its load, and whether the load is settled to
the callers that have returned.

Only the end of a load changes the store, and each load ends once. As loaders answer with grammars
of the scope that was asked for, what the end of a load leaves for its scope stays.

## Key results

- `step_effect`: an event changes the store only if it ends a load
- `explained_run`: what is in the store comes from the answers that ended the loads
- `isSettled_run_iff`: a load is settled exactly when one of its callers has returned
- `returned_with_answer`: what a caller that returned can rely on
-/

namespace Textmate

namespace Library

/-! ## What the events of a load leave alone -/

/-- A request registers nothing. -/
@[simp] theorem store_request (library : Library) (scope : ScopeName) :
    (library.request scope).store = library.store := by
  unfold request
  split <;> rfl

/-- The start of a load registers nothing. -/
@[simp] theorem store_start (library : Library) (loader : Loader) (scope : ScopeName) :
    (library.start loader scope).store = library.store := by
  unfold start
  split <;> rfl

/-- A load that goes on registers nothing. -/
@[simp] theorem store_wait (library : Library) (scope : ScopeName) :
    (library.wait scope).store = library.store := by
  unfold wait
  split <;> rfl

/-- A caller that looks at a load registers nothing. -/
@[simp] theorem store_await (library : Library) (scope : ScopeName) :
    (library.await scope).store = library.store := by
  rw [await, (sameLoads_observe _ scope).store_eq, store_request]

/-- A request leaves a load where it is, and a new load is in the queue. -/
private theorem phase?_request (library : Library) (scope other : ScopeName) :
    (library.request scope).cache.phase? other =
      (library.cache.phase? other).or (if scope = other then some .queued else none) := by
  unfold request
  split
  · rename_i phase h
    -- The load was requested before, so nothing is added.
    by_cases hs : scope = other
    · rw [← hs, h, Option.some_or]
    · rw [if_neg hs, Option.or_none]
  · exact Dict.find?_append_singleton scope other _ _

/-- A request ends no load. -/
@[simp] theorem outcome?_request (library : Library) (scope other : ScopeName) :
    (library.request scope).outcome? other = library.outcome? other := by
  rw [outcome?, outcome?, phase?_request]
  cases library.cache.phase? other with
  | some phase => rfl
  | none => split <;> rfl

/-- A caller that looks at a load does not end it. -/
@[simp] theorem outcome?_await (library : Library) (scope other : ScopeName) :
    (library.await scope).outcome? other = library.outcome? other := by
  rw [await, (sameLoads_observe _ scope).outcome?_eq, outcome?_request]

section

variable {library next : Library} {scope : ScopeName} {old new : Phase}

/-- A load that moves to a phase with the same outcome leaves all outcomes as they were. -/
private theorem outcome?_of_move (h : library.cache.phase? scope = some old)
    (hnext : ∀ other, next.cache.phase? other =
      if other = scope then some new else library.cache.phase? other)
    (heq : new.outcome? = old.outcome?) (other : ScopeName) :
    next.outcome? other = library.outcome? other := by
  rw [outcome?, outcome?, hnext]
  split
  · rename_i hs
    rw [hs, h]
    exact heq
  · rfl

/-- A load that moves between phases that callers see alike is seen as before. -/
private theorem isSettled_of_move (h : library.cache.phase? scope = some old)
    (hnext : ∀ other, next.cache.phase? other =
      if other = scope then some new else library.cache.phase? other)
    (heq : new.isSettled = old.isSettled) (other : ScopeName) :
    next.cache.isSettled other = library.cache.isSettled other := by
  rw [Cache.isSettled, Cache.isSettled, hnext]
  split
  · rename_i hs
    rw [hs, h]
    exact heq
  · rfl

end

/-- A load that starts gets neither an outcome nor a caller that has seen it. -/
private theorem start_unseen (library : Library) (loader : Loader) (scope other : ScopeName) :
    (library.start loader scope).outcome? other = library.outcome? other ∧
      (library.start loader scope).cache.isSettled other = library.cache.isSettled other := by
  by_cases h : library.cache.phase? scope = some .queued
  · exact ⟨outcome?_of_move h (phase?_start loader h) rfl other,
      isSettled_of_move h (phase?_start loader h) rfl other⟩
  · -- A load that is not in the queue does not start.
    unfold start
    split
    · contradiction
    · exact ⟨rfl, rfl⟩

/-- Nor does a load that goes on get an outcome or a caller that has seen it. -/
private theorem wait_unseen (library : Library) (scope other : ScopeName) :
    (library.wait scope).outcome? other = library.outcome? other ∧
      (library.wait scope).cache.isSettled other = library.cache.isSettled other := by
  by_cases h : ∃ turns, library.cache.phase? scope = some (.running (turns + 1))
  · obtain ⟨turns, h⟩ := h
    exact ⟨outcome?_of_move h (phase?_wait h) rfl other,
      isSettled_of_move h (phase?_wait h) rfl other⟩
  · -- Only a running load with turns left goes on.
    unfold wait
    split
    · rename_i turns hphase
      exact absurd ⟨turns, hphase⟩ h
    · exact ⟨rfl, rfl⟩

/-- The end of a load is not yet seen by a caller. -/
@[simp] theorem isSettled_finish (library : Library) (loader : Loader) (scope other : ScopeName) :
    (library.finish loader scope).cache.isSettled other = library.cache.isSettled other := by
  by_cases h : ∃ turns, library.cache.phase? scope = some (.running turns)
  · obtain ⟨turns, h⟩ := h
    exact isSettled_of_move h (phase?_finish loader h) rfl other
  · unfold finish
    split
    · rename_i turns hphase
      exact absurd ⟨turns, hphase⟩ h
    · rfl

/-- A request settles no load. -/
@[simp] theorem isSettled_request (library : Library) (scope other : ScopeName) :
    (library.request scope).cache.isSettled other = library.cache.isSettled other := by
  rw [Cache.isSettled, Cache.isSettled, phase?_request]
  cases library.cache.phase? other with
  | some phase => rfl
  | none => split <;> rfl

/-- A look at a load settles it if the load has ended. -/
private theorem isSettled_observe_iff (library : Library) (scope other : ScopeName) :
    (library.observe scope).cache.isSettled other = true ↔
      library.cache.isSettled other = true ∨
        scope = other ∧ (library.outcome? other).isSome = true := by
  unfold observe
  split
  · rename_i outcome h
    -- The load has just ended: this look is what settles it.
    let next : Library := ⟨library.store, library.cache.setPhase scope (.settled outcome)⟩
    have hmove : next.cache.phase? other =
        if other = scope then some (.settled outcome) else library.cache.phase? other :=
      phase?_setPhase h (fun _ => rfl) other
    rw [Cache.isSettled, hmove]
    by_cases hs : other = scope
    · simp [hs, outcome?, h, Phase.isSettled, Phase.outcome?]
    · simp [hs, Ne.symm hs, Cache.isSettled]
  · rename_i hfinished
    -- A load with an outcome that is not finished was seen before.
    refine (or_iff_left_of_imp ?_).symm
    rintro ⟨rfl, ho⟩
    obtain ⟨outcome, ho⟩ := Option.isSome_iff_exists.1 ho
    obtain ⟨phase, hphase, hphaseOutcome⟩ := Option.bind_eq_some_iff.1 ho
    cases phase with
    | queued => cases hphaseOutcome
    | running turns => cases hphaseOutcome
    | finished other => exact absurd hphase (hfinished other)
    | settled other =>
      rw [Cache.isSettled, hphase]
      rfl

/-- A caller that waits for a scope has seen its load if that has ended. -/
private theorem isSettled_await_iff (library : Library) (scope other : ScopeName) :
    (library.await scope).cache.isSettled other = true ↔
      library.cache.isSettled other = true ∨
        scope = other ∧ (library.outcome? other).isSome = true := by
  rw [await, isSettled_observe_iff, isSettled_request, outcome?_request]

end Library

/-- A caller returns at a look when the load has an outcome, with this outcome. -/
private theorem Caller.State.ofLook_eq_returned_iff {library : Library} {scope : ScopeName}
    {outcome : Outcome} :
    ofLook library scope = .returned outcome ↔ library.outcome? scope = some outcome := by
  unfold ofLook
  cases library.outcome? scope <;> simp

namespace Session

/-! ## How loads end -/

/-- If the event ends a load, it does so with a loader whose grammars have the scopes that it was
asked for. -/
def Event.IsHonest : Event → Prop
  | .finish loader _ => loader.Honest
  | _ => True

/-- A run goes on from where its first part ended. -/
private theorem run_append (engine : Engine) (events later : List Event) :
    run engine (events ++ later) = (run engine events).runFrom later :=
  List.foldl_append

/-- What an event does to the store and the outcomes: nothing, or it ends a load. -/
theorem step_effect (session : Session) (event : Event) :
    ((session.step event).library.store = session.library.store ∧
      ∀ other, (session.step event).library.outcome? other = session.library.outcome? other) ∨
    ∃ loader scope turns, event = .finish loader scope ∧
      session.library.cache.phase? scope = some (.running turns) ∧
      (session.step event).library.store =
        (Library.accept loader session.library.store scope).1 ∧
      ∀ other, (session.step event).library.outcome? other =
        if other = scope then some (Library.accept loader session.library.store scope).2
        else session.library.outcome? other := by
  cases event with
  | ensure scope =>
    -- A request only makes an entry without an outcome.
    exact Or.inl ⟨Library.store_await _ scope, Library.outcome?_await _ scope⟩
  | resume caller =>
    simp only [Session.step]
    split
    · exact Or.inl ⟨Library.store_await _ _, Library.outcome?_await _ _⟩
    · exact Or.inl ⟨rfl, fun _ => rfl⟩
  | abandon caller =>
    simp only [Session.step]
    split <;> exact Or.inl ⟨rfl, fun _ => rfl⟩
  | start loader scope =>
    exact Or.inl ⟨Library.store_start _ loader scope, fun other =>
      (session.library.start_unseen loader scope other).1⟩
  | wait scope =>
    exact Or.inl ⟨Library.store_wait _ scope, fun other =>
      (session.library.wait_unseen scope other).1⟩
  | finish loader scope =>
    by_cases h : ∃ turns, session.library.cache.phase? scope = some (.running turns)
    · -- The end of a running load is the one event with an effect.
      obtain ⟨turns, h⟩ := h
      refine Or.inr ⟨loader, scope, turns, rfl, h, ?_, fun other => ?_⟩
      · simp only [Session.step, Library.finish, h]
      · rw [Session.step, Library.outcome?, Library.phase?_finish loader h]
        split <;> rfl
    · -- A load that is not running does not end.
      have hstay : session.library.finish loader scope = session.library := by
        unfold Library.finish
        split
        · rename_i turns hphase
          exact absurd ⟨turns, hphase⟩ h
        · rfl
      rw [Session.step, hstay]
      exact Or.inl ⟨rfl, fun _ => rfl⟩

/-- The load of a scope has ended with the answer of a loader, in one of the events. -/
def EndedBy (engine : Engine) (events : List Event) (loader : Loader) (scope : ScopeName) : Prop :=
  ∃ before after turns, events = before ++ .finish loader scope :: after ∧
    (run engine before).library.cache.phase? scope = some (.running turns)

/-- What ended a load in a run did so in every longer run. -/
private theorem EndedBy.append {engine : Engine} {events : List Event} {loader : Loader}
    {scope : ScopeName} (h : EndedBy engine events loader scope) (later : List Event) :
    EndedBy engine (events ++ later) loader scope := by
  obtain ⟨before, after, turns, rfl, hphase⟩ := h
  exact ⟨before, after ++ later, turns, by simp, hphase⟩

/-- What was found for a scope whose load has ended is still found after an event. -/
private theorem kept_step {session : Session} {event : Event} (hevent : event.IsHonest)
    {scope : ScopeName} {outcome : Outcome} (ho : session.library.outcome? scope = some outcome) :
    (session.step event).library.outcome? scope = some outcome ∧
      (session.step event).library.store.lookup scope = session.library.store.lookup scope ∧
      (session.step event).library.store.injectionsInto scope =
        session.library.store.injectionsInto scope := by
  rcases session.step_effect event with
    ⟨hstore, hkeep⟩ | ⟨loader, ended, turns, rfl, hphase, hstore, hend⟩
  · rw [hstore, hkeep]
    exact ⟨ho, rfl, rfl⟩
  · -- The load that ends had no outcome, so it is the load of another scope.
    have hne : scope ≠ ended := by
      rintro rfl
      rw [Library.outcome?, hphase] at ho
      cases ho
    obtain ⟨hlookup, hinjections⟩ :=
      Library.lookup_accept_of_ne hevent session.library.store hne
    rw [hend, if_neg hne, hstore]
    exact ⟨ho, hlookup, hinjections⟩

/-- What is found for a scope comes from the answer that has ended its load. -/
structure Explained (engine : Engine) (events : List Event) : Prop where
  answered : ∀ scope outcome, (run engine events).library.outcome? scope = some outcome →
    ∃ loader, EndedBy engine events loader scope ∧ outcome = loader.outcome scope ∧
      (run engine events).library.store.Agrees loader scope
  /-- Before that nothing is found. -/
  absent : ∀ scope, (run engine events).library.outcome? scope = none →
    (run engine events).library.store.lookup scope = none ∧
      (run engine events).library.store.injectionsInto scope = []

/-- Whatever is found after honest events was answered by the loader that ended the load. -/
theorem explained_run (engine : Engine) {events : List Event}
    (h : ∀ event ∈ events, event.IsHonest) : Explained engine events := by
  induction events using List.reverseRecOn with
  | nil => exact ⟨fun _ _ h => (nomatch h), fun _ _ => ⟨rfl, rfl⟩⟩
  | append_singleton events event ih =>
    have hbefore := ih fun other hother => h other (List.mem_append_left _ hother)
    have hevent : event.IsHonest := h event (by simp)
    have hlast : run engine (events ++ [event]) = (run engine events).step event :=
      run_append engine events [event]
    -- The induction is on the last event: it has ended the load, or all is as it was before.
    refine ⟨fun scope outcome ho => ?_, fun scope ho => ?_⟩ <;> rw [hlast] at ho ⊢
    · cases hold : (run engine events).library.outcome? scope with
      -- The load had ended before: nothing that is found for the scope has changed.
      | some earlier =>
        obtain ⟨hkept, hlookup, hinjections⟩ := kept_step hevent hold
        obtain ⟨loader, hended, heq, hagrees⟩ := hbefore.answered scope earlier hold
        rw [hkept, Option.some.injEq] at ho
        exact ⟨loader, hended.append [event], ho ▸ heq,
          hlookup.trans hagrees.lookup_eq, hinjections.trans hagrees.injectionsInto_eq⟩
      | none =>
        rcases (run engine events).step_effect event with
          ⟨-, hkeep⟩ | ⟨loader, ended, turns, rfl, hphase, hstore, hend⟩
        · rw [hkeep, hold] at ho
          cases ho
        · rw [hend] at ho
          split at ho
          · rename_i hs
            subst hs
            obtain ⟨hlookup, hinjections⟩ := hbefore.absent scope hold
            rw [Option.some.injEq, Library.accept_outcome] at ho
            refine ⟨loader, ⟨events, [], turns, rfl, hphase⟩, ho.symm, ?_⟩
            rw [hstore]
            exact Library.agrees_accept hevent hlookup hinjections
          · rw [hold] at ho
            cases ho
    · -- An outcome would have been kept, so there was none before either.
      have hold : (run engine events).library.outcome? scope = none := by
        rw [Option.eq_none_iff_forall_ne_some]
        intro outcome houtcome
        rw [(kept_step hevent houtcome).1] at ho
        cases ho
      obtain ⟨hlookup, hinjections⟩ := hbefore.absent scope hold
      rcases (run engine events).step_effect event with
        ⟨hstore, -⟩ | ⟨loader, ended, turns, rfl, -, hstore, hend⟩
      · rw [hstore]
        exact ⟨hlookup, hinjections⟩
      · have hne : scope ≠ ended := by
          rintro rfl
          rw [hend, if_pos rfl] at ho
          cases ho
        obtain ⟨hlookup', hinjections'⟩ :=
          Library.lookup_accept_of_ne hevent (run engine events).library.store hne
        rw [hstore]
        exact ⟨hlookup'.trans hlookup, hinjections'.trans hinjections⟩

/-! ## Who has seen the end of a load -/

/-- The scope whose load a caller looks at in an event. -/
def lookedAt? (session : Session) : Event → Option ScopeName
  | .ensure scope => some scope
  | .resume caller =>
    match session.callers[caller]? with
    | some ⟨scope, .waiting⟩ => some scope
    | _ => none
  | _ => none

/-- A caller that waits looks at its load when it goes on; no other caller goes on. -/
private theorem step_resume (session : Session) (caller : Nat) :
    (∃ scope, session.callers[caller]? = some ⟨scope, .waiting⟩ ∧
      session.lookedAt? (.resume caller) = some scope ∧
      session.step (.resume caller) = ⟨session.library.await scope,
        session.callers.set caller ⟨scope, .ofLook (session.library.await scope) scope⟩⟩) ∨
    session.lookedAt? (.resume caller) = none ∧ session.step (.resume caller) = session := by
  -- Callers that have returned or were dropped stay as they are.
  cases hcaller : session.callers[caller]? with
  | none => exact .inr (by simp [lookedAt?, Session.step, hcaller])
  | some found =>
    obtain ⟨scope, state⟩ := found
    cases state with
    | waiting => exact .inl ⟨scope, by simp [lookedAt?, Session.step, hcaller]⟩
    | _ => exact .inr (by simp [lookedAt?, Session.step, hcaller])

/-- A load is settled by the first caller that looks at it after its end. -/
private theorem isSettled_step_iff (session : Session) (event : Event) (scope : ScopeName) :
    (session.step event).library.cache.isSettled scope = true ↔
      session.library.cache.isSettled scope = true ∨
        session.lookedAt? event = some scope ∧
          (session.library.outcome? scope).isSome = true := by
  cases event with
  | ensure other =>
    simp only [Session.step, lookedAt?, Library.isSettled_await_iff, Option.some.injEq]
  | resume caller =>
    rcases session.step_resume caller with ⟨other, -, hlooked, hstep⟩ | ⟨hlooked, hstep⟩
    · rw [hlooked, hstep, Library.isSettled_await_iff, Option.some.injEq]
    · simp [hlooked, hstep]
  | abandon caller =>
    -- Who gives up looks at nothing.
    simp only [Session.step, lookedAt?]
    split <;> simp
  | start loader other =>
    simp [Session.step, lookedAt?, (session.library.start_unseen loader other scope).2]
  | wait other => simp [Session.step, lookedAt?, (session.library.wait_unseen other scope).2]
  | finish loader other => simp [Session.step, lookedAt?]

/-- A caller that has returned keeps its outcome. -/
private theorem Returned.step {session : Session} {caller : Nat} {scope : ScopeName}
    {outcome : Outcome} (h : session.Returned caller scope outcome) (event : Event) :
    (session.step event).Returned caller scope outcome := by
  -- Only the entry of a waiting caller is ever replaced.
  have hset (other : Nat) (new : Caller) {waitsFor : ScopeName}
      (hwaiting : session.callers[other]? = some ⟨waitsFor, .waiting⟩) :
      (session.callers.set other new)[caller]? = some ⟨scope, .returned outcome⟩ := by
    have hne : other ≠ caller := by
      rintro rfl
      rw [Returned, hwaiting] at h
      cases h
    rw [List.getElem?_set_ne hne]
    exact h
  cases event with
  | ensure other =>
    -- The new caller stands behind the ones that were there.
    obtain ⟨hlt, -⟩ := List.getElem?_eq_some_iff.1 h
    rw [Returned, Session.step, List.getElem?_append_left hlt]
    exact h
  | resume other =>
    simp only [Session.step]
    split
    · rename_i hwaiting
      exact hset other _ hwaiting
    · exact h
  | abandon other =>
    simp only [Session.step]
    split
    · rename_i hwaiting
      exact hset other _ hwaiting
    · exact h
  | start loader other => exact h
  | wait other => exact h
  | finish loader other => exact h

/-- A caller of the scope has returned when the list of callers has such an entry. -/
private theorem exists_returned_iff {session : Session} {scope : ScopeName} :
    (∃ caller outcome, session.Returned caller scope outcome) ↔
      ∃ outcome, ⟨scope, .returned outcome⟩ ∈ session.callers := by
  rw [exists_comm]
  exact exists_congr fun _ => List.mem_iff_getElem?.symm

/-- A caller that has just looked at its load has returned if the load had ended. -/
private theorem eq_of_ofLook {library : Library} {scope other : ScopeName} {outcome : Outcome}
    (h : (⟨scope, .returned outcome⟩ : Caller) =
      ⟨other, .ofLook (library.await other) other⟩) :
    other = scope ∧ (library.outcome? scope).isSome = true := by
  obtain ⟨rfl, hstate⟩ := Caller.mk.inj h
  have ho := Caller.State.ofLook_eq_returned_iff.1 hstate.symm
  rw [Library.outcome?_await] at ho
  exact ⟨rfl, Option.isSome_iff_exists.2 ⟨outcome, ho⟩⟩

/-- A caller that looks after the end of the load returns. -/
private theorem ofLook_of_isSome {library : Library} {scope : ScopeName}
    (h : (library.outcome? scope).isSome = true) :
    ∃ outcome, Caller.State.ofLook (library.await scope) scope = .returned outcome := by
  obtain ⟨outcome, ho⟩ := Option.isSome_iff_exists.1 h
  refine ⟨outcome, Caller.State.ofLook_eq_returned_iff.2 ?_⟩
  rw [Library.outcome?_await, ho]

/-- A caller of a scope has returned once one has looked at its load after the end. -/
private theorem returned_step_iff (session : Session) (event : Event) (scope : ScopeName) :
    (∃ caller outcome, (session.step event).Returned caller scope outcome) ↔
      (∃ caller outcome, session.Returned caller scope outcome) ∨
        session.lookedAt? event = some scope ∧
          (session.library.outcome? scope).isSome = true := by
  constructor
  · rw [exists_returned_iff, exists_returned_iff]
    rintro ⟨outcome, hmem⟩
    cases event with
    | ensure other =>
      -- A new caller is at the end of the list.
      rcases List.mem_append.1 hmem with hold | hnew
      · exact Or.inl ⟨outcome, hold⟩
      · obtain ⟨heq, hended⟩ := eq_of_ofLook (List.mem_singleton.1 hnew)
        exact Or.inr ⟨congrArg some heq, hended⟩
    | resume caller =>
      rcases session.step_resume caller with ⟨other, -, hlooked, hstep⟩ | ⟨-, hstep⟩
      · rw [hstep] at hmem
        -- The entry of the caller is the only one that changes.
        rcases List.mem_or_eq_of_mem_set hmem with hold | hnew
        · exact Or.inl ⟨outcome, hold⟩
        · obtain ⟨heq, hended⟩ := eq_of_ofLook hnew
          exact Or.inr ⟨hlooked.trans (congrArg some heq), hended⟩
      · exact Or.inl ⟨outcome, hstep ▸ hmem⟩
    | abandon caller =>
      simp only [Session.step] at hmem
      split at hmem
      · rcases List.mem_or_eq_of_mem_set hmem with hold | hnew
        · exact Or.inl ⟨outcome, hold⟩
        · -- A caller that was dropped has not returned.
          cases hnew
      · exact Or.inl ⟨outcome, hmem⟩
    | start loader other => exact Or.inl ⟨outcome, hmem⟩
    | wait other => exact Or.inl ⟨outcome, hmem⟩
    | finish loader other => exact Or.inl ⟨outcome, hmem⟩
  · rintro (⟨caller, outcome, h⟩ | ⟨hlooked, hended⟩)
    · exact ⟨caller, outcome, h.step event⟩
    · obtain ⟨outcome, hlook⟩ := ofLook_of_isSome hended
      rw [exists_returned_iff]
      refine ⟨outcome, ?_⟩
      rw [← hlook]
      -- Only these two events let a caller look at its load.
      cases event with
      | ensure other =>
        cases hlooked
        exact List.mem_append_right _ (List.mem_singleton_self _)
      | resume caller =>
        rcases session.step_resume caller with ⟨other, hcaller, hother, hstep⟩ | ⟨hnone, -⟩
        · cases hother.symm.trans hlooked
          rw [hstep]
          exact List.mem_set (List.getElem?_eq_some_iff.1 hcaller).1 _
        · cases hnone.symm.trans hlooked
      | abandon caller => cases hlooked
      | start loader other => cases hlooked
      | wait other => cases hlooked
      | finish loader other => cases hlooked

/-- A load is settled exactly when one of its callers has returned. -/
theorem isSettled_run_iff (engine : Engine) (events : List Event) (scope : ScopeName) :
    (run engine events).library.cache.isSettled scope = true ↔
      ∃ caller outcome, (run engine events).Returned caller scope outcome := by
  -- The last event settles a load exactly when it lets a caller of the scope return.
  induction events using List.reverseRecOn with
  | nil =>
    constructor
    · intro h
      cases h
    · rintro ⟨caller, outcome, h⟩
      cases h
  | append_singleton events event ih =>
    have hlast : run engine (events ++ [event]) = (run engine events).step event :=
      run_append engine events [event]
    rw [hlast, isSettled_step_iff, returned_step_iff, ih]

/-! ## What a caller knows -/

/-- The store has for a scope what the loader answered, and this is the outcome. -/
def Answered (session : Session) (loader : Loader) (scope : ScopeName) (outcome : Outcome) : Prop :=
  match loader.answer scope with
  | .grammar grammar =>
    outcome = .ok () ∧ session.library.store.lookup scope = some ⟨0, grammar⟩ ∧
      session.library.store.injectionsInto scope = loader.injections scope
  | .nothing => outcome = .ok () ∧ session.library.store.lookup scope = none
  | .failure cause =>
    outcome = .error (.loader scope cause) ∧ session.library.store.lookup scope = none

/-- A store that agrees with the loader has what the loader answered. -/
private theorem answered_of_agrees {session : Session} {loader : Loader} {scope : ScopeName}
    {outcome : Outcome} (ho : outcome = loader.outcome scope)
    (h : session.library.store.Agrees loader scope) : session.Answered loader scope outcome := by
  have hlookup := h.lookup_eq
  have hinjections := h.injectionsInto_eq
  -- What is in the store depends on the kind of answer.
  subst ho
  simp only [Loader.definition?, Loader.injected] at hlookup hinjections
  unfold Answered Loader.outcome
  cases hanswer : loader.answer scope with
  | grammar grammar =>
    rw [hanswer] at hlookup hinjections
    exact ⟨rfl, hlookup, hinjections⟩
  | nothing =>
    rw [hanswer] at hlookup
    exact ⟨rfl, hlookup⟩
  | failure cause =>
    rw [hanswer] at hlookup
    exact ⟨rfl, hlookup⟩

/-- What a caller has seen stays. -/
private theorem kept_runFrom {session : Session} {later : List Event}
    (hlater : ∀ event ∈ later, event.IsHonest) {scope : ScopeName} {outcome : Outcome}
    (ho : session.library.outcome? scope = some outcome)
    (hsettled : session.library.cache.isSettled scope = true) :
    (session.runFrom later).library.cache.isSettled scope = true ∧
      (session.runFrom later).library.store.lookup scope =
        session.library.store.lookup scope ∧
      (session.runFrom later).library.store.injectionsInto scope =
        session.library.store.injectionsInto scope := by
  induction later generalizing session with
  | nil => exact ⟨hsettled, rfl, rfl⟩
  | cons event later ih =>
    -- One event keeps the outcome and with it what is registered.
    obtain ⟨ho', hlookup, hinjections⟩ := kept_step (hlater event List.mem_cons_self) ho
    have hsettled' := (session.isSettled_step_iff event scope).2 (Or.inl hsettled)
    obtain ⟨hlast, hlookup', hinjections'⟩ :=
      ih (fun other hother => hlater other (List.mem_cons_of_mem _ hother)) ho' hsettled'
    exact ⟨hlast, hlookup'.trans hlookup, hinjections'.trans hinjections⟩

/-- Whatever callers do and in whatever order loads start and end: when a caller has returned, the
load of its scope has ended with the answer of a loader. The outcome and what the store has for the
scope are those of this answer, and from then on the load is settled and the store has the same for
the scope. A load is settled only if it has ended and one of its callers has seen that. -/
theorem returned_with_answer (engine : Engine) (events : List Event)
    (h : ∀ event ∈ events, event.IsHonest) :
    (∀ caller scope outcome, (run engine events).Returned caller scope outcome →
      (∃ loader, EndedBy engine events loader scope ∧
        (run engine events).Answered loader scope outcome) ∧
      ∀ later, (∀ event ∈ later, event.IsHonest) →
        let library := (run engine (events ++ later)).library
        library.cache.isSettled scope = true ∧
          library.store.lookup scope = (run engine events).library.store.lookup scope ∧
          library.store.injectionsInto scope =
            (run engine events).library.store.injectionsInto scope) ∧
    ∀ scope, (run engine events).library.cache.isSettled scope = true →
      (∃ loader, EndedBy engine events loader scope) ∧
        ∃ caller outcome, (run engine events).Returned caller scope outcome := by
  have hexplained := explained_run engine h
  -- A caller got the outcome that the cache has.
  have houtcome {caller : Nat} {scope : ScopeName} {outcome : Outcome}
      (hreturned : (run engine events).Returned caller scope outcome) :
      (run engine events).library.outcome? scope = some outcome :=
    (valid_run engine events).returned _ (List.mem_of_getElem? hreturned) outcome rfl
  refine ⟨fun caller scope outcome hreturned => ⟨?_, fun later hlater => ?_⟩, fun scope hs => ?_⟩
  · obtain ⟨loader, hended, ho, hagrees⟩ :=
      hexplained.answered scope outcome (houtcome hreturned)
    exact ⟨loader, hended, answered_of_agrees ho hagrees⟩
  · -- A load that one caller has seen ended is settled, and events keep what is settled.
    rw [run_append]
    exact kept_runFrom hlater (houtcome hreturned)
      ((isSettled_run_iff engine events scope).2 ⟨caller, outcome, hreturned⟩)
  · obtain ⟨caller, outcome, hreturned⟩ := (isSettled_run_iff engine events scope).1 hs
    obtain ⟨loader, hended, -, -⟩ := hexplained.answered scope outcome (houtcome hreturned)
    exact ⟨⟨loader, hended⟩, caller, outcome, hreturned⟩

/-- Two callers ask for a grammar and the first one gives up. When the load has ended, the grammar
is registered but not settled; when the second caller has seen that, it is. -/
theorem returned_with_answer_to_second_caller :
    let page : ScopeName := ⟨"text.page", by decide, by simp, by simp; decide⟩
    let note : ScopeName := ⟨"text.note", by decide, by simp, by simp; decide⟩
    let loader := Loader.ofGrammars [.empty page] [(page, [note])]
    let before : List Event := [.ensure page, .start loader page, .ensure page, .abandon 0,
      .finish loader page]
    (∀ event ∈ before ++ [.resume 1], event.IsHonest) ∧
    (run .none before).library.cache.isSettled page = false ∧
    (run .none (before ++ [.resume 1])).Returned 1 page (.ok ()) ∧
    ∃ loader, EndedBy .none (before ++ [.resume 1]) loader page ∧
      (run .none (before ++ [.resume 1])).Answered loader page (.ok ()) := by
  intro page note loader before
  have hl : loader.Honest := Loader.honest_ofGrammars _ _
  have hhonest : ∀ event ∈ before ++ [.resume 1], event.IsHonest := by
    intro event hevent
    simp only [before, List.cons_append, List.nil_append, List.mem_cons, List.not_mem_nil,
      or_false] at hevent
    rcases hevent with rfl | rfl | rfl | rfl | rfl | rfl
    all_goals first | exact trivial | exact hl
  -- The second caller looks at the load after its end.
  have hreturned : (run .none (before ++ [.resume 1])).Returned 1 page (.ok ()) := by
    unfold Returned
    cbv
  exact ⟨hhonest, by cbv, hreturned,
    ((returned_with_answer .none _ hhonest).1 1 page (.ok ()) hreturned).1⟩

end Session

end Textmate
