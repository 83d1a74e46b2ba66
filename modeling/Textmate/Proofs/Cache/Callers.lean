import Mathlib.Data.List.Dedup
import Textmate.Proofs.Cache.Loads

/-!
# Callers of a cache

A session is a cache in use: any number of callers ask for scopes, look at their loads again, or
give up, while the loads start and end in any order. The events of a session bring their own loader,
so a loader may behave differently each time it is asked.

## Key results

- `Valid.step`: every event keeps the invariant of sessions
- `sameLoads_runFrom`: how loads go on does not depend on who waits for them
- `fetched_once_with_one_outcome`: each scope is fetched at most once and has one outcome
-/

namespace Textmate

/-- What became of a caller. -/
inductive Caller.State where
  | waiting
  | returned (outcome : Outcome)
  | abandoned

/-- A caller that asked for the load of a scope. -/
structure Caller where
  scope : ScopeName
  state : Caller.State

/-- The state of a caller that has looked at the load of a scope. -/
def Caller.State.ofLook (library : Library) (scope : ScopeName) : Caller.State :=
  match library.outcome? scope with
  | none => .waiting
  | some outcome => .returned outcome

/-- A cache in use. -/
structure Session where
  /-- The cache and the store that it fills. -/
  library : Library
  /-- All callers so far, in the order of their first requests. -/
  callers : List Caller

namespace Session

/-- What happens in a session. -/
inductive Event where
  /-- A new caller asks for a scope. -/
  | ensure (scope : ScopeName)
  /-- A caller that waits looks at its load again. -/
  | resume (caller : Nat)
  /-- A caller that waits gives up. -/
  | abandon (caller : Nat)
  /-- A loader is asked for a queued scope. -/
  | start (loader : Loader) (scope : ScopeName)
  /-- A turn passes while the loader is busy with a scope. -/
  | wait (scope : ScopeName)
  /-- A loader answers for a scope for which it was asked. -/
  | finish (loader : Loader) (scope : ScopeName)

/-- The session after an event. -/
def step (session : Session) : Event → Session
  | .ensure scope =>
    let library := session.library.await scope
    ⟨library, session.callers ++ [⟨scope, .ofLook library scope⟩]⟩
  -- A caller looks again, or gives up, only while it waits.
  | .resume caller =>
    match session.callers[caller]? with
    | some ⟨scope, .waiting⟩ =>
      let library := session.library.await scope
      ⟨library, session.callers.set caller ⟨scope, .ofLook library scope⟩⟩
    | _ => session
  | .abandon caller =>
    match session.callers[caller]? with
    | some ⟨scope, .waiting⟩ =>
      { session with callers := session.callers.set caller ⟨scope, .abandoned⟩ }
    | _ => session
  | .start loader scope => { session with library := session.library.start loader scope }
  | .wait scope => { session with library := session.library.wait scope }
  | .finish loader scope => { session with library := session.library.finish loader scope }

def runFrom (session : Session) (events : List Event) : Session :=
  events.foldl step session

/-- The session of events that begin with nothing requested. -/
def run (engine : Engine) (events : List Event) : Session :=
  runFrom ⟨.empty engine, []⟩ events

/-- The scope that a caller asks for in an event. -/
def Event.requested? : Event → Option ScopeName
  | .ensure scope => some scope
  | _ => none

/-- The scopes that callers ask for in events, each once. -/
def requestedScopes (events : List Event) : List ScopeName :=
  (events.filterMap Event.requested?).dedup

/-- A caller of a scope got an outcome. -/
def Returned (session : Session) (caller : Nat) (scope : ScopeName) (outcome : Outcome) : Prop :=
  session.callers[caller]? = some ⟨scope, .returned outcome⟩

/-- What holds in every session. -/
structure Valid (session : Session) : Prop where
  /-- The loader was asked for the started loads. -/
  coherent : session.library.Coherent
  /-- The scope of a caller has a load. -/
  requested : ∀ caller ∈ session.callers,
    caller.scope ∈ Dict.keys session.library.cache.loads
  /-- What a caller got is the outcome of the load. -/
  returned : ∀ caller ∈ session.callers, ∀ outcome, caller.state = .returned outcome →
    session.library.outcome? caller.scope = some outcome

/-! ## One event -/

/-- A caller that looked at its load knows no more than the cache. -/
private theorem outcome?_of_ofLook {library : Library} {scope : ScopeName} {outcome : Outcome}
    (h : Caller.State.ofLook library scope = .returned outcome) :
    library.outcome? scope = some outcome := by
  unfold Caller.State.ofLook at h
  split at h
  · cases h
  · rename_i found hfound
    cases h
    exact hfound

/-- Steps of the library alone keep the invariant. -/
private theorem Valid.of_steps {session : Session} (hv : session.Valid) {loader : Loader}
    {library : Library} (h : Library.Steps loader session.library library) :
    Valid { session with library := library } :=
  ⟨h.coherent hv.coherent, fun caller hc => h.mem_keys (hv.requested caller hc),
    fun caller hc outcome ho => h.outcome_eq (hv.returned caller hc outcome ho)⟩

/-- The callers may change as long as each of them has a load and knows no more than the cache. -/
private theorem Valid.withCallers {session : Session} (hv : session.Valid) {callers : List Caller}
    (h : ∀ caller ∈ callers, caller ∈ session.callers ∨
      caller.scope ∈ Dict.keys session.library.cache.loads ∧
        ∀ outcome, caller.state = .returned outcome →
          session.library.outcome? caller.scope = some outcome) :
    Valid { session with callers := callers } := by
  -- Callers that were there before are as valid as they were.
  refine ⟨hv.coherent, fun caller hc => ?_, fun caller hc => ?_⟩
  · rcases h caller hc with hold | hnew
    · exact hv.requested caller hold
    · exact hnew.1
  · rcases h caller hc with hold | hnew
    · exact hv.returned caller hold
    · exact hnew.2

/-- Every event keeps the invariant of sessions. -/
theorem Valid.step {session : Session} (hv : session.Valid) (event : Event) :
    (session.step event).Valid := by
  -- A call changes the library by steps, and its own entry among the callers.
  cases event with
  | ensure scope =>
    have hawait := hv.of_steps (session.library.steps_await .empty scope)
    refine hawait.withCallers fun caller hc => ?_
    rcases List.mem_append.1 hc with hold | hnew
    · exact Or.inl hold
    · rw [List.mem_singleton] at hnew
      subst hnew
      exact Or.inr ⟨(Library.mem_keys_await_iff _ _ _).2 (Or.inr rfl), fun _ => outcome?_of_ofLook⟩
  | resume caller =>
    simp only [Session.step]
    split
    · rename_i scope _
      have hawait := hv.of_steps (session.library.steps_await .empty scope)
      refine hawait.withCallers fun other hc => ?_
      rcases List.mem_or_eq_of_mem_set hc with hold | hnew
      · exact Or.inl hold
      · subst hnew
        exact Or.inr ⟨(Library.mem_keys_await_iff _ _ _).2 (Or.inr rfl),
          fun _ => outcome?_of_ofLook⟩
    · exact hv
  | abandon caller =>
    simp only [Session.step]
    split
    · rename_i scope hcaller
      refine hv.withCallers fun other hc => ?_
      rcases List.mem_or_eq_of_mem_set hc with hold | hnew
      · exact Or.inl hold
      · subst hnew
        -- A caller that gives up has requested its scope, and got no outcome.
        have hmem := hv.requested _ (List.mem_of_getElem? hcaller)
        exact Or.inr ⟨hmem, fun _ h => nomatch h⟩
    · exact hv
  | start loader scope => exact hv.of_steps (session.library.steps_start loader scope)
  | wait scope => exact hv.of_steps (session.library.steps_wait .empty scope)
  | finish loader scope => exact hv.of_steps (session.library.steps_finish loader scope)

/-- Which loads there are after an event. -/
private theorem mem_keys_step_iff {session : Session} (hv : session.Valid) (event : Event)
    (scope : ScopeName) :
    scope ∈ Dict.keys (session.step event).library.cache.loads ↔
      scope ∈ Dict.keys session.library.cache.loads ∨ event.requested? = some scope := by
  cases event with
  | ensure other =>
    simp only [Session.step, Library.mem_keys_await_iff, Event.requested?, Option.some.injEq,
      eq_comm]
  | resume caller =>
    simp only [Session.step, Event.requested?, reduceCtorEq, or_false]
    -- The scope of a waiting caller was requested before, so nothing is added.
    split
    · rename_i other hcaller
      have hmem : other ∈ Dict.keys session.library.cache.loads :=
        hv.requested _ (List.mem_of_getElem? hcaller)
      simp only [Library.await, Library.request_of_mem_keys hmem, Library.keys_observe]
    · exact Iff.rfl
  | abandon caller =>
    simp only [Session.step, Event.requested?, reduceCtorEq, or_false]
    split <;> exact Iff.rfl
  | start loader other => simp [Session.step, Event.requested?]
  | wait other => simp [Session.step, Event.requested?]
  | finish loader other => simp [Session.step, Event.requested?]

/-- A caller that gives up leaves the library alone. -/
private theorem library_abandon (session : Session) (caller : Nat) :
    (session.step (.abandon caller)).library = session.library := by
  simp only [Session.step]
  split <;> rfl

/-- An event does the same to the loads of two sessions that differ in their callers. -/
private theorem sameLoads_step {a b : Session} (ha : a.Valid) (hb : b.Valid)
    (h : Library.SameLoads a.library b.library) (event : Event) :
    Library.SameLoads (a.step event).library (b.step event).library := by
  -- A waiting caller that looks again requests nothing, so its look is all that happens.
  have hresume {session : Session} (hv : session.Valid) (caller : Nat) :
      Library.SameLoads (session.step (.resume caller)).library session.library := by
    simp only [Session.step]
    split
    · rename_i scope hcaller
      have hmem : scope ∈ Dict.keys session.library.cache.loads :=
        hv.requested _ (List.mem_of_getElem? hcaller)
      rw [Library.await, Library.request_of_mem_keys hmem]
      exact Library.sameLoads_observe session.library scope
    · exact .refl _
  cases event with
  | ensure scope =>
    exact (Library.sameLoads_observe _ scope).trans
      ((h.request scope).trans (Library.sameLoads_observe _ scope).symm)
  | resume caller => exact (hresume ha caller).trans (h.trans (hresume hb caller).symm)
  | abandon caller =>
    rw [library_abandon, library_abandon]
    exact h
  | start loader scope => exact h.start loader scope
  | wait scope => exact h.wait scope
  | finish loader scope => exact h.finish loader scope

/-! ## Any number of events -/

/-- Nothing was requested at the start. -/
private theorem valid_empty (engine : Engine) : Valid ⟨.empty engine, []⟩ :=
  ⟨Library.coherent_empty engine, (fun _ h => nomatch h), fun _ h => nomatch h⟩

/-- A session stays valid whatever happens. -/
private theorem Valid.runFrom {session : Session} (hv : session.Valid) (events : List Event) :
    (session.runFrom events).Valid := by
  induction events generalizing session with
  | nil => exact hv
  | cons event events ih => exact ih (hv.step event)

/-- Sessions that come from events are valid. -/
theorem valid_run (engine : Engine) (events : List Event) : (run engine events).Valid :=
  (valid_empty engine).runFrom events

/-- Which loads there are after events. -/
private theorem mem_keys_runFrom_iff {session : Session} (hv : session.Valid) (events : List Event)
    (scope : ScopeName) :
    scope ∈ Dict.keys (session.runFrom events).library.cache.loads ↔
      scope ∈ Dict.keys session.library.cache.loads ∨
        scope ∈ events.filterMap Event.requested? := by
  induction events generalizing session with
  | nil => simp [Session.runFrom]
  | cons event events ih =>
    have hrest := ih (hv.step event)
    have hfirst := mem_keys_step_iff hv event scope
    simp only [Session.runFrom, List.foldl_cons] at hrest ⊢
    -- One event adds the scope that it requests, if any.
    rw [hrest, hfirst, or_assoc]
    refine or_congr_right ?_
    cases hrequested : event.requested? with
    | none => simp [hrequested]
    | some other => simp [hrequested, eq_comm]

/-- How loads go on does not depend on who waits for them. -/
theorem sameLoads_runFrom {a b : Session} (ha : a.Valid) (hb : b.Valid)
    (h : Library.SameLoads a.library b.library) (events : List Event) :
    Library.SameLoads (a.runFrom events).library (b.runFrom events).library := by
  induction events generalizing a b with
  | nil => exact h
  | cons event events ih => exact ih (ha.step event) (hb.step event) (sameLoads_step ha hb h event)

/-- There are as many loads as scopes that callers asked for. -/
private theorem length_loads_run (engine : Engine) (events : List Event) :
    (run engine events).library.cache.loads.length = (requestedScopes events).length := by
  -- Neither list has a scope twice, and both have the requested ones.
  have hperm : (Dict.keys (run engine events).library.cache.loads).Perm
      (requestedScopes events) := by
    refine (List.perm_ext_iff_of_nodup (valid_run engine events).coherent.keys_nodup
      (List.nodup_dedup _)).2 fun scope => ?_
    have hempty : scope ∉ Dict.keys (Library.empty engine).cache.loads := List.not_mem_nil
    have hkeys := mem_keys_runFrom_iff (valid_empty engine) events scope
    rw [run, hkeys, or_iff_right hempty]
    exact List.mem_dedup.symm
  rw [← hperm.length_eq, Dict.keys, List.length_map]

/-- Without a busy load, every load was started. -/
private theorem isStarted_of_isBusy {library : Library} (h : library.isBusy = false) :
    library.cache.loads.filter (·.2.isStarted) = library.cache.loads := by
  refine List.filter_eq_self.2 fun entry hentry => ?_
  obtain ⟨scope, phase⟩ := entry
  have hall := List.any_eq_false.1 h (scope, phase) hentry
  cases phase with
  | queued => exact absurd rfl hall
  | _ => rfl

/-- Whatever loaders and callers do and in whatever order, the loader is asked for a scope at most
once, as often as loads were started and at most for each requested scope, with equality when no
load is under way. All callers of a scope that return get the same outcome. A caller that gives up
neither cancels nor restarts a load: whatever happens later, the store, the questions to the loader
and the outcomes are the same as with the caller still there, and every requested load can still
come to its end. -/
theorem fetched_once_with_one_outcome (engine : Engine) (events : List Event) :
    let session := run engine events
    let cache := session.library.cache
    cache.fetched.Nodup ∧
    cache.fetchCount = (cache.loads.filter (·.2.isStarted)).length ∧
    cache.fetchCount ≤ (requestedScopes events).length ∧
    (session.library.isBusy = false → cache.fetchCount = (requestedScopes events).length) ∧
    (∀ i j scope x y, session.Returned i scope x → session.Returned j scope y → x = y) ∧
    (∀ caller later,
      let without := ((session.step (.abandon caller)).runFrom later).library
      let waiting := (session.runFrom later).library
      without.store = waiting.store ∧ without.cache.fetched = waiting.cache.fetched ∧
        ∀ scope, without.outcome? scope = waiting.outcome? scope) ∧
    ∀ caller loader, ∀ scope ∈ requestedScopes events, ∃ outcome,
      ((session.step (.abandon caller)).runFrom
        [.start loader scope, .finish loader scope]).library.outcome? scope = some outcome := by
  have hv := valid_run engine events
  have hcount := hv.coherent.fetchCount_eq
  have hlength := length_loads_run engine events
  refine ⟨hv.coherent.fetched_nodup, hcount, ?_, ?_, ?_, ?_, ?_⟩
  · -- Not more loads were started than requested.
    rw [hcount, ← hlength]
    exact List.length_filter_le _ _
  · -- Without a busy load all of them were started.
    intro hbusy
    rw [hcount, isStarted_of_isBusy hbusy, hlength]
  · -- Both callers got the outcome that the cache still has.
    intro i j scope x y hx hy
    have hx' := hv.returned _ (List.mem_of_getElem? hx) x rfl
    have hy' := hv.returned _ (List.mem_of_getElem? hy) y rfl
    exact Option.some.inj (hx'.symm.trans hy')
  · -- Giving up leaves the library alone, and loads go on whoever waits for them.
    intro caller later
    have habandon := hv.step (.abandon caller)
    have hsame : Library.SameLoads ((run engine events).step (.abandon caller)).library
        (run engine events).library := by
      rw [library_abandon]
      exact .refl _
    have hlater := sameLoads_runFrom habandon hv hsame later
    exact ⟨hlater.store_eq, hlater.fetched_eq, hlater.outcome?_eq⟩
  · -- A requested load has a phase, and every phase can come to its end.
    intro caller loader scope hscope
    have hmem : scope ∈
        Dict.keys ((run engine events).step (.abandon caller)).library.cache.loads := by
      rw [library_abandon]
      exact (mem_keys_runFrom_iff (valid_empty engine) events scope).2
        (Or.inr (List.mem_dedup.1 hscope))
    exact Library.outcome?_finish_start loader hmem

end Session

end Textmate
