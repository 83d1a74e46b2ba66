import Mathlib.Data.List.Nodup
import Mathlib.Logic.Relation
import Textmate.Cache

/-!
# What happens to loads

The events of a load go through its phases in one direction: queued, running, finished, settled. A
`Library.Step` is one effective event; the functions `request`, `start`, `wait`, `finish` and
`observe` are a step or change nothing, so an invariant of libraries needs a proof for the five
kinds of steps only (`Steps.keep`).

## Key results

- `steps_request` and its siblings: the events of a load are steps
- `Step.coherent`: the loader is asked for a scope exactly when its load leaves the queue
- `Step.effect`: only the end of a load changes the store, and a load ends once
- `sameLoads_observe`: looking at a load changes nothing but whether it counts as seen
-/

namespace Textmate

namespace Phase

def isStarted : Phase → Bool
  | queued => false
  | _ => true

/-- A load with an outcome was started. -/
theorem isStarted_of_outcome? {phase : Phase} {outcome : Outcome}
    (h : phase.outcome? = some outcome) : phase.isStarted = true := by
  cases phase with
  | queued => cases h
  | running turns => rfl
  | finished other => rfl
  | settled other => rfl

/-- The phase without the difference that a caller's look at the outcome makes. -/
def unseen : Phase → Phase
  | settled outcome => finished outcome
  | phase => phase

/-- Whether the outcome was seen makes no difference to the outcome. -/
@[simp] theorem outcome?_unseen (phase : Phase) : phase.unseen.outcome? = phase.outcome? := by
  cases phase <;> rfl

/-- A queued load is known as such also without the difference. -/
private theorem eq_queued_of_unseen {phase : Phase} (h : phase.unseen = queued) :
    phase = queued := by
  cases phase with
  | queued => rfl
  | running turns => cases h
  | finished outcome => cases h
  | settled outcome => cases h

/-- A running load is known as such also without the difference, with the same turns. -/
private theorem eq_running_of_unseen {phase : Phase} {turns : Nat}
    (h : phase.unseen = running turns) :
    phase = running turns := by
  cases phase with
  | running other => exact h
  | queued => cases h
  | finished outcome => cases h
  | settled outcome => cases h

end Phase

namespace Cache

/-- The loads are those of the same scopes, in the same order. -/
private theorem keys_setPhase (cache : Cache) (scope : ScopeName) (phase : Phase) :
    Dict.keys (cache.setPhase scope phase).loads = Dict.keys cache.loads := by
  simp [Dict.keys, setPhase]

end Cache

namespace Library

/-- One effective event of a load. -/
inductive Step (loader : Loader) : Library → Library → Prop
  | request (library : Library) (scope : ScopeName) (h : library.cache.phase? scope = none) :
    Step loader library
      ⟨library.store, { library.cache with loads := library.cache.loads ++ [(scope, .queued)] }⟩
  | start (library : Library) (scope : ScopeName)
      (h : library.cache.phase? scope = some .queued) :
    Step loader library
      ⟨library.store,
        { library.cache.setPhase scope (.running (loader.delay scope)) with
          fetched := library.cache.fetched ++ [scope] }⟩
  | wait (library : Library) (scope : ScopeName) (turns : Nat)
      (h : library.cache.phase? scope = some (.running (turns + 1))) :
    Step loader library ⟨library.store, library.cache.setPhase scope (.running turns)⟩
  | finish (library : Library) (scope : ScopeName) (turns : Nat)
      (h : library.cache.phase? scope = some (.running turns)) :
    Step loader library
      ⟨(accept loader library.store scope).1,
        library.cache.setPhase scope (.finished (accept loader library.store scope).2)⟩
  | observe (library : Library) (scope : ScopeName) (outcome : Outcome)
      (h : library.cache.phase? scope = some (.finished outcome)) :
    Step loader library ⟨library.store, library.cache.setPhase scope (.settled outcome)⟩

/-- Any number of effective events. -/
abbrev Steps (loader : Loader) : Library → Library → Prop :=
  Relation.ReflTransGen (Step loader)

/-! ## The events are steps -/

/-- A request is a step if there is no load yet, and nothing if there is one. -/
theorem steps_request (loader : Loader) (library : Library) (scope : ScopeName) :
    Steps loader library (library.request scope) := by
  unfold request
  split
  · exact .refl
  · rename_i h
    exact .single (.request library scope h)

/-- Asking the loader is a step for a queued load. -/
theorem steps_start (loader : Loader) (library : Library) (scope : ScopeName) :
    Steps loader library (library.start loader scope) := by
  unfold start
  split
  · rename_i h
    exact .single (.start library scope h)
  · exact .refl

/-- A turn that passes is a step for a load that has turns left. -/
theorem steps_wait (loader : Loader) (library : Library) (scope : ScopeName) :
    Steps loader library (library.wait scope) := by
  unfold wait
  split
  · rename_i turns h
    exact .single (.wait library scope turns h)
  · exact .refl

/-- An answer is a step for a running load. -/
theorem steps_finish (loader : Loader) (library : Library) (scope : ScopeName) :
    Steps loader library (library.finish loader scope) := by
  unfold finish
  split
  · rename_i turns h
    exact .single (.finish library scope turns h)
  · exact .refl

/-- A look at a finished load is a step. -/
private theorem steps_observe (loader : Loader) (library : Library) (scope : ScopeName) :
    Steps loader library (library.observe scope) := by
  unfold observe
  split
  · rename_i outcome h
    exact .single (.observe library scope outcome h)
  · exact .refl

/-- Waiting for a scope is a request and a look. -/
theorem steps_await (loader : Loader) (library : Library) (scope : ScopeName) :
    Steps loader library (library.await scope) :=
  (steps_request loader library scope).trans (steps_observe loader _ scope)

/-- Waiting for several scopes is waiting for one after another. -/
theorem steps_awaitAll (loader : Loader) (library : Library) (scopes : List ScopeName) :
    Steps loader library (scopes.foldl await library) := by
  induction scopes generalizing library with
  | nil => exact .refl
  | cons scope scopes ih => exact (steps_await loader library scope).trans (ih _)

/-- What happens to a load in a turn is at most two steps. -/
private theorem steps_advance (loader : Loader) (library : Library) (scope : ScopeName) :
    Steps loader library (advance loader library scope) := by
  -- A load without a delay starts and ends in one turn.
  unfold advance
  split
  · split
    · exact (steps_start loader library scope).trans (steps_finish loader _ scope)
    · exact steps_start loader library scope
  · split
    · exact steps_finish loader library scope
    · exact steps_wait loader library scope
  · exact .refl

/-- A turn is what happens to each of the loads. -/
theorem steps_turn (loader : Loader) (library : Library) :
    Steps loader library (library.turn loader) := by
  unfold turn
  -- The scopes are fixed before the first of the loads goes on.
  generalize Dict.keys library.cache.loads = scopes
  induction scopes generalizing library with
  | nil => exact .refl
  | cons scope scopes ih => exact (steps_advance loader library scope).trans (ih _)

/-! ## What a step keeps -/

/-- The loader was asked for a scope exactly when its load has left the queue, and then once. -/
structure Coherent (library : Library) : Prop where
  keys_nodup : (Dict.keys library.cache.loads).Nodup
  fetched_nodup : library.cache.fetched.Nodup
  /-- The loader was asked for the started loads. -/
  mem_fetched_iff : ∀ scope, scope ∈ library.cache.fetched ↔
    ∃ phase, library.cache.phase? scope = some phase ∧ phase.isStarted = true

/-- A new library has no loads and has asked for nothing. -/
theorem coherent_empty (engine : Engine) : (empty engine).Coherent := by
  refine ⟨List.nodup_nil, List.nodup_nil, fun scope => ?_⟩
  constructor
  · intro h
    cases h
  · rintro ⟨phase, h, -⟩
    cases h

/-- A load that was started goes on to a phase in which it is started too. -/
private theorem mem_fetched_setPhase {library : Library} (hc : library.Coherent)
    {scope : ScopeName} {old new : Phase} (h : library.cache.phase? scope = some old)
    (hold : old.isStarted = true) (hnew : new.isStarted = true) (other : ScopeName) :
    other ∈ library.cache.fetched ↔
      ∃ phase, (library.cache.setPhase scope new).phase? other = some phase ∧
        phase.isStarted = true := by
  rw [hc.mem_fetched_iff, Cache.find?_setPhase]
  by_cases hs : other = scope
  · -- For the scope itself both sides hold, as the load is started before and after.
    subst hs
    simp only [if_true, h, Option.map_some, Option.some.injEq, exists_eq_left', hold, hnew]
  · rw [if_neg hs]

/-- Every step keeps a library coherent. -/
theorem Step.coherent {loader : Loader} {library next : Library} (hc : library.Coherent)
    (h : Step loader library next) : next.Coherent := by
  cases h with
  | request scope h =>
    -- The scope had no load, so it is a new key; its load is queued and the loader was not asked.
    refine ⟨?_, hc.fetched_nodup, fun other => ?_⟩
    · have hnew : scope ∉ Dict.keys library.cache.loads := (Dict.find?_eq_none_iff _ _).1 h
      simp only [Dict.keys, List.map_append, List.map_cons, List.map_nil]
      exact List.Nodup.append hc.keys_nodup (List.nodup_singleton scope)
        (List.disjoint_singleton.2 hnew)
    · rw [hc.mem_fetched_iff]
      simp only [Cache.phase?, Dict.find?_append_singleton]
      by_cases hs : scope = other
      · subst hs
        have hnone : Dict.find? scope library.cache.loads = none := h
        simp [hnone, Phase.isStarted]
      · simp [hs]
  | start scope h =>
    -- A queued load was not started, so the loader was not asked for its scope before.
    have hnew : scope ∉ library.cache.fetched := by
      rw [hc.mem_fetched_iff, h]
      rintro ⟨phase, hphase, hstarted⟩
      cases hphase
      cases hstarted
    refine ⟨?_, ?_, fun other => ?_⟩
    · exact (Cache.keys_setPhase _ _ _).symm ▸ hc.keys_nodup
    · exact List.Nodup.append hc.fetched_nodup (List.nodup_singleton scope)
        (List.disjoint_singleton.2 hnew)
    · have hset := Cache.find?_setPhase library.cache scope other (.running (loader.delay scope))
      simp only [Cache.phase?] at hset ⊢
      rw [hset, List.mem_append, List.mem_singleton, hc.mem_fetched_iff]
      by_cases hs : other = scope
      · subst hs
        have hfind : Dict.find? other library.cache.loads = some .queued := h
        simp [hfind, Phase.isStarted]
      · simp [hs, Cache.phase?]
  | wait scope turns h =>
    -- The last three steps ask for nothing, and the load was and stays started.
    exact ⟨(Cache.keys_setPhase _ _ _).symm ▸ hc.keys_nodup, hc.fetched_nodup,
      mem_fetched_setPhase hc h rfl rfl⟩
  | finish scope turns h =>
    exact ⟨(Cache.keys_setPhase _ _ _).symm ▸ hc.keys_nodup, hc.fetched_nodup,
      mem_fetched_setPhase hc h rfl rfl⟩
  | observe scope outcome h =>
    exact ⟨(Cache.keys_setPhase _ _ _).symm ▸ hc.keys_nodup, hc.fetched_nodup,
      mem_fetched_setPhase hc h rfl rfl⟩

/-- There are as many started loads as questions to the loader. -/
theorem Coherent.fetchCount_eq {library : Library} (hc : library.Coherent) :
    library.cache.fetchCount = (library.cache.loads.filter (·.2.isStarted)).length := by
  have hnodup : ((library.cache.loads.filter (·.2.isStarted)).map (·.1)).Nodup :=
    hc.keys_nodup.sublist (List.filter_sublist.map _)
  -- Both lists have each scope at most once, so it is enough that they have the same scopes.
  have hperm : library.cache.fetched.Perm
      ((library.cache.loads.filter (·.2.isStarted)).map (·.1)) := by
    refine (List.perm_ext_iff_of_nodup hc.fetched_nodup hnodup).2 fun scope => ?_
    rw [hc.mem_fetched_iff]
    simp only [List.mem_map, List.mem_filter, Prod.exists, exists_and_right, exists_eq_right]
    constructor
    · rintro ⟨phase, h, hstarted⟩
      exact ⟨phase, Dict.mem_of_find? h, hstarted⟩
    · rintro ⟨phase, hmem, hstarted⟩
      exact ⟨phase, Dict.find?_of_mem hc.keys_nodup hmem, hstarted⟩
  rw [Cache.fetchCount, hperm.length_eq, List.length_map]

/-- A load that was requested stays in the cache. -/
theorem Step.mem_keys {loader : Loader} {library next : Library} (h : Step loader library next)
    {scope : ScopeName} (hs : scope ∈ Dict.keys library.cache.loads) :
    scope ∈ Dict.keys next.cache.loads := by
  -- Only a request changes the keys, and it adds one.
  cases h with
  | request other h =>
    simp only [Dict.keys, List.map_append, List.mem_append]
    exact Or.inl hs
  | start other h => exact (Cache.keys_setPhase _ _ _).symm ▸ hs
  | wait other turns h => exact (Cache.keys_setPhase _ _ _).symm ▸ hs
  | finish other turns h => exact (Cache.keys_setPhase _ _ _).symm ▸ hs
  | observe other outcome h => exact (Cache.keys_setPhase _ _ _).symm ▸ hs

/-- A load that goes to another phase leaves the others where they are. -/
theorem phase?_setPhase {library next : Library} {scope : ScopeName} {old new : Phase}
    (h : library.cache.phase? scope = some old)
    (hnext : ∀ other, next.cache.phase? other = (library.cache.setPhase scope new).phase? other)
    (other : ScopeName) :
    next.cache.phase? other = if other = scope then some new else library.cache.phase? other := by
  -- The scope has a phase, so that it is replaced and not left out.
  rw [hnext, Cache.find?_setPhase]
  split
  · rename_i hs
    rw [hs, h]
    rfl
  · rfl

/-- A load that goes to another phase changes its own outcome alone. -/
private theorem outcome?_setPhase {library next : Library} {scope : ScopeName} {old new : Phase}
    (h : library.cache.phase? scope = some old)
    (hnext : ∀ other, next.cache.phase? other = (library.cache.setPhase scope new).phase? other)
    (other : ScopeName) :
    next.outcome? other = if other = scope then new.outcome? else library.outcome? other := by
  rw [outcome?, phase?_setPhase h hnext]
  split <;> rfl

/-- A load that goes to another phase with the same outcome changes no outcome. -/
private theorem outcome?_setPhase_of_eq {library next : Library} {scope : ScopeName}
    {old new : Phase} (h : library.cache.phase? scope = some old)
    (heq : new.outcome? = old.outcome?)
    (hnext : ∀ other, next.cache.phase? other = (library.cache.setPhase scope new).phase? other)
    (other : ScopeName) : next.outcome? other = library.outcome? other := by
  rw [outcome?_setPhase h hnext]
  split
  · rename_i hs
    rw [hs, outcome?, h, heq]
    rfl
  · rfl

/-- What a step does to the store and the outcomes: either nothing, or a load ends, which had no
outcome before. -/
theorem Step.effect {loader : Loader} {library next : Library} (h : Step loader library next) :
    (next.store = library.store ∧ ∀ other, next.outcome? other = library.outcome? other) ∨
    ∃ scope, library.outcome? scope = none ∧
      next.store = (accept loader library.store scope).1 ∧
      ∀ other, next.outcome? other =
        if other = scope then some (accept loader library.store scope).2
        else library.outcome? other := by
  cases h with
  | request scope h =>
    -- A queued load has no outcome, as no load has none.
    refine Or.inl ⟨rfl, fun other => ?_⟩
    simp only [outcome?, Cache.phase?, Dict.find?_append_singleton]
    cases hfind : Dict.find? other library.cache.loads with
    | some phase => rfl
    | none => split <;> rfl
  | start scope h => exact Or.inl ⟨rfl, outcome?_setPhase_of_eq h (by rfl) fun _ => rfl⟩
  | wait scope turns h => exact Or.inl ⟨rfl, outcome?_setPhase_of_eq h (by rfl) fun _ => rfl⟩
  | finish scope turns h =>
    -- The one step that leaves an outcome; a running load had none.
    refine Or.inr ⟨scope, ?_, rfl, fun other => ?_⟩
    · rw [outcome?, h]
      rfl
    · rw [outcome?_setPhase h (fun _ => rfl)]
      rfl
  | observe scope outcome h => exact Or.inl ⟨rfl, outcome?_setPhase_of_eq h (by rfl) fun _ => rfl⟩

/-- An outcome never changes. -/
theorem Step.outcome_eq {loader : Loader} {library next : Library} (h : Step loader library next)
    {scope : ScopeName} {outcome : Outcome} (ho : library.outcome? scope = some outcome) :
    next.outcome? scope = some outcome := by
  rcases h.effect with ⟨-, hkeep⟩ | ⟨ended, hnone, -, hend⟩
  · rw [hkeep, ho]
  · -- A load that ends had no outcome, so it is another one.
    have hne : scope ≠ ended := by
      rintro rfl
      rw [hnone] at ho
      cases ho
    rw [hend, if_neg hne, ho]

/-! ## What any number of steps keep -/

/-- What every step keeps holds after any number of steps. -/
theorem Steps.keep {loader : Loader} {library next : Library} (h : Steps loader library next)
    (Kept : Library → Prop) (hk : Kept library)
    (hstep : ∀ library next, Step loader library next → Kept library → Kept next) : Kept next := by
  -- Along the steps, the last one last.
  induction h with
  | refl => exact hk
  | tail _ hlast ih => exact hstep _ _ hlast ih

/-- Any number of steps keep a library coherent. -/
theorem Steps.coherent {loader : Loader} {library next : Library}
    (h : Steps loader library next) (hc : library.Coherent) : next.Coherent :=
  h.keep Coherent hc fun _ _ hstep hc => hstep.coherent hc

/-- A load that was requested stays in the cache over any number of steps. -/
theorem Steps.mem_keys {loader : Loader} {library next : Library}
    (h : Steps loader library next) {scope : ScopeName}
    (hs : scope ∈ Dict.keys library.cache.loads) : scope ∈ Dict.keys next.cache.loads :=
  h.keep (fun library => scope ∈ Dict.keys library.cache.loads) hs fun _ _ hstep hs =>
    hstep.mem_keys hs

/-- An outcome does not change over any number of steps. -/
theorem Steps.outcome_eq {loader : Loader} {library next : Library}
    (h : Steps loader library next) {scope : ScopeName} {outcome : Outcome}
    (ho : library.outcome? scope = some outcome) : next.outcome? scope = some outcome :=
  h.keep (fun library => library.outcome? scope = some outcome) ho fun _ _ hstep ho =>
    hstep.outcome_eq ho

/-! ## Which loads there are -/

/-- A second request for a scope changes nothing. -/
theorem request_of_mem_keys {library : Library} {scope : ScopeName}
    (h : scope ∈ Dict.keys library.cache.loads) : library.request scope = library := by
  obtain ⟨phase, hphase⟩ := (Dict.mem_keys_iff_find? _ _).1 h
  unfold request
  rw [Cache.phase?, hphase]

/-- After a request there is a load for the scope, and for those that had one. -/
theorem mem_keys_request_iff (library : Library) (scope other : ScopeName) :
    other ∈ Dict.keys (library.request scope).cache.loads ↔
      other ∈ Dict.keys library.cache.loads ∨ other = scope := by
  unfold request
  split
  · -- The scope had a load, so the right side says no more than the left one.
    rename_i phase h
    have hmem : scope ∈ Dict.keys library.cache.loads := (Dict.mem_keys_iff_find? _ _).2 ⟨phase, h⟩
    constructor
    · exact Or.inl
    · rintro (hother | rfl)
      · exact hother
      · exact hmem
  · simp [Dict.keys]

/-- Asking the loader adds no load. -/
@[simp] theorem keys_start (library : Library) (loader : Loader) (scope : ScopeName) :
    Dict.keys (library.start loader scope).cache.loads = Dict.keys library.cache.loads := by
  unfold start
  split
  · exact Cache.keys_setPhase _ _ _
  · rfl

/-- A turn that passes adds no load. -/
@[simp] theorem keys_wait (library : Library) (scope : ScopeName) :
    Dict.keys (library.wait scope).cache.loads = Dict.keys library.cache.loads := by
  unfold wait
  split
  · exact Cache.keys_setPhase _ _ _
  · rfl

/-- An answer adds no load, although it may register a grammar for another scope. -/
@[simp] theorem keys_finish (library : Library) (loader : Loader) (scope : ScopeName) :
    Dict.keys (library.finish loader scope).cache.loads = Dict.keys library.cache.loads := by
  unfold finish
  split
  · exact Cache.keys_setPhase _ _ _
  · rfl

/-- A look adds no load. -/
@[simp] theorem keys_observe (library : Library) (scope : ScopeName) :
    Dict.keys (library.observe scope).cache.loads = Dict.keys library.cache.loads := by
  unfold observe
  split
  · exact Cache.keys_setPhase _ _ _
  · rfl

/-- After waiting there is a load for the scope, and for those that had one. -/
theorem mem_keys_await_iff (library : Library) (scope other : ScopeName) :
    other ∈ Dict.keys (library.await scope).cache.loads ↔
      other ∈ Dict.keys library.cache.loads ∨ other = scope := by
  rw [await, keys_observe, mem_keys_request_iff]

/-! ## Where the events lead -/

/-- Asking the loader for a queued scope sets its load running. -/
theorem phase?_start (loader : Loader) {library : Library} {scope : ScopeName}
    (h : library.cache.phase? scope = some .queued) (other : ScopeName) :
    (library.start loader scope).cache.phase? other =
      if other = scope then some (.running (loader.delay scope))
      else library.cache.phase? other := by
  have hstart : (library.start loader scope).cache =
      { library.cache.setPhase scope (.running (loader.delay scope)) with
        fetched := library.cache.fetched ++ [scope] } := by
    simp only [start, h, Cache.setPhase]
  exact phase?_setPhase h (fun _ => by rw [hstart]; rfl) other

/-- A turn that passes leaves a running load one turn less. -/
theorem phase?_wait {library : Library} {scope : ScopeName} {turns : Nat}
    (h : library.cache.phase? scope = some (.running (turns + 1))) (other : ScopeName) :
    (library.wait scope).cache.phase? other =
      if other = scope then some (.running turns) else library.cache.phase? other :=
  phase?_setPhase h (fun _ => by simp only [wait, h]) other

/-- An answer finishes a running load, and no other one. -/
theorem phase?_finish (loader : Loader) {library : Library} {scope : ScopeName} {turns : Nat}
    (h : library.cache.phase? scope = some (.running turns)) (other : ScopeName) :
    (library.finish loader scope).cache.phase? other =
      if other = scope then some (.finished (accept loader library.store scope).2)
      else library.cache.phase? other :=
  phase?_setPhase h (fun _ => by simp only [finish, h]) other

/-- Once a load was started and has finished, it has an outcome. -/
theorem outcome?_finish_start {library : Library} (loader : Loader) {scope : ScopeName}
    (h : scope ∈ Dict.keys library.cache.loads) :
    ∃ outcome, ((library.start loader scope).finish loader scope).outcome? scope =
      some outcome := by
  obtain ⟨phase, hphase⟩ := (Dict.mem_keys_iff_find? _ _).1 h
  have hfind : library.cache.phase? scope = some phase := hphase
  -- Starting does nothing behind the queue, and finishing nothing behind the end.
  cases phase with
  | queued =>
    have hstart := phase?_start loader hfind scope
    -- The load is running from here on, and an answer finishes it.
    rw [if_pos rfl] at hstart
    rw [outcome?, phase?_finish loader hstart, if_pos rfl]
    exact ⟨_, rfl⟩
  | running turns =>
    have hstart : library.start loader scope = library := by simp only [start, hfind]
    rw [hstart, outcome?, phase?_finish loader hfind, if_pos rfl]
    exact ⟨_, rfl⟩
  | finished outcome =>
    refine ⟨outcome, ?_⟩
    simp only [start, finish, hfind, outcome?]
    rfl
  | settled outcome =>
    refine ⟨outcome, ?_⟩
    simp only [start, finish, hfind, outcome?]
    rfl

/-! ## Looking at a load

A caller that looks at a load can change whether the load counts as seen. Nothing else depends on
that, so two libraries that differ in it go on alike. -/

/-- Two libraries whose loads differ at most in whether their outcome was seen. -/
structure SameLoads (a b : Library) : Prop where
  store_eq : a.store = b.store
  /-- The loader was asked for the same scopes. -/
  fetched_eq : a.cache.fetched = b.cache.fetched
  /-- The loads have come equally far. -/
  unseen_eq : ∀ scope,
    (a.cache.phase? scope).map Phase.unseen = (b.cache.phase? scope).map Phase.unseen

namespace SameLoads

/-- A library has the same loads as itself. -/
theorem refl (a : Library) : SameLoads a a := ⟨rfl, rfl, fun _ => rfl⟩

/-- The difference has no direction. -/
theorem symm {a b : Library} (h : SameLoads a b) : SameLoads b a :=
  ⟨h.store_eq.symm, h.fetched_eq.symm, fun scope => (h.unseen_eq scope).symm⟩

/-- Differences in what was seen add up to such a difference. -/
theorem trans {a b c : Library} (h : SameLoads a b) (h' : SameLoads b c) : SameLoads a c :=
  ⟨h.store_eq.trans h'.store_eq, h.fetched_eq.trans h'.fetched_eq,
    fun scope => (h.unseen_eq scope).trans (h'.unseen_eq scope)⟩

/-- The outcomes are the same, as a look does not change them. -/
theorem outcome?_eq {a b : Library} (h : SameLoads a b) (scope : ScopeName) :
    a.outcome? scope = b.outcome? scope := by
  -- The outcome can be read off the phase without the difference.
  have hbind (library : Library) : library.outcome? scope =
      ((library.cache.phase? scope).map Phase.unseen).bind (·.outcome?) := by
    cases hphase : library.cache.phase? scope <;> simp [outcome?, hphase]
  rw [hbind, hbind, h.unseen_eq]

/-- What was not requested in one library was not in the other. -/
private theorem phase?_eq_none {a b : Library} (h : SameLoads a b) {scope : ScopeName}
    (ha : a.cache.phase? scope = none) : b.cache.phase? scope = none := by
  have := h.unseen_eq scope
  rw [ha, Option.map_none] at this
  exact Option.map_eq_none_iff.1 this.symm

/-- What is queued in one library is queued in the other. -/
private theorem phase?_eq_queued {a b : Library} (h : SameLoads a b) {scope : ScopeName}
    (ha : a.cache.phase? scope = some .queued) : b.cache.phase? scope = some .queued := by
  have hb := h.unseen_eq scope
  -- The phase in the other library is the same up to the look, and no look leads to the queue.
  rw [ha, Option.map_some] at hb
  obtain ⟨phase, hphase, hunseen⟩ := Option.map_eq_some_iff.1 hb.symm
  rw [hphase, Phase.eq_queued_of_unseen hunseen]

/-- What is running in one library is running in the other, with the same turns. -/
private theorem phase?_eq_running {a b : Library} (h : SameLoads a b) {scope : ScopeName}
    {turns : Nat} (ha : a.cache.phase? scope = some (.running turns)) :
    b.cache.phase? scope = some (.running turns) := by
  have hb := h.unseen_eq scope
  rw [ha, Option.map_some] at hb
  obtain ⟨phase, hphase, hunseen⟩ := Option.map_eq_some_iff.1 hb.symm
  rw [hphase, Phase.eq_running_of_unseen hunseen]

/-- Loads that go to the same phase in both libraries stay alike. -/
private theorem unseen_setPhase {a b : Library} (h : SameLoads a b) (scope : ScopeName)
    (phase : Phase) (other : ScopeName) :
    ((a.cache.setPhase scope phase).phase? other).map Phase.unseen =
      ((b.cache.setPhase scope phase).phase? other).map Phase.unseen := by
  have heq := h.unseen_eq other
  rw [Cache.find?_setPhase, Cache.find?_setPhase]
  split
  · -- A load that one of the libraries has is in the other one too.
    cases ha : a.cache.phase? other with
    | none => rw [h.phase?_eq_none ha]
    | some old =>
      cases hb : b.cache.phase? other with
      | none => exact absurd (h.symm.phase?_eq_none hb) (by rw [ha]; exact nofun)
      | some _ => rfl
  · exact heq

/-- A request keeps the loads alike. -/
theorem request {a b : Library} (h : SameLoads a b) (scope : ScopeName) :
    SameLoads (a.request scope) (b.request scope) := by
  unfold Library.request
  cases ha : a.cache.phase? scope with
  | some phase =>
    cases hb : b.cache.phase? scope with
    | some _ => exact h
    | none => exact absurd (h.symm.phase?_eq_none hb) (by rw [ha]; exact nofun)
  | none =>
    rw [h.phase?_eq_none ha]
    -- The new load stands at the end of both lists and is found where there was none before.
    refine ⟨h.store_eq, h.fetched_eq, fun other => ?_⟩
    have heq := h.unseen_eq other
    simp only [Cache.phase?, Dict.find?_append_singleton] at heq ⊢
    cases hother : Dict.find? other a.cache.loads with
    | some phase =>
      rw [hother] at heq
      obtain ⟨phase', hphase', hunseen⟩ := Option.map_eq_some_iff.1 heq.symm
      rw [hphase', Option.some_or, Option.some_or, Option.map_some, Option.map_some, hunseen]
    | none =>
      rw [hother, Option.map_none] at heq
      rw [Option.map_eq_none_iff.1 heq.symm]

/-- Asking the loader keeps the loads alike. -/
theorem start {a b : Library} (h : SameLoads a b) (loader : Loader) (scope : ScopeName) :
    SameLoads (a.start loader scope) (b.start loader scope) := by
  unfold Library.start
  split
  · rename_i ha
    rw [h.phase?_eq_queued ha]
    refine ⟨h.store_eq, ?_, unseen_setPhase h scope _⟩
    have hfetched : a.cache.fetched ++ [scope] = b.cache.fetched ++ [scope] := by rw [h.fetched_eq]
    exact hfetched
  · rename_i ha
    split
    · rename_i hb
      -- In one library alone it cannot be queued.
      exact absurd (h.symm.phase?_eq_queued hb) ha
    · exact h

/-- A turn that passes keeps the loads alike. -/
theorem wait {a b : Library} (h : SameLoads a b) (scope : ScopeName) :
    SameLoads (a.wait scope) (b.wait scope) := by
  unfold Library.wait
  split
  · rename_i turns ha
    rw [h.phase?_eq_running ha]
    exact ⟨h.store_eq, h.fetched_eq, unseen_setPhase h scope _⟩
  · rename_i ha
    split
    · rename_i turns hb
      -- In one library alone it cannot be running.
      exact absurd (h.symm.phase?_eq_running hb) (ha turns)
    · exact h

/-- An answer keeps the loads alike, and what it registers. -/
theorem finish {a b : Library} (h : SameLoads a b) (loader : Loader) (scope : ScopeName) :
    SameLoads (a.finish loader scope) (b.finish loader scope) := by
  unfold Library.finish
  -- Both libraries agree on which loads are running.
  split
  · rename_i turns ha
    rw [h.phase?_eq_running ha, h.store_eq]
    exact ⟨rfl, h.fetched_eq, unseen_setPhase h scope _⟩
  · rename_i ha
    split
    · rename_i turns hb
      exact absurd (h.symm.phase?_eq_running hb) (ha turns)
    · exact h

end SameLoads

/-- Looking at a load changes nothing but whether it counts as seen. -/
theorem sameLoads_observe (library : Library) (scope : ScopeName) :
    SameLoads (library.observe scope) library := by
  unfold observe
  split
  · rename_i outcome h
    refine ⟨rfl, rfl, fun other => ?_⟩
    -- Only the load that was looked at differs: it was finished, and is settled.
    rw [Cache.find?_setPhase]
    split
    · rename_i hs
      rw [hs, h]
      rfl
    · rfl
  · exact .refl library

end Library

end Textmate
