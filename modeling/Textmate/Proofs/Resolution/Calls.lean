import Mathlib.Data.List.Forall2
import Mathlib.Data.List.Permutation
import Mathlib.Logic.Relation
import Textmate.Proofs.Resolution.Pace
import Textmate.Registry

/-!
# Calls at the same time

Any number of resolutions go on over one library. They look at the loads of their layers, go on when
these have ended, or are dropped, while the loads start and end in any order. All of them share one
cache and one store, and none of them can tell: the loads that ended have left what the loader
answered, and a resolution takes nothing else from the store.

## Key results

- `All.step`: every event keeps what loads and layers keep
- `results_as_alone`: a call that returns has the result that it has alone
-/

namespace Textmate

/-- A call that asked for the resolution of a scope. -/
structure Call where
  scope : ScopeName
  /-- How far the call has come, unless it was dropped. -/
  progress : Option Progress

/-- Calls over one library. -/
structure Calls where
  library : Library
  /-- All calls so far, in the order in which they began. -/
  calls : List Call

namespace Calls

/-- What happens to calls and loads. -/
inductive Event where
  | resolve (scope : ScopeName)
  /-- A call looks at the load of a scope of its layer. -/
  | look (call : Nat) (scope : ScopeName)
  /-- A call goes on if all loads of its layer have ended. -/
  | advance (call : Nat)
  /-- A call that has no result yet is dropped. -/
  | drop (call : Nat)
  /-- The loader is asked for a queued scope. -/
  | start (scope : ScopeName)
  /-- A turn passes while the loader is busy with a scope. -/
  | wait (scope : ScopeName)
  /-- The loader answers for a scope for which it was asked. -/
  | finish (scope : ScopeName)
  /-- The executor resolves several scopes at once within a number of turns. -/
  | together (limit : Nat) (scopes : List ScopeName)

/-- Calls that the executor made at once; without results they are dropped. -/
def ofResults (scopes : List ScopeName) : Option (List (Except Error Resolution)) → List Call
  | none => scopes.map fun scope => ⟨scope, none⟩
  | some results =>
    (scopes.zip results).map fun (scope, result) => ⟨scope, some (.done result)⟩

/-- The calls after an event. -/
def step (loader : Loader) (calls : Calls) : Event → Calls
  | .resolve scope =>
    { calls with calls := calls.calls ++ [⟨scope, some (.waiting (.start scope))⟩] }
  -- A call looks at loads of its layer only, and only while it waits.
  | .look call scope =>
    match calls.calls[call]? with
    | some ⟨_, some (.waiting run)⟩ =>
      if scope ∈ run.scopes then { calls with library := calls.library.await scope } else calls
    | _ => calls
  -- A call goes on when all loads of its layer have ended.
  | .advance call =>
    match calls.calls[call]? with
    | some ⟨scope, some (.waiting run)⟩ =>
      match calls.library.outcomes? run.scopes with
      | some outcomes =>
        let progress := Progress.afterLoads calls.library.store run outcomes
        { calls with calls := calls.calls.set call ⟨scope, some progress⟩ }
      | none => calls
    | _ => calls
  | .drop call =>
    match calls.calls[call]? with
    | some ⟨scope, some (.waiting _)⟩ =>
      { calls with calls := calls.calls.set call ⟨scope, none⟩ }
    | _ => calls
  | .start scope => { calls with library := calls.library.start loader scope }
  | .wait scope => { calls with library := calls.library.wait scope }
  | .finish scope => { calls with library := calls.library.finish loader scope }
  | .together limit scopes =>
    let (results, library) := calls.library.resolveAll loader limit scopes
    -- The calls of the executor come behind those that were there.
    ⟨library, calls.calls ++ ofResults scopes results⟩

/-- The calls after events that begin with a library. -/
def after (loader : Loader) (library : Library) (events : List Event) : Calls :=
  events.foldl (step loader) ⟨library, []⟩

/-- The calls after events that begin with an empty library. -/
def run (loader : Loader) (engine : Engine) (events : List Event) : Calls :=
  events.foldl (step loader) ⟨.empty engine, []⟩

/-- A call for a scope has returned a result. -/
def Returned (calls : Calls) (call : Nat) (scope : ScopeName)
    (result : Except Error Resolution) : Prop :=
  calls.calls[call]? = some ⟨scope, some (.done result)⟩

/-- Loads alone have changed the library since the first one, and something holds of all calls that
were not dropped. -/
structure All (loader : Loader) (first : Library) (Kept : ScopeName → Library → Progress → Prop)
    (calls : Calls) : Prop where
  steps : Library.Steps loader first calls.library
  kept : ∀ call ∈ calls.calls, ∀ progress, call.progress = some progress →
    Kept call.scope calls.library progress

/-! ## One event -/

section

variable {loader : Loader} {first : Library} {Kept : ScopeName → Library → Progress → Prop}

/-- A call may go on or be dropped. -/
private theorem All.setCall {calls : Calls} (hall : calls.All loader first Kept) {number : Nat}
    {call : Call}
    (h : ∀ progress, call.progress = some progress → Kept call.scope calls.library progress) :
    All loader first Kept { calls with calls := calls.calls.set number call } := by
  refine ⟨hall.steps, fun other hother => ?_⟩
  -- The other calls are where they were.
  rcases List.mem_or_eq_of_mem_set hother with hold | hnew
  · exact hall.kept other hold
  · exact hnew ▸ h

/-- A call that the executor made has gone on only if the executor had results. -/
private theorem result_of_mem_ofResults {scopes : List ScopeName}
    {found : Option (List (Except Error Resolution))} {call : Call} {progress : Progress}
    (h : call ∈ ofResults scopes found) (hprogress : call.progress = some progress) :
    ∃ results result, found = some results ∧ (call.scope, result) ∈ scopes.zip results ∧
      progress = .done result := by
  cases found with
  | none =>
    -- Without results all calls of the executor are dropped.
    obtain ⟨scope, -, rfl⟩ := List.mem_map.1 h
    cases hprogress
  | some results =>
    obtain ⟨⟨scope, result⟩, hmem, rfl⟩ := List.mem_map.1 h
    cases hprogress
    exact ⟨results, result, rfl, hmem, rfl⟩

variable (hkeeps : ∀ scope, Keeps loader (Kept scope))

include hkeeps

/-- Loads alone keep what holds of the calls. -/
private theorem All.loads {calls : Calls} (hall : calls.All loader first Kept) {library : Library}
    (h : Library.Steps loader calls.library library) :
    All loader first Kept { calls with library := library } :=
  ⟨hall.steps.trans h, fun call hcall progress hprogress =>
    (hkeeps call.scope).loads h (hall.kept call hcall progress hprogress)⟩

variable (hstart : ∀ scope library, Library.Steps loader first library →
  Kept scope library (.waiting (.start scope)))

include hstart

/-- Every event keeps what holds of the calls. -/
theorem All.step {calls : Calls} (hall : calls.All loader first Kept) (event : Event) :
    All loader first Kept (calls.step loader event) := by
  cases event with
  | resolve scope =>
    refine ⟨hall.steps, fun call hcall => ?_⟩
    -- A new call waits for its initial scope.
    rcases List.mem_append.1 hcall with hold | hnew
    · exact hall.kept call hold
    · rw [List.mem_singleton] at hnew
      subst hnew
      intro progress hprogress
      cases hprogress
      exact hstart scope calls.library hall.steps
  | look call scope =>
    simp only [Calls.step]
    split
    · split
      · exact hall.loads hkeeps (calls.library.steps_await loader scope)
      · exact hall
    · exact hall
  | advance call =>
    simp only [Calls.step]
    split
    · rename_i scope run hcall
      split
      · rename_i outcomes houtcomes
        -- The call that goes on has come through a layer.
        have hwaiting := hall.kept _ (List.mem_of_getElem? hcall) _ rfl
        refine hall.setCall fun progress hprogress => ?_
        cases hprogress
        exact (hkeeps scope).layer calls.library run outcomes hwaiting houtcomes
      · exact hall
    · exact hall
  | drop call =>
    simp only [Calls.step]
    split
    · -- Nothing is said of a call that was dropped.
      exact hall.setCall fun _ h => nomatch h
    · exact hall
  | start scope => exact hall.loads hkeeps (calls.library.steps_start loader scope)
  | wait scope => exact hall.loads hkeeps (calls.library.steps_wait loader scope)
  | finish scope => exact hall.loads hkeeps (calls.library.steps_finish loader scope)
  | together limit scopes =>
    -- The executor keeps what holds of its own calls, and its loads keep what holds of the others.
    have hsteps := Library.steps_runAll loader limit limit calls.library
      (scopes.map fun scope => .waiting (.start scope))
    have hlater := hall.loads hkeeps hsteps
    refine ⟨hlater.steps, fun call hcall progress hprogress => ?_⟩
    rcases List.mem_append.1 hcall with hold | hnew
    · exact hlater.kept call hold progress hprogress
    · obtain ⟨results, result, hresults, hmem, hdone⟩ := result_of_mem_ofResults hnew hprogress
      rw [hdone]
      exact (List.forall₂_iff_zip.1 (Library.forall₂_of_resolveAll hkeeps
        (fun scope _ => hstart scope calls.library hall.steps) limit hresults)).2 hmem

/-! ## Any number of events -/

/-- What loads and layers keep holds of all calls after any events. -/
theorem all_after (events : List Event) : (after loader first events).All loader first Kept := by
  -- The events may begin with any calls of which it holds.
  have hall (calls : Calls) (h : calls.All loader first Kept) :
      (events.foldl (Calls.step loader) calls).All loader first Kept := by
    induction events generalizing calls with
    | nil => exact h
    | cons event events ih => exact ih _ (h.step hkeeps hstart event)
  exact hall _ ⟨.refl, fun _ h => nomatch h⟩

end

/-! ## The same call alone -/

/-- What the resolution of a scope gives on a registry that nothing else uses: with turns enough it
has this result, and it never has another one. -/
def GivesAlone (loader : Loader) (engine : Engine) (scope : ScopeName)
    (result : Except Error Resolution) : Prop :=
  (∃ least, ∀ limit, least ≤ limit →
    ((Registry.empty loader limit engine).resolve scope).1 = some result) ∧
  ∀ limit other, ((Registry.empty loader limit engine).resolve scope).1 = some other →
    other = result

/-- Where a resolution comes by its own turns, it comes alone. -/
theorem givesAlone_of_turns {loader : Loader} (hl : loader.Honest) (engine : Engine)
    {scope : ScopeName} {result : Except Error Resolution}
    (h : Progress.Turns loader (.waiting (.start scope)) (.done result)) :
    GivesAlone loader engine scope result := by
  refine ⟨Library.exists_limit_of_turns_done hl engine h, fun limit other hother => ?_⟩
  -- A resolution has one end, whoever makes it go on.
  have hother' := Library.turns_resolve hl (Library.reflects_empty loader engine) limit hother
  exact Progress.eq_of_turns_done hother' h

/-- Whatever calls there are over one library, one after another or at the same time, and in
whatever order loads end and calls go on or are dropped: a call that returns has the result that it
has alone. -/
theorem results_as_alone {loader : Loader} (hl : loader.Honest) (engine : Engine)
    (events : List Event) (call : Nat) (scope : ScopeName) (result : Except Error Resolution)
    (h : (run loader engine events).Returned call scope result) :
    GivesAlone loader engine scope result := by
  -- Every call begins where its resolution alone begins, and follows the turns of this one.
  have hstart (scope : ScopeName) (library : Library)
      (hsteps : Library.Steps loader (.empty engine) library) :
      Progress.Led loader scope library (.waiting (.start scope)) :=
    ⟨Library.Steps.reflects hl (Library.reflects_empty loader engine) hsteps, .refl⟩
  have hled := (all_after (Progress.keeps_led hl) hstart events).kept _ (List.mem_of_getElem? h) _
    rfl
  exact givesAlone_of_turns hl engine hled.2

/-- A grammar into which another one is injected is resolved, while a call for the other one comes
between and is dropped. -/
theorem results_as_alone_with_dropped_call :
    let a : ScopeName := ⟨"source.a", by decide, by simp, by simp; decide⟩
    let b : ScopeName := ⟨"source.b", by decide, by simp, by simp; decide⟩
    let loader := Loader.ofGrammars [.empty a, .empty b] [(a, [b])]
    let result := Except.ok ⟨some a, 2, [a, b], [a, b], [], []⟩
    loader.Honest ∧
    (run loader .none [.resolve a, .resolve b, .look 0 a, .start a, .look 1 b, .drop 1, .finish a,
      .advance 0, .look 0 b, .start b, .finish b, .advance 0]).Returned 0 a result ∧
    GivesAlone loader .none a result := by
  intro a b loader result
  have hl : loader.Honest := Loader.honest_ofGrammars _ _
  have hreturned : (run loader .none [.resolve a, .resolve b, .look 0 a, .start a, .look 1 b,
      .drop 1, .finish a, .advance 0, .look 0 b, .start b, .finish b, .advance 0]).Returned 0 a
        result := by
    unfold Returned
    cbv
  exact ⟨hl, hreturned, results_as_alone hl .none _ 0 a result hreturned⟩

end Calls

end Textmate
