import Mathlib.Data.List.Induction
import Textmate.Proofs.Resolution.Calls

/-!
# Failed loads

When loads of a layer fail, the resolution waits for the others all the same, and then ends with the
failure of the scope that comes first in the layer. Which load has failed first in time has no part
in it. The layer is the last one: nothing was requested that only its grammars would have led to.
When no load fails, the one thing that is left to go wrong is that the initial scope has no grammar.

## Key results

- `Progress.turn_of_failsFirst`: a layer with failed loads ends with the first one in its order
- `Run.next_eq_error`: a layer without failed loads lacks nothing but the initial grammar
- `Calls.sole_of_begun`: what a call keeps that is the only one
- `Calls.failure_of_layer`: how a resolution on a fresh registry fails
-/

namespace Textmate

/-! ## The first failure of a layer -/

namespace Loader

variable {loader : Loader} {scope : ScopeName}

/-- How the load of a scope fails, if it does. -/
def failure? (loader : Loader) (scope : ScopeName) : Option Error :=
  match loader.answer scope with
  | .failure cause => some (.loader scope cause)
  | _ => none

/-- A load fails with the cause that the loader gives, and its scope. -/
private theorem failure?_eq_some_iff {e : Error} : loader.failure? scope = some e ↔
    ∃ cause, loader.answer scope = .failure cause ∧ e = .loader scope cause := by
  unfold failure?
  cases loader.answer scope <;> simp [eq_comm]

/-- A load does not fail when the loader gives no cause. -/
private theorem failure?_eq_none_iff : loader.failure? scope = none ↔
    ∀ cause, loader.answer scope ≠ .failure cause := by
  unfold failure?
  cases loader.answer scope <;> simp

/-- The scope is the first one of a list whose load fails. -/
def FailsFirst (loader : Loader) (scopes : List ScopeName) (scope : ScopeName) (cause : Error) :
    Prop :=
  loader.answer scope = .failure cause ∧ ∃ before after, scopes = before ++ scope :: after ∧
    ∀ other ∈ before, ∀ reason, loader.answer other ≠ .failure reason

/-- The first failure among the outcomes of scopes. -/
private theorem firstFailure_outcomes (loader : Loader) (scopes : List ScopeName) :
    Progress.firstFailure (scopes.map loader.outcome) = scopes.findSome? loader.failure? := by
  rw [Progress.firstFailure, List.findSome?_map]
  congr 1
  funext scope
  simp only [Function.comp_apply, outcome, failure?]
  cases loader.answer scope <;> rfl

/-- The first scope whose load fails gives the first failure among the outcomes. -/
private theorem FailsFirst.firstFailure_eq {scopes : List ScopeName} {cause : Error}
    (h : loader.FailsFirst scopes scope cause) :
    Progress.firstFailure (scopes.map loader.outcome) = some (.loader scope cause) := by
  obtain ⟨hanswer, before, after, hsplit, hbefore⟩ := h
  rw [firstFailure_outcomes]
  exact List.findSome?_eq_some_iff.2 ⟨before, scope, after, hsplit,
    failure?_eq_some_iff.2 ⟨cause, hanswer, rfl⟩, fun other hother =>
      failure?_eq_none_iff.2 (hbefore other hother)⟩

/-- When a load fails, there is a first one that does. -/
private theorem exists_failsFirst {scopes : List ScopeName}
    (h : ∃ scope ∈ scopes, ∃ cause, loader.answer scope = .failure cause) :
    ∃ scope cause, loader.FailsFirst scopes scope cause := by
  obtain ⟨failed, hmem, reason, hfailed⟩ := h
  have hsome : (scopes.findSome? loader.failure?).isSome :=
    List.findSome?_isSome_iff.2 ⟨failed, hmem, by
      rw [failure?_eq_some_iff.2 ⟨reason, hfailed, rfl⟩]
      rfl⟩
  obtain ⟨e, he⟩ := Option.isSome_iff_exists.1 hsome
  -- The first scope with a failure, and none before it has one.
  obtain ⟨before, scope, after, hsplit, hfailure, hbefore⟩ := List.findSome?_eq_some_iff.1 he
  obtain ⟨cause, hanswer, -⟩ := failure?_eq_some_iff.1 hfailure
  exact ⟨scope, cause, hanswer, before, after, hsplit, fun other hother =>
    failure?_eq_none_iff.1 (hbefore other hother)⟩

end Loader

/-! ## Layers to which a resolution comes -/

/-- The resolution of a scope comes to a layer. -/
def Run.ReachedBy (loader : Loader) (initial : ScopeName) (run : Run) : Prop :=
  Progress.Turns loader (.waiting (.start initial)) (.waiting run)

namespace Run.ReachedBy

variable {loader : Loader} {initial : ScopeName} {run last : Run}

/-- A layer to which a resolution comes has what it builds on. -/
private theorem grounded (h : run.ReachedBy loader initial) : run.Grounded := by
  have hstart : (Progress.waiting (.start initial)).Grounded := Run.grounded_start initial
  exact Progress.Turns.grounded hstart h

/-- The initial scope is the same in every layer. -/
private theorem initial_eq (h : run.ReachedBy loader initial) : run.initial = initial := by
  refine Progress.holds_of_turns (·.initial = initial) rfl ?_ h
  rintro store run after hrun - - hnext
  obtain ⟨base, collector, report, -, -, rfl⟩ := Run.next_eq_ok hnext
  exact hrun

/-- A resolution has one last layer. -/
private theorem eq_of_turn_done (hrun : run.ReachedBy loader initial)
    (hlast : last.ReachedBy loader initial) {first second : Except Error Resolution}
    (hfirst : Progress.Turn loader (.waiting run) (.done first))
    (hsecond : Progress.Turn loader (.waiting last) (.done second)) : run = last := by
  -- A layer with an end has no layers behind it.
  have hend {run last : Run} {result : Except Error Resolution}
      (hturn : Progress.Turn loader (.waiting run) (.done result))
      (hturns : Progress.Turns loader (.waiting run) (.waiting last)) : run = last := by
    rcases Relation.ReflTransGen.cases_head hturns with heq | ⟨next, hnext, hrest⟩
    · cases heq
      rfl
    · rw [Progress.turn_rightUnique loader hnext hturn] at hrest
      cases Progress.eq_of_turns_from_done hrest
  -- Both layers lie on the one path of turns, so one of them comes first.
  rcases Relation.ReflTransGen.total_of_right_unique (Progress.turn_rightUnique loader) hrun hlast
    with h | h
  · exact hend hfirst h
  · exact (hend hsecond h).symm

end Run.ReachedBy

/-- Some store agrees with an honest loader on any list of scopes: that of a library in which their
loads have ended. -/
private theorem Loader.Honest.exists_agrees {loader : Loader} (hl : loader.Honest)
    (scopes : List ScopeName) : ∃ store : Store, ∀ scope ∈ scopes, store.Agrees loader scope := by
  -- The loads are run one after the other, each to its end.
  have hloads : ∃ library, Library.Steps loader (.empty .none) library ∧
      ∀ scope ∈ scopes, ∃ outcome, library.outcome? scope = some outcome := by
    induction scopes with
    | nil => exact ⟨_, .refl, fun _ h => nomatch h⟩
    | cons first rest ih =>
      obtain ⟨library, hsteps, hrest⟩ := ih
      have hkeys : first ∈ Dict.keys (library.request first).cache.loads :=
        (Library.mem_keys_request_iff library first first).2 (Or.inr rfl)
      -- A scope that was loaded before is not loaded again; its outcome is there.
      have hlater := ((library.steps_request loader first).trans
        (Library.steps_start loader _ first)).trans (Library.steps_finish loader _ first)
      refine ⟨_, hsteps.trans hlater, fun scope hscope => ?_⟩
      rcases List.mem_cons.1 hscope with rfl | hmem
      · exact Library.outcome?_finish_start loader hkeys
      · obtain ⟨outcome, houtcome⟩ := hrest scope hmem
        exact ⟨outcome, Library.Steps.outcome_eq hlater houtcome⟩
  obtain ⟨library, hsteps, houtcomes⟩ := hloads
  have hr := Library.Steps.reflects hl (Library.reflects_empty loader .none) hsteps
  refine ⟨library.store, fun scope hscope => ?_⟩
  obtain ⟨outcome, houtcome⟩ := houtcomes scope hscope
  exact hr.agrees scope outcome houtcome

namespace Progress

/-- A failure among the outcomes is the end of the layer. -/
private theorem afterLoads_of_firstFailure {store : Store} {run : Run} {outcomes : List Outcome}
    {e : Error} (h : firstFailure outcomes = some e) :
    afterLoads store run outcomes = .done (.error e) := by
  rw [afterLoads_eq, h]

/-- A layer with failed loads ends with the first one in its order. -/
theorem turn_of_failsFirst {loader : Loader} (hl : loader.Honest) {run : Run} (hg : run.Grounded)
    {scope : ScopeName} {cause : Error} (h : loader.FailsFirst run.scopes scope cause) :
    Turn loader (.waiting run) (.done (.error (.loader scope cause))) := by
  obtain ⟨store, hstore⟩ := hl.exists_agrees run.scopes
  have hturn := Turn.afterLoads store run hg hstore
  rwa [afterLoads_of_firstFailure h.firstFailure_eq] at hturn

end Progress

/-! ## The initial grammar -/

namespace Run

/-- A scan fails only for want of the grammar of the initial scope. -/
private theorem scan_eq_error {store : Store} {initial : ScopeName} {base : Definition}
    {collector : Collector} {report : Resolution} {dependency : Dependency} {e : Error}
    (h : scan store initial base collector report dependency = .error e) :
    e = .missingGrammar initial ∧ dependency.scope = initial ∧ store.lookup initial = none := by
  simp only [scan] at h
  split at h
  · rename_i hnone
    -- A scope without a grammar is an error only if it is the initial one.
    split at h
    · rename_i hinitial
      cases h
      exact ⟨rfl, hinitial, hinitial ▸ hnone⟩
    · cases h
  · cases h

/-- So do the scans of a layer, one of which is then for the initial scope. -/
private theorem scanAll_eq_error {store : Store} {initial : ScopeName} {base : Definition}
    {layer : List Dependency} {found : Collector × Resolution} {e : Error}
    (h : scanAll store initial base layer found = .error e) :
    e = .missingGrammar initial ∧ (∃ dependency ∈ layer, dependency.scope = initial) ∧
      store.lookup initial = none := by
  induction layer generalizing found with
  | nil => cases h
  | cons dependency rest ih =>
    obtain ⟨collector, report⟩ := found
    simp only [scanAll] at h
    split at h
    · rename_i hscan
      cases h
      -- The scan of the first request fails here, and below it is one of the rest.
      obtain ⟨he, hscope, hnone⟩ := scan_eq_error hscan
      exact ⟨he, ⟨dependency, List.mem_cons_self, hscope⟩, hnone⟩
    · obtain ⟨he, ⟨other, hother, hscope⟩, hnone⟩ := ih h
      exact ⟨he, ⟨other, List.mem_cons_of_mem _ hother, hscope⟩, hnone⟩

/-- A layer without failed loads lacks nothing but the grammar of the initial scope, for which it
has waited. -/
theorem next_eq_error {store : Store} {run : Run} (hg : run.Grounded) {e : Error}
    (h : run.next store = .error e) : e = .missingGrammar run.initial ∧
      run.initial ∈ run.scopes ∧ store.lookup run.initial = none := by
  unfold next at h
  split at h
  · rename_i hnone
    cases h
    -- Without a base the layer is the first one, which requests the initial scope.
    obtain ⟨hbase, hlookup⟩ := Option.or_eq_none_iff.1 hnone
    exact ⟨rfl, hg.resolve_left (by rw [hbase]; exact nofun), hlookup⟩
  · split at h
    · rename_i hscan
      cases h
      obtain ⟨he, hinitial, hlookup⟩ := scanAll_eq_error hscan
      exact ⟨he, mem_scopes.2 hinitial, hlookup⟩
    · cases h

end Run

namespace Progress

variable {loader : Loader} {initial : ScopeName}

/-- Without failed loads the last layer fails only when the initial scope has no grammar. -/
private theorem eq_missingGrammar_of_turn {run : Run} (hrun : run.ReachedBy loader initial)
    (hnone : ∀ scope ∈ run.scopes, ∀ cause, loader.answer scope ≠ .failure cause) {e : Error}
    (h : Turn loader (.waiting run) (.done (.error e))) :
    e = .missingGrammar initial ∧ loader.definition? initial = none := by
  -- A turn fixes what comes after it only up to an equation.
  generalize hdone : Progress.done (.error e) = next at h
  cases h with
  | afterLoads store _ hg hs =>
    have hfailure : firstFailure (run.scopes.map loader.outcome) = none := by
      rw [Loader.firstFailure_outcomes, List.findSome?_eq_none_iff]
      exact fun scope hscope => Loader.failure?_eq_none_iff.2 (hnone scope hscope)
    rw [afterLoads_eq, hfailure] at hdone
    dsimp only at hdone
    split at hdone
    · rename_i hnext
      cases hdone
      obtain ⟨he, hinitial, hlookup⟩ := Run.next_eq_error hg hnext
      rw [hrun.initial_eq] at he hinitial hlookup
      exact ⟨he, (hs _ hinitial).lookup_eq.symm.trans hlookup⟩
    · split at hdone <;> cases hdone

/-- Without the grammar of the initial scope the first layer is the last one. -/
private theorem turn_of_missingGrammar (hl : loader.Honest)
    (hanswer : ∀ cause, loader.answer initial ≠ .failure cause)
    (h : loader.definition? initial = none) :
    Turn loader (.waiting (.start initial)) (.done (.error (.missingGrammar initial))) := by
  obtain ⟨store, hstore⟩ := hl.exists_agrees (Run.start initial).scopes
  have hscopes : (Run.start initial).scopes = [initial] := rfl
  have hlookup : store.lookup initial = none := by
    rw [(hstore initial (hscopes ▸ List.mem_singleton_self initial)).lookup_eq, h]
  have hturn := Turn.afterLoads store (Run.start initial) (Run.grounded_start initial) hstore
  have houtcome : loader.outcome initial = .ok () := by
    unfold Loader.outcome
    split
    · rename_i cause hfailure
      exact absurd hfailure (hanswer cause)
    · rfl
  have hnext : (Run.start initial).next store = .error (.missingGrammar initial) := by
    simp only [Run.next, Run.start, Option.none_or, hlookup]
  -- The load itself ends well: having no grammar is no failure.
  have hnone : firstFailure ((Run.start initial).scopes.map loader.outcome) = none := by
    rw [hscopes, List.map_singleton, houtcome]
    rfl
  rwa [afterLoads_eq, hnone, hnext] at hturn

end Progress

/-! ## A resolution on its own -/

/-- The library has loads only for scopes of a layer and of the layers before it. -/
def Run.Asks (loader : Loader) (initial : ScopeName) (run : Run) (library : Library) : Prop :=
  ∀ scope ∈ Dict.keys library.cache.loads, ∃ earlier : Run, earlier.ReachedBy loader initial ∧
    Progress.Turns loader (.waiting earlier) (.waiting run) ∧ scope ∈ earlier.scopes

namespace Progress

/-- How far a resolution has come that nothing else goes on beside. -/
def HasAsked (loader : Loader) (initial : ScopeName) (library : Library) : Progress → Prop
  | waiting run => run.ReachedBy loader initial ∧ run.Asks loader initial library
  | done result => ∃ last : Run, last.ReachedBy loader initial ∧ last.Asks loader initial library ∧
      Turn loader (.waiting last) (.done result) ∧
      ∃ outcomes, library.outcomes? last.scopes = some outcomes

/-- A resolution on its own, in a library that has what the loader answers. -/
structure Sole (loader : Loader) (initial : ScopeName) (library : Library) (progress : Progress) :
    Prop where
  reflects : library.Reflects loader
  coherent : library.Coherent
  asked : progress.HasAsked loader initial library

namespace Sole

variable {loader : Loader} {initial : ScopeName} {library next : Library}

/-- Before its first turn a resolution on a fresh library is on its own. -/
private theorem start (loader : Loader) (engine : Engine) (initial : ScopeName) :
    Sole loader initial (.empty engine) (.waiting (.start initial)) :=
  ⟨Library.reflects_empty loader engine, Library.coherent_empty engine, .refl,
    fun _ h => nomatch h⟩

/-- The resolution may request the scopes of its layer, and its loads may go on. -/
private theorem loads (hl : loader.Honest) {progress : Progress}
    (h : Sole loader initial library progress) (hsteps : Library.Steps loader library next)
    (hkeys : ∀ scope ∈ Dict.keys next.cache.loads, scope ∈ Dict.keys library.cache.loads ∨
      ∃ run, progress = .waiting run ∧ scope ∈ run.scopes) :
    Sole loader initial next progress := by
  refine ⟨Library.Steps.reflects hl h.reflects hsteps, Library.Steps.coherent hsteps h.coherent, ?_⟩
  have hasked := h.asked
  cases progress with
  | waiting run =>
    obtain ⟨hrun, hasks⟩ := hasked
    refine ⟨hrun, fun scope hscope => ?_⟩
    -- A new load is for a scope of the layer, an old one was asked for before.
    rcases hkeys scope hscope with hold | ⟨_, heq, hlayer⟩
    · exact hasks scope hold
    · cases heq
      exact ⟨run, hrun, .refl, hlayer⟩
  | done result =>
    obtain ⟨last, hlast, hasks, hturn, outcomes, houtcomes⟩ := hasked
    refine ⟨last, hlast, fun scope hscope => ?_, hturn, outcomes, ?_⟩
    · rcases hkeys scope hscope with hold | ⟨_, heq, -⟩
      · exact hasks scope hold
      · cases heq
    · exact List.mapM_eq_some_iff.2 ((List.mapM_eq_some_iff.1 houtcomes).imp fun _ _ houtcome =>
        Library.Steps.outcome_eq hsteps houtcome)

/-- Loads that go on are no new ones. -/
private theorem goOn (hl : loader.Honest) {progress : Progress}
    (h : Sole loader initial library progress) (hsteps : Library.Steps loader library next)
    (hkeys : Dict.keys next.cache.loads = Dict.keys library.cache.loads) :
    Sole loader initial next progress :=
  h.loads hl hsteps fun _ hscope => Or.inl (hkeys ▸ hscope)

/-- A resolution on its own stays so when all loads of its layer have ended. -/
private theorem afterLoads {run : Run} (h : Sole loader initial library (.waiting run))
    {outcomes : List Outcome} (houtcomes : library.outcomes? run.scopes = some outcomes) :
    Sole loader initial library (.afterLoads library.store run outcomes) := by
  obtain ⟨hrun, hasks⟩ := h.asked
  have hturn := turn_of_outcomes? h.reflects hrun.grounded houtcomes
  refine ⟨h.reflects, h.coherent, ?_⟩
  -- The scopes that were asked for are those of the layers so far, whether or not another one
  -- follows.
  cases hafter : Progress.afterLoads library.store run outcomes with
  | waiting after =>
    rw [hafter] at hturn
    refine ⟨hrun.tail hturn, fun scope hscope => ?_⟩
    obtain ⟨earlier, hearlier, hturns, hmem⟩ := hasks scope hscope
    exact ⟨earlier, hearlier, hturns.tail hturn, hmem⟩
  | done result =>
    rw [hafter] at hturn
    exact ⟨run, hrun, hasks, hturn, outcomes, houtcomes⟩

/-- The executor leaves a resolution on a fresh library on its own. -/
private theorem of_resolve (hl : loader.Honest) {engine : Engine} {limit : Nat}
    {result : Except Error Resolution}
    (h : (Library.resolve loader limit (.empty engine) initial).1 = some result) :
    Sole loader initial (Library.resolve loader limit (.empty engine) initial).2
      (.done result) := by
  -- Waiting, turns and layers leave it on its own.
  refine Library.kept_of_resolve_alone ?_ ?_ ?_ (start loader engine initial) limit h
  · intro library run hsole
    refine hsole.loads hl (library.steps_awaitAll loader run.scopes) fun scope hscope => ?_
    rcases Library.mem_keys_awaitAll_iff.1 hscope with hlayer | hold
    · exact Or.inr ⟨run, rfl, hlayer⟩
    · exact Or.inl hold
  · exact fun library progress hsole =>
      hsole.goOn hl (library.steps_turn loader) (library.keys_turn loader)
  · exact fun library run outcomes hsole houtcomes => hsole.afterLoads houtcomes

end Sole

end Progress

namespace Calls

/-! ## The only call -/

/-- The scopes for which calls begin with an event. -/
def Event.begun : Event → List ScopeName
  | .resolve scope => [scope]
  | .together _ scopes => scopes
  | _ => []

variable {loader : Loader} {engine : Engine} {initial : ScopeName}

/-- The calls are one call, for the scope, and nothing goes on beside it. -/
def Sole (loader : Loader) (initial : ScopeName) (calls : Calls) : Prop :=
  ∃ progress, calls.calls = [⟨initial, progress⟩] ∧
    ∀ now, progress = some now → now.Sole loader initial calls.library

/-- The only call stays the only one when loads go on. -/
private theorem Sole.goOn (hl : loader.Honest) {calls : Calls} (h : calls.Sole loader initial)
    {library : Library} (hsteps : Library.Steps loader calls.library library)
    (hkeys : Dict.keys library.cache.loads = Dict.keys calls.library.cache.loads) :
    Sole loader initial { calls with library := library } := by
  obtain ⟨progress, hcalls, hsole⟩ := h
  exact ⟨progress, hcalls, fun now hnow => (hsole now hnow).goOn hl hsteps hkeys⟩

/-- The only call is the first one. -/
private theorem Sole.eq_zero {calls : Calls} (h : calls.Sole loader initial) {call : Nat}
    {scope : ScopeName} {now : Progress} (hcall : calls.calls[call]? = some ⟨scope, some now⟩) :
    call = 0 ∧ scope = initial ∧ calls.calls = [⟨initial, some now⟩] ∧
      now.Sole loader initial calls.library := by
  obtain ⟨progress, hcalls, hsole⟩ := h
  rw [hcalls] at hcall ⊢
  -- There is one entry in the list of calls.
  cases call with
  | zero =>
    cases hcall
    exact ⟨rfl, rfl, rfl, hsole now rfl⟩
  | succ call => cases hcall

/-- Resolving no scopes changes nothing. -/
private theorem step_together_nil (calls : Calls) (limit : Nat) :
    calls.step loader (.together limit []) = calls := by
  have hall : calls.library.resolveAll loader limit [] = (some [], calls.library) :=
    Library.runAll_of_results rfl
  simp only [step, hall, ofResults, List.zip_nil_right, List.map_nil, List.append_nil]

/-- An event with which no other call begins leaves the call the only one. -/
private theorem Sole.step (hl : loader.Honest) {calls : Calls} (h : calls.Sole loader initial)
    {event : Event} (hbegun : event.begun = []) :
    (calls.step loader event).Sole loader initial := by
  cases event with
  | resolve scope => cases hbegun
  | look call scope =>
    simp only [Calls.step]
    split
    · rename_i run hcall
      split
      · rename_i hlayer
        -- The call that looks is the only one, and it looks at a scope of its layer.
        obtain ⟨-, -, hcalls, hsole⟩ := h.eq_zero hcall
        refine ⟨_, hcalls, fun now hnow => ?_⟩
        cases hnow
        refine hsole.loads hl (calls.library.steps_await loader scope) fun other hother => ?_
        rcases (Library.mem_keys_await_iff _ _ _).1 hother with hold | rfl
        · exact Or.inl hold
        · exact Or.inr ⟨run, rfl, hlayer⟩
      · exact h
    · exact h
  | advance call =>
    simp only [Calls.step]
    split
    · rename_i scope run hcall
      split
      · rename_i outcomes houtcomes
        -- It goes on only when all loads of its layer have ended.
        obtain ⟨rfl, rfl, hcalls, hsole⟩ := h.eq_zero hcall
        refine ⟨_, by rw [hcalls]; rfl, fun now hnow => ?_⟩
        cases hnow
        exact hsole.afterLoads houtcomes
      · exact h
    · exact h
  | drop call =>
    simp only [Calls.step]
    split
    · rename_i scope run hcall
      obtain ⟨rfl, rfl, hcalls, -⟩ := h.eq_zero hcall
      refine ⟨none, by rw [hcalls]; rfl, fun now hnow => ?_⟩
      cases hnow
    · exact h
  | start scope =>
    -- A load goes on, and no load is added.
    exact h.goOn hl (calls.library.steps_start loader scope) (Library.keys_start _ _ _)
  | wait scope => exact h.goOn hl (calls.library.steps_wait loader scope) (Library.keys_wait _ _)
  | finish scope =>
    exact h.goOn hl (calls.library.steps_finish loader scope) (Library.keys_finish _ _ _)
  | together limit scopes =>
    obtain rfl : scopes = [] := hbegun
    rwa [step_together_nil]

/-- The first call on a fresh library is on its own. -/
private theorem sole_of_begun_singleton (hl : loader.Honest) {event : Event}
    (hbegun : event.begun = [initial]) :
    (Calls.step loader ⟨.empty engine, []⟩ event).Sole loader initial := by
  cases event with
  | resolve scope =>
    cases hbegun
    refine ⟨_, rfl, fun now hnow => ?_⟩
    cases hnow
    exact Progress.Sole.start loader engine initial
  | together limit scopes =>
    obtain rfl : scopes = [initial] := hbegun
    cases hresults : (Library.resolveAll loader limit (.empty engine) [initial]).1 with
    | none =>
      refine ⟨none, ?_, fun now hnow => ?_⟩
      · simp only [step, hresults, ofResults]
        rfl
      · cases hnow
    | some results =>
      -- There is one result, which is that of the executor for the scope alone.
      have hone := Library.forall₂_of_resolveAll (Progress.keeps_led hl)
        (fun _ _ => ⟨Library.reflects_empty loader engine, .refl⟩) limit hresults
      cases hone with
      | cons _ hrest =>
        cases hrest
        rename_i result _
        have hresult : (Library.resolve loader limit (.empty engine) initial).1 = some result :=
          Option.bind_eq_some_iff.2 ⟨_, hresults, rfl⟩
        refine ⟨some (.done result), ?_, fun now hnow => ?_⟩
        · simp only [step, hresults, ofResults]
          rfl
        · cases hnow
          exact Progress.Sole.of_resolve hl hresult
  -- No other event begins a call.
  | look call scope => cases hbegun
  | advance call => cases hbegun
  | drop call => cases hbegun
  | start scope => cases hbegun
  | wait scope => cases hbegun
  | finish scope => cases hbegun

/-- Before the first call nothing happens. -/
private theorem step_of_begun_eq_nil {event : Event} (hbegun : event.begun = []) :
    Calls.step loader ⟨.empty engine, []⟩ event = ⟨.empty engine, []⟩ := by
  cases event with
  | resolve scope => cases hbegun
  | together limit scopes =>
    obtain rfl : scopes = [] := hbegun
    -- The executor does nothing without resolutions.
    rw [step_together_nil]
  | look call scope => rfl
  | advance call => rfl
  | drop call => rfl
  | start scope => rfl
  | wait scope => rfl
  | finish scope => rfl

/-- The last event of a run follows all others. -/
private theorem run_append_singleton (loader : Loader) (engine : Engine) (events : List Event)
    (event : Event) :
    run loader engine (events ++ [event]) = (run loader engine events).step loader event := by
  rw [run, List.foldl_append]
  rfl

/-- Of events with which one call begins, all that comes from them is on its own. -/
theorem sole_of_begun (hl : loader.Honest) {events : List Event}
    (h : events.flatMap Event.begun = [initial]) :
    (run loader engine events).Sole loader initial := by
  have hnone (events : List Event) (h : events.flatMap Event.begun = []) :
      run loader engine events = ⟨.empty engine, []⟩ := by
    induction events with
    | nil => rfl
    | cons event rest ih =>
      rw [List.flatMap_cons, List.append_eq_nil_iff] at h
      rw [run, List.foldl_cons, step_of_begun_eq_nil h.1]
      exact ih h.2
  -- The call begins with the last event, or it has begun before.
  induction events using List.reverseRecOn with
  | nil => cases h
  | append_singleton init last ih =>
    rw [List.flatMap_append, List.flatMap_cons, List.flatMap_nil, List.append_nil,
      List.append_eq_singleton_iff] at h
    rw [run_append_singleton]
    rcases h with ⟨hinit, hbegun⟩ | ⟨hinit, hbegun⟩
    · rw [hnone init hinit]
      exact sole_of_begun_singleton hl hbegun
    · exact (ih hinit).step hl hbegun

end Calls

/-! ## How a resolution fails -/

/-- A layer whose loads have ended is the last one for which a library has loads. -/
structure Run.Leaves (loader : Loader) (initial : ScopeName) (run : Run) (library : Library) :
    Prop where
  /-- The loads of the layer have ended. -/
  outcome?_eq : ∀ scope ∈ run.scopes, library.outcome? scope = some (loader.outcome scope)
  /-- Their grammars are registered. -/
  lookup_eq : ∀ scope ∈ run.scopes, library.store.lookup scope = loader.definition? scope
  /-- The loader was asked only for scopes of the layer and of the layers before it. -/
  asked : ∀ scope ∈ library.cache.fetched, ∃ earlier : Run, earlier.ReachedBy loader initial ∧
    Progress.Turns loader (.waiting earlier) (.waiting run) ∧ scope ∈ earlier.scopes

namespace Progress

variable {loader : Loader} {initial : ScopeName} {library : Library}
  {result : Except Error Resolution}

/-- A resolution that comes to a layer with failed loads ends there. -/
private theorem Sole.leaves_of_failsFirst (hl : loader.Honest) {run : Run}
    (hrun : run.ReachedBy loader initial) {scope : ScopeName} {cause : Error}
    (hfirst : loader.FailsFirst run.scopes scope cause)
    (h : Sole loader initial library (.done result)) :
    result = .error (.loader scope cause) ∧ run.Leaves loader initial library := by
  -- The layer with the failed loads is the last one, as no other ends.
  obtain ⟨last, hlast, hasks, hturn, outcomes, houtcomes⟩ := h.asked
  have hfails := turn_of_failsFirst hl hrun.grounded hfirst
  obtain rfl := hrun.eq_of_turn_done hlast hfails hturn
  have hended (other : ScopeName) (hother : other ∈ run.scopes) :
      ∃ outcome, library.outcome? other = some outcome := by
    obtain ⟨outcome, -, houtcome⟩ := (List.mapM_eq_some_iff.1 houtcomes).exists_of_mem hother
    exact ⟨outcome, houtcome⟩
  refine ⟨?_, ⟨fun other hother => ?_, fun other hother => ?_, fun other hother => ?_⟩⟩
  · cases turn_rightUnique loader hturn hfails
    rfl
  · obtain ⟨outcome, houtcome⟩ := hended other hother
    rw [houtcome, h.reflects.outcome_eq other outcome houtcome]
  · obtain ⟨outcome, houtcome⟩ := hended other hother
    exact (h.reflects.agrees other outcome houtcome).lookup_eq
  · -- The loader is asked for what is in the cache.
    obtain ⟨phase, hphase, -⟩ := (h.coherent.mem_fetched_iff other).1 hother
    exact hasks other ((Dict.mem_keys_iff_find? _ _).2 ⟨phase, hphase⟩)

/-- A resolution without failed loads fails exactly when the initial scope has no grammar. -/
private theorem Sole.error_iff (hl : loader.Honest)
    (hnone : ∀ run : Run, run.ReachedBy loader initial → ∀ scope ∈ run.scopes, ∀ cause,
      loader.answer scope ≠ .failure cause)
    (h : Sole loader initial library (.done result)) :
    (∀ e, result = .error e → e = .missingGrammar initial) ∧
      ((∃ e, result = .error e) ↔ loader.definition? initial = none) := by
  obtain ⟨last, hlast, -, hturn, -⟩ := h.asked
  -- The last layer has no failed load, so only a missing grammar can end it with an error.
  have hmissing (e : Error) (he : result = .error e) :
      e = .missingGrammar initial ∧ loader.definition? initial = none :=
    eq_missingGrammar_of_turn hlast (hnone last hlast) (he ▸ hturn)
  refine ⟨fun e he => (hmissing e he).1, fun ⟨e, he⟩ => (hmissing e he).2, fun hdefinition => ?_⟩
  have hfirst := turn_of_missingGrammar hl
    (hnone (.start initial) .refl initial (List.mem_singleton_self initial)) hdefinition
  exact ⟨_, eq_of_turns_done (hlast.tail hturn) (.single hfirst)⟩

end Progress

namespace Calls

/-- On a fresh registry, with an honest loader, whatever the order in which loads go on and end.
When loads of a layer fail, the resolution ends with the failure that comes first in the order of
the layer, when all loads of the layer have ended, and before anything else is requested. When no
load fails, it fails for want of the initial grammar alone. -/
theorem failure_of_layer {loader : Loader} (hl : loader.Honest) (engine : Engine)
    (initial : ScopeName) :
    (∀ layer : Run, layer.ReachedBy loader initial →
      (∃ scope ∈ layer.scopes, ∃ cause, loader.answer scope = .failure cause) →
      ∃ scope cause, loader.FailsFirst layer.scopes scope cause ∧
        GivesAlone loader engine initial (.error (.loader scope cause)) ∧
        ∀ events, events.flatMap Event.begun = [initial] → ∀ call,
          ((run loader engine events).calls[call]? = some ⟨initial, some (.waiting layer)⟩ →
            ((run loader engine events).library.outcomes? layer.scopes).isSome →
            (run loader engine (events ++ [.advance call])).Returned call initial
              (.error (.loader scope cause))) ∧
          ∀ result, (run loader engine events).Returned call initial result →
            result = .error (.loader scope cause) ∧
              layer.Leaves loader initial (run loader engine events).library) ∧
    ((∀ layer : Run, layer.ReachedBy loader initial → ∀ scope ∈ layer.scopes, ∀ cause,
        loader.answer scope ≠ .failure cause) →
      (loader.definition? initial = none →
        GivesAlone loader engine initial (.error (.missingGrammar initial))) ∧
      ∀ events, events.flatMap Event.begun = [initial] → ∀ call result,
        (run loader engine events).Returned call initial result →
          (∀ e, result = .error e → e = .missingGrammar initial) ∧
            ((∃ e, result = .error e) ↔ loader.definition? initial = none)) := by
  constructor
  · intro layer hlayer hfails
    obtain ⟨scope, cause, hfirst⟩ := Loader.exists_failsFirst hfails
    have hturn := Progress.turn_of_failsFirst hl hlayer.grounded hfirst
    refine ⟨scope, cause, hfirst, givesAlone_of_turns hl engine (hlayer.tail hturn),
      fun events hbegun call => ⟨fun hcall hended => ?_, fun result hreturned => ?_⟩⟩
    · obtain ⟨outcomes, houtcomes⟩ := Option.isSome_iff_exists.1 hended
      -- The outcomes that the library has are the answers of the loader.
      obtain ⟨rfl, -, hcalls, hsole⟩ := (sole_of_begun hl hbegun).eq_zero hcall
      have heq := hsole.reflects.outcomes?_eq houtcomes
      have hend : Progress.afterLoads (run loader engine events).library.store layer outcomes =
          .done (.error (.loader scope cause)) := by
        rw [heq]
        exact Progress.afterLoads_of_firstFailure hfirst.firstFailure_eq
      rw [Returned, run_append_singleton]
      simp only [step, hcall, houtcomes, hend]
      rw [hcalls]
      rfl
    · -- What the loader was asked for is what the layers up to this one request.
      obtain ⟨-, -, -, hsole⟩ := (sole_of_begun hl hbegun).eq_zero hreturned
      exact hsole.leaves_of_failsFirst hl hlayer hfirst
  · -- Without a failed load only the look for the initial grammar can fail.
    intro hnone
    refine ⟨fun hdefinition => ?_, fun events hbegun call result hreturned => ?_⟩
    · have hturn := Progress.turn_of_missingGrammar hl
        (hnone (.start initial) .refl initial (List.mem_singleton_self initial)) hdefinition
      exact givesAlone_of_turns hl engine (.single hturn)
    · obtain ⟨-, -, -, hsole⟩ := (sole_of_begun hl hbegun).eq_zero hreturned
      exact hsole.error_iff hl hnone

/-! ## Two failures in one layer -/

namespace Failing

def root : ScopeName := ⟨"text.root", by decide, by simp, by simp; decide⟩

def slow : ScopeName := ⟨"source.slow", by decide, by simp, by simp; decide⟩

def quick : ScopeName := ⟨"source.quick", by decide, by simp, by simp; decide⟩

def present : ScopeName := ⟨"source.present", by decide, by simp, by simp; decide⟩

def grammar : Grammar :=
  (((Grammar.empty root).addPattern (.including "source.slow")).addPattern
    (.including "source.quick")).addPattern (.including "source.present")

/-- The loads of two included scopes fail, the slower one is included first; the third included
grammar is there, and would lead to another scope. -/
def loader : Loader where
  answer scope :=
    if scope = root then .grammar grammar
    else if scope = slow then .failure (.backend "no answer")
    else if scope = quick then .failure .aborted
    else if scope = present then
      .grammar ((Grammar.empty present).addPattern (.including "source.later"))
    else .nothing
  injections _ := []
  delay scope := if scope = slow then 2 else 0

/-- The loader answers with grammars of the scopes it was asked for. -/
private theorem loader_honest : loader.Honest := by
  intro scope found h
  simp only [loader] at h
  split_ifs at h with ha hb hc hd
  · cases h
    exact ha.symm
  · cases h
    exact hd.symm

/-- The layer of the three included scopes. -/
def layer : Run where
  initial := root
  base := some ⟨0, grammar⟩
  layer := [.whole slow, .whole quick, .whole present]
  requested := ⟨[root, slow, quick, present], []⟩
  report := ⟨some root, 1, [root], [root], [], []⟩

/-- The load of the initial scope has ended. -/
private def loaded : Library :=
  (((Library.empty .none).request root).start loader root).finish loader root

/-- After the load of the root, the resolution has come to the three included scopes. -/
private theorem reachedBy_layer : layer.ReachedBy loader root := by
  have hsteps : Library.Steps loader (.empty .none) loaded :=
    ((Library.steps_request loader _ root).trans (Library.steps_start loader _ root)).trans
      (Library.steps_finish loader _ root)
  have hr := Library.Steps.reflects loader_honest (Library.reflects_empty loader .none) hsteps
  have houtcomes : loaded.outcomes? (Run.start root).scopes = some [.ok ()] := by cbv
  have hturn := Progress.turn_of_outcomes? hr (Run.grounded_start root) houtcomes
  have hlayer : Progress.afterLoads loaded.store (.start root) [.ok ()] = .waiting layer := by cbv
  exact .single (hlayer ▸ hturn)

/-- The loads of the layer end in another order than that of the layer. -/
def events : List Event :=
  [.resolve root, .look 0 root, .start root, .finish root, .advance 0, .look 0 slow,
    .look 0 quick, .look 0 present, .start slow, .start quick, .start present, .finish present,
    .finish quick, .wait slow, .wait slow, .finish slow, .advance 0]

end Failing

open Failing in
/-- The slower one of two failures is returned, as its scope stands first in the layer; and a loader
without grammars makes a resolution fail for want of the initial one. -/
theorem failure_of_first_include :
    loader.Honest ∧ layer.ReachedBy loader root ∧
    (run loader .none events).Returned 0 root (.error (.loader slow (.backend "no answer"))) ∧
    GivesAlone loader .none root (.error (.loader slow (.backend "no answer"))) ∧
    layer.Leaves loader root (run loader .none events).library ∧
    GivesAlone .empty .none root (.error (.missingGrammar root)) := by
  have hreturned : (run loader .none events).Returned 0 root
      (.error (.loader slow (.backend "no answer"))) := by
    unfold Returned
    cbv
  obtain ⟨scope, cause, hfirst, halone, hevents⟩ :=
    (failure_of_layer loader_honest .none root).1 layer reachedBy_layer ⟨slow, by decide, _, rfl⟩
  obtain ⟨hresult, hleaves⟩ := (hevents events rfl 0).2 _ hreturned
  rw [← hresult] at halone
  -- The empty loader answers nothing for any scope, which is neither wrong nor a failure.
  have hnothing (scope : ScopeName) : Loader.empty.answer scope = .nothing := rfl
  have hempty : Loader.empty.Honest := by
    intro scope found hanswer
    cases (hnothing scope).symm.trans hanswer
  have hnone : ∀ layer : Run, layer.ReachedBy .empty root → ∀ scope ∈ layer.scopes, ∀ cause,
      Loader.empty.answer scope ≠ .failure cause := by
    intro _ _ scope _ cause hanswer
    cases (hnothing scope).symm.trans hanswer
  have hmissing := ((failure_of_layer hempty .none root).2 hnone).1 rfl
  exact ⟨loader_honest, reachedBy_layer, hreturned, halone, hleaves, hmissing⟩

end Calls

end Textmate
