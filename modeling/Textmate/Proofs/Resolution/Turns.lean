import Mathlib.Logic.Relation
import Textmate.Proofs.Cache.Answers
import Textmate.Resolution

/-!
# A resolution as turns

A `Turn` takes a resolution from one layer to the next, or to its end, with any store that agrees
with the loader on the scopes of the layer. The store has no other part in it, so a turn is
determined by the resolution alone, and a resolution has one end.

## Key results

- `turn_rightUnique`: the layer decides what the turn leads to
- `eq_of_turns_done`: a resolution has one end
- `exists_of_turns_ok`: what every layer hands on to the next one holds at the end
-/

namespace Textmate

namespace Run

/-- The base is known, or it is among the scopes that the layer waits for. -/
def Grounded (run : Run) : Prop :=
  run.base.isSome ∨ run.initial ∈ run.scopes

/-- The first layer waits for the base. -/
theorem grounded_start (scope : ScopeName) : (start scope).Grounded :=
  Or.inr (mem_scopes.2 ⟨.whole scope, List.mem_singleton_self _, rfl⟩)

/-! ## What a layer takes from the store -/

/-- A scan takes from the store what it has for the scope of the dependency. -/
private theorem scan_congr {a b : Store} (initial : ScopeName) (base : Definition)
    (collector : Collector) (report : Resolution) {dependency : Dependency}
    (hlookup : a.lookup dependency.scope = b.lookup dependency.scope)
    (hinjections : a.injectionsInto dependency.scope = b.injectionsInto dependency.scope) :
    scan a initial base collector report dependency =
      scan b initial base collector report dependency := by
  simp only [scan, hlookup, hinjections]

/-- The scans of a layer take what the store has for its scopes. -/
private theorem scanAll_congr {a b : Store} (initial : ScopeName) (base : Definition)
    {layer : List Dependency} (found : Collector × Resolution)
    (h : ∀ dependency ∈ layer, a.lookup dependency.scope = b.lookup dependency.scope ∧
      a.injectionsInto dependency.scope = b.injectionsInto dependency.scope) :
    scanAll a initial base layer found = scanAll b initial base layer found := by
  induction layer generalizing found with
  | nil => rfl
  | cons dependency rest ih =>
    -- A scan looks its scope up, and the scopes that are injected into it.
    obtain ⟨collector, report⟩ := found
    obtain ⟨hlookup, hinjections⟩ := h dependency List.mem_cons_self
    simp only [scanAll, scan_congr initial base collector report hlookup hinjections]
    split
    · rfl
    · exact ih _ fun other hother => h other (List.mem_cons_of_mem _ hother)

/-- Two stores that agree with the loader on the scopes of a layer lead to the same next layer. -/
private theorem next_congr {loader : Loader} {a b : Store} {run : Run} (hg : run.Grounded)
    (ha : ∀ scope ∈ run.scopes, a.Agrees loader scope)
    (hb : ∀ scope ∈ run.scopes, b.Agrees loader scope) : run.next a = run.next b := by
  -- The base and the scans are all that a layer takes from a store.
  have hbase : run.base.or (a.lookup run.initial) = run.base.or (b.lookup run.initial) := by
    -- A base that is known stays the base.
    cases hsome : run.base with
    | some base => rfl
    | none =>
      -- Only the first layer looks for the base, and it waits for the initial scope.
      have hinitial : run.initial ∈ run.scopes := hg.resolve_left (by rw [hsome]; exact nofun)
      rw [Option.none_or, Option.none_or, (ha _ hinitial).lookup_eq, (hb _ hinitial).lookup_eq]
  have hlayer : ∀ dependency ∈ run.layer,
      a.lookup dependency.scope = b.lookup dependency.scope ∧
        a.injectionsInto dependency.scope = b.injectionsInto dependency.scope := by
    intro dependency hdependency
    have hscope : dependency.scope ∈ run.scopes := mem_scopes.2 ⟨dependency, hdependency, rfl⟩
    have ha' := ha _ hscope
    have hb' := hb _ hscope
    exact ⟨ha'.lookup_eq.trans hb'.lookup_eq.symm,
      ha'.injectionsInto_eq.trans hb'.injectionsInto_eq.symm⟩
  unfold next
  rw [hbase]
  split
  · rfl
  · rw [scanAll_congr run.initial _ _ hlayer]

/-- How a layer hands on to the next one. -/
theorem next_eq_ok {store : Store} {run after : Run} (h : run.next store = .ok after) :
    ∃ base collector report,
      run.base.or (store.lookup run.initial) = some base ∧
      scanAll store run.initial base run.layer
        (.empty, { run.report with layers := run.report.layers + 1 }) = .ok (collector, report) ∧
      after = ⟨run.initial, some base, (run.requested.select collector.dependencies).1,
        (run.requested.select collector.dependencies).2, report⟩ := by
  -- A layer fails without the initial grammar or in one of its scans.
  unfold next at h
  split at h
  · cases h
  · rename_i base hbase
    split at h
    · cases h
    · rename_i collector report hscan
      cases h
      exact ⟨base, collector, report, hbase, hscan, rfl⟩

/-- Behind the first layer the base is known. -/
private theorem grounded_of_next {store : Store} {run after : Run}
    (h : run.next store = .ok after) :
    after.Grounded := by
  obtain ⟨base, collector, report, -, -, rfl⟩ := next_eq_ok h
  exact Or.inl rfl

end Run

/-! ## Behind the loads of a layer -/

namespace Progress

/-- The first failure among outcomes. -/
def firstFailure (outcomes : List Outcome) : Option Error :=
  outcomes.findSome? fun outcome => match outcome with
    | .ok _ => none
    | .error e => some e

/-- Failures come first, and then what the layer leads to. -/
theorem afterLoads_eq (store : Store) (run : Run) (outcomes : List Outcome) :
    afterLoads store run outcomes = match firstFailure outcomes with
      | some e => .done (.error e)
      | none => match run.next store with
        | .error e => .done (.error e)
        | .ok after => if after.layer.isEmpty then .done (.ok after.report) else .waiting after :=
  rfl

/-- What can follow the loads of a layer. -/
theorem afterLoads_cases (store : Store) (run : Run) (outcomes : List Outcome) :
    (∃ e, afterLoads store run outcomes = .done (.error e)) ∨
    firstFailure outcomes = none ∧ ∃ after, run.next store = .ok after ∧
      (after.layer = [] ∧ afterLoads store run outcomes = .done (.ok after.report) ∨
        after.layer ≠ [] ∧ afterLoads store run outcomes = .waiting after) := by
  -- A failed load, a failed scan, an empty next layer, or a next layer.
  unfold afterLoads
  split
  · rename_i e _
    exact Or.inl ⟨e, rfl⟩
  · rename_i hnone
    split
    · rename_i e _
      exact Or.inl ⟨e, rfl⟩
    · rename_i after hafter
      refine Or.inr ⟨hnone, after, hafter, ?_⟩
      split
      · rename_i hempty
        exact Or.inl ⟨List.isEmpty_iff.1 hempty, rfl⟩
      · rename_i hempty
        exact Or.inr ⟨fun h => hempty (List.isEmpty_iff.2 h), rfl⟩

/-- A resolution waits for a next layer that is not empty. -/
theorem afterLoads_eq_waiting {store : Store} {run after : Run} {outcomes : List Outcome}
    (h : afterLoads store run outcomes = .waiting after) :
    firstFailure outcomes = none ∧ run.next store = .ok after ∧ after.layer ≠ [] := by
  -- It fails, it ends, or it goes on with the next layer.
  rcases afterLoads_cases store run outcomes with
    ⟨e, he⟩ | ⟨hnone, found, hnext, ⟨-, hdone⟩ | ⟨hlayer, hwaiting⟩⟩
  · rw [he] at h
    cases h
  · rw [hdone] at h
    cases h
  · rw [hwaiting] at h
    cases h
    exact ⟨hnone, hnext, hlayer⟩

/-- A resolution ends with the report of an empty next layer. -/
theorem afterLoads_eq_ok {store : Store} {run : Run} {outcomes : List Outcome}
    {report : Resolution} (h : afterLoads store run outcomes = .done (.ok report)) :
    firstFailure outcomes = none ∧
      ∃ after, run.next store = .ok after ∧ after.layer = [] ∧ after.report = report := by
  -- Only an empty next layer ends it with a report.
  rcases afterLoads_cases store run outcomes with
    ⟨e, he⟩ | ⟨hnone, after, hnext, ⟨hempty, hdone⟩ | ⟨-, hwaiting⟩⟩
  · rw [he] at h
    cases h
  · rw [hdone] at h
    cases h
    exact ⟨hnone, after, hnext, hempty, rfl⟩
  · rw [hwaiting] at h
    cases h

/-- Something holds of a resolution under way, or of the state in which it has ended. -/
def Holds (P : Run → Prop) : Progress → Prop
  | waiting run => P run
  | done (.ok report) => ∃ run, P run ∧ run.layer = [] ∧ run.report = report
  | done (.error _) => True

/-- What follows from a fact about layers holds where the fact does. -/
theorem Holds.imp {P Q : Run → Prop} {progress : Progress} (h : progress.Holds P)
    (himp : ∀ run, P run → Q run) : progress.Holds Q := by
  match progress, h with
  | waiting run, h => exact himp run h
  | done (.ok _), ⟨run, h, hend⟩ => exact ⟨run, himp run h, hend⟩
  | done (.error _), _ => trivial

/-- What holds of the next layer, if it comes to that, holds behind the loads of a layer. -/
theorem holds_afterLoads {P : Run → Prop} {store : Store} {run : Run} {outcomes : List Outcome}
    (h : ∀ after, firstFailure outcomes = none → run.next store = .ok after → P after) :
    (afterLoads store run outcomes).Holds P := by
  rcases afterLoads_cases store run outcomes with
    ⟨e, he⟩ | ⟨hnone, after, hnext, ⟨hempty, hdone⟩ | ⟨-, hwaiting⟩⟩
  · rw [he]
    -- Nothing is said of a resolution that has failed.
    trivial
  · rw [hdone]
    exact ⟨after, h after hnone hnext, hempty, rfl⟩
  · rw [hwaiting]
    exact h after hnone hnext

/-! ## Turns -/

/-- A resolution goes on when the loads of its layer have ended. -/
inductive Turn (loader : Loader) : Progress → Progress → Prop
  | afterLoads (store : Store) (run : Run) (hg : run.Grounded)
      (hs : ∀ scope ∈ run.scopes, store.Agrees loader scope) :
    Turn loader (.waiting run) (.afterLoads store run (run.scopes.map loader.outcome))

/-- A resolution goes on through any number of layers. -/
abbrev Turns (loader : Loader) : Progress → Progress → Prop :=
  Relation.ReflTransGen (Turn loader)

/-- The layer decides what the turn leads to. -/
theorem turn_rightUnique (loader : Loader) : Relator.RightUnique (Turn loader) := by
  intro progress first second hfirst hsecond
  cases hfirst with
  | afterLoads store run hg hs =>
    -- Both turns are of the same layer, with stores that agree with the loader.
    cases hsecond with
    | afterLoads other _ _ hother =>
      simp only [Progress.afterLoads, Run.next_congr hg hs hother]

/-- After its end a resolution does not go on. -/
theorem eq_of_turns_from_done {loader : Loader} {result : Except Error Resolution}
    {progress : Progress} (h : Turns loader (.done result) progress) : progress = .done result := by
  rcases Relation.ReflTransGen.cases_head h with heq | ⟨next, hturn, -⟩
  · exact heq.symm
  · -- No turn begins at a result.
    cases hturn

/-- A resolution has one end. -/
theorem eq_of_turns_done {loader : Loader} {progress : Progress}
    {first second : Except Error Resolution} (hfirst : Turns loader progress (.done first))
    (hsecond : Turns loader progress (.done second)) : first = second := by
  -- One of the two ends comes after the other one, but nothing comes after an end.
  rcases Relation.ReflTransGen.total_of_right_unique (turn_rightUnique loader) hfirst hsecond with
    h | h
  · have := eq_of_turns_from_done h
    cases this
    rfl
  · have := eq_of_turns_from_done h
    cases this
    rfl

/-- What a resolution waits for includes its base, unless that is known. -/
def Grounded : Progress → Prop
  | waiting run => run.Grounded
  | done _ => True

/-- A turn leads to a layer whose base is known. -/
private theorem Turn.grounded {loader : Loader} {progress next : Progress}
    (h : Turn loader progress next) : next.Grounded := by
  cases h with
  | afterLoads store run _ _ =>
    rcases afterLoads_cases store run (run.scopes.map loader.outcome) with
      ⟨e, he⟩ | ⟨-, after, hafter, ⟨-, hdone⟩ | ⟨-, hwaiting⟩⟩
    · rw [he]
      trivial
    · rw [hdone]
      trivial
    · rw [hwaiting]
      exact Run.grounded_of_next hafter

/-- So do any number of turns. -/
theorem Turns.grounded {loader : Loader} {progress next : Progress} (hg : progress.Grounded)
    (h : Turns loader progress next) : next.Grounded := by
  -- Without a turn nothing has changed, and otherwise the last turn decides.
  rcases Relation.ReflTransGen.cases_tail h with heq | ⟨before, -, hturn⟩
  · exact heq ▸ hg
  · exact hturn.grounded

/-- What the first layer of a resolution has and every layer hands on to the next one, all layers
have. -/
theorem holds_of_turns {loader : Loader} {first : Run} {progress : Progress} (Kept : Run → Prop)
    (hfirst : Kept first)
    (hnext : ∀ (store : Store) (run after : Run), Kept run →
      (∀ scope ∈ run.scopes, store.Agrees loader scope) →
      firstFailure (run.scopes.map loader.outcome) = none → run.next store = .ok after →
      Kept after)
    (h : Turns loader (.waiting first) progress) : progress.Holds Kept := by
  induction h with
  | refl => exact hfirst
  | tail _ hturn ih =>
    -- The only turn there is goes through the loads of one layer.
    cases hturn with
    | afterLoads store run hg hs =>
      exact holds_afterLoads fun after hnone hafter => hnext store run after ih hs hnone hafter

/-- What the first layer of a resolution has and every layer hands on to the next one, the layer
behind the last one has too. -/
theorem exists_of_turns_ok {loader : Loader} {first : Run} {report : Resolution}
    (Kept : Run → Prop) (hfirst : Kept first)
    (hnext : ∀ (store : Store) (run after : Run), Kept run →
      (∀ scope ∈ run.scopes, store.Agrees loader scope) →
      firstFailure (run.scopes.map loader.outcome) = none → run.next store = .ok after →
      Kept after)
    (h : Turns loader (.waiting first) (.done (.ok report))) :
    ∃ last, Kept last ∧ last.layer = [] ∧ last.report = report :=
  holds_of_turns Kept hfirst hnext h

end Progress

end Textmate
