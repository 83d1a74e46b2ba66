import Textmate.Proofs.Resolution.Turns

/-!
# The executor

The executor resumes all resolutions in turn and then lets every load advance. What it does to the
cache are steps of loads, and what it does to a resolution are turns, so whatever it comes back with
is the end of a resolution.

## Key results

- `steps_runAll`: the executor changes a library by steps of loads
- `forall₂_of_resolveAll`: what loads and layers keep of resolutions holds of the results
- `turns_resolveAll`: the results of the executor are the ends of the resolutions
-/

namespace Textmate

namespace Library

/-! ## What the executor does to the loads -/

/-- A resolution that is resumed requests loads and looks at them. -/
theorem steps_resume (loader : Loader) (limit : Nat) (library : Library) (progress : Progress) :
    Steps loader library (progress.resume limit library).1 := by
  induction limit generalizing library progress with
  -- Without a turn left nothing is done.
  | zero => exact .refl
  | succ limit ih =>
    cases progress with
    | done result => exact .refl
    | waiting run =>
      -- Without outcomes the resolution waits; with them it goes on with the next layer.
      have hawaited := library.steps_awaitAll loader run.scopes
      unfold Progress.resume
      dsimp only
      split
      · exact hawaited
      · exact hawaited.trans (ih _ _)

/-- Several resolutions that are resumed do so one after another. -/
theorem steps_resumeAll (loader : Loader) (limit : Nat) (library : Library)
    (runs : List Progress) : Steps loader library (library.resumeAll limit runs).1 := by
  induction runs generalizing library with
  | nil => exact .refl
  | cons progress rest ih => exact (steps_resume loader limit library progress).trans (ih _)

/-! The executor stops when all resolutions have a result or no turn is left. -/

/-- With results for all resolutions the executor stops. -/
theorem runAll_of_results {loader : Loader} {limit turns : Nat} {library : Library}
    {runs : List Progress} {results : List (Except Error Resolution)}
    (h : (library.resumeAll limit runs).2.mapM (·.result?) = some results) :
    runAll loader limit turns library runs =
      (some results, (library.resumeAll limit runs).1) := by
  unfold runAll
  dsimp only
  rw [h]

/-- Without a turn left it stops as well, and has no results. -/
private theorem runAll_zero {loader : Loader} {limit : Nat} {library : Library}
    {runs : List Progress} (h : (library.resumeAll limit runs).2.mapM (·.result?) = none) :
    runAll loader limit 0 library runs = (none, (library.resumeAll limit runs).1) := by
  unfold runAll
  dsimp only
  rw [h]

/-- Otherwise it takes a turn and goes on. -/
theorem runAll_succ {loader : Loader} {limit turns : Nat} {library : Library}
    {runs : List Progress} (h : (library.resumeAll limit runs).2.mapM (·.result?) = none) :
    runAll loader limit (turns + 1) library runs =
      runAll loader limit turns ((library.resumeAll limit runs).1.turn loader)
        (library.resumeAll limit runs).2 := by
  conv_lhs => unfold runAll
  dsimp only
  rw [h]

/-- What resuming and every turn of the cache keep holds when the executor stops, and its results
are those of the resolutions that it stops with. -/
private theorem exists_of_runAll (loader : Loader) (limit : Nat)
    (Kept : Library → List Progress → Prop) (hresume : ∀ library runs, Kept library runs →
      Kept (resumeAll limit library runs).1 (resumeAll limit library runs).2)
    (hturn : ∀ library runs, Kept library runs → Kept (library.turn loader) runs) (turns : Nat)
    (library : Library) (runs : List Progress) (h : Kept library runs) :
    ∃ later, Kept (runAll loader limit turns library runs).2 later ∧
      ∀ results, (runAll loader limit turns library runs).1 = some results →
        later.mapM (·.result?) = some results := by
  -- The executor resumes first, whether or not a turn is left.
  have hresumed := hresume library runs h
  induction turns generalizing library runs with
  | zero =>
    cases hresults : (library.resumeAll limit runs).2.mapM (·.result?) with
    | some found =>
      rw [runAll_of_results hresults]
      exact ⟨_, hresumed, fun _ hfound => Option.some.inj hfound ▸ hresults⟩
    | none =>
      rw [runAll_zero hresults]
      exact ⟨_, hresumed, fun _ hfound => nomatch hfound⟩
  | succ turns ih =>
    cases hresults : (library.resumeAll limit runs).2.mapM (·.result?) with
    | some found =>
      rw [runAll_of_results hresults]
      exact ⟨_, hresumed, fun _ hfound => Option.some.inj hfound ▸ hresults⟩
    | none =>
      rw [runAll_succ hresults]
      -- What was kept up to the turn is kept by it, and by resuming after it.
      have hlater := hturn _ _ hresumed
      exact ih _ _ hlater (hresume _ _ hlater)

/-- What the executor does to a library are steps of loads. -/
theorem steps_runAll (loader : Loader) (limit turns : Nat) (library : Library)
    (runs : List Progress) : Steps loader library (runAll loader limit turns library runs).2 := by
  obtain ⟨-, hsteps, -⟩ := exists_of_runAll loader limit
    (fun later _ => Steps loader library later)
    (fun later runs h => h.trans (steps_resumeAll loader limit later runs))
    (fun later _ h => h.trans (steps_turn loader later)) turns library runs .refl
  exact hsteps

end Library

/-! ## What the executor keeps of resolutions -/

/-- What waiting and every layer keep of a resolution holds of it when it is resumed. -/
theorem Progress.kept_resume {Kept : Library → Progress → Prop}
    (hawait : ∀ library run, Kept library (.waiting run) →
      Kept (run.scopes.foldl Library.await library) (.waiting run))
    (hlayer : ∀ library run outcomes, Kept library (.waiting run) →
      library.outcomes? run.scopes = some outcomes →
      Kept library (afterLoads library.store run outcomes))
    (limit : Nat) {library : Library} {progress : Progress} (h : Kept library progress) :
    Kept (progress.resume limit library).1 (progress.resume limit library).2 := by
  induction limit generalizing library progress with
  | zero => exact h
  | succ limit ih =>
    cases progress with
    | done result => exact h
    | waiting run =>
      -- It asks for the loads of its layer; when all have ended, it goes on from the next layer.
      have hawaited := hawait library run h
      unfold resume
      dsimp only
      split
      · exact hawaited
      · rename_i outcomes houtcomes
        exact ih (hlayer _ run outcomes hawaited houtcomes)

/-- Loads keep something of a resolution, its own and those of others, and so do its layers. -/
structure Keeps (loader : Loader) (Kept : Library → Progress → Prop) : Prop where
  load : ∀ library next progress, Library.Step loader library next → Kept library progress →
    Kept next progress
  layer : ∀ library run outcomes, Kept library (.waiting run) →
    library.outcomes? run.scopes = some outcomes →
    Kept library (.afterLoads library.store run outcomes)

/-- What one step of a load keeps, any number of them keep. -/
theorem Keeps.loads {loader : Loader} {Kept : Library → Progress → Prop}
    (hkeeps : Keeps loader Kept) {library next : Library} {progress : Progress}
    (hsteps : Library.Steps loader library next) (h : Kept library progress) :
    Kept next progress :=
  hsteps.keep (Kept · progress) h fun library next => hkeeps.load library next progress

namespace Library

/-- Only a resolution that is done has a result. -/
private theorem eq_done_of_result? {progress : Progress} {result : Except Error Resolution}
    (h : progress.result? = some result) : progress = .done result := by
  cases progress with
  | waiting run => cases h
  | done other =>
    cases h
    rfl

/-- What waiting, turns and layers keep of a resolution that goes on alone holds of its result. -/
theorem kept_of_resolve_alone {loader : Loader} {Kept : Library → Progress → Prop}
    (hawait : ∀ library run, Kept library (.waiting run) →
      Kept (run.scopes.foldl await library) (.waiting run))
    (hturn : ∀ library progress, Kept library progress → Kept (library.turn loader) progress)
    (hlayer : ∀ library run outcomes, Kept library (.waiting run) →
      library.outcomes? run.scopes = some outcomes →
      Kept library (.afterLoads library.store run outcomes))
    {library : Library} {scope : ScopeName} (hstart : Kept library (.waiting (.start scope)))
    (limit : Nat) {result : Except Error Resolution}
    (h : (library.resolve loader limit scope).1 = some result) :
    Kept (library.resolve loader limit scope).2 (.done result) := by
  -- One scope is resolved as a list of one.
  unfold resolve at h
  obtain ⟨results, hresults, hhead⟩ := Option.bind_eq_some_iff.1 h
  -- The executor has one resolution from the start to the end.
  obtain ⟨later, ⟨progress, rfl, hkept⟩, hlater⟩ := exists_of_runAll loader limit
    (fun library runs => ∃ progress, runs = [progress] ∧ Kept library progress)
    (by
      rintro library runs ⟨progress, rfl, hnow⟩
      exact ⟨_, rfl, Progress.kept_resume hawait hlayer limit hnow⟩)
    (by
      rintro library runs ⟨progress, rfl, hnow⟩
      exact ⟨progress, rfl, hturn library progress hnow⟩)
    limit library _ ⟨_, rfl, hstart⟩
  -- The result is that of the one resolution that is left.
  cases List.mapM_eq_some_iff.1 (hlater results hresults) with
  | cons hdone _ =>
    cases hhead
    exact eq_done_of_result? hdone ▸ hkept

/-- What loads and layers keep of a resolution holds of its result. -/
theorem kept_of_resolve {loader : Loader} {Kept : Library → Progress → Prop}
    (hkeeps : Keeps loader Kept) {library : Library} {scope : ScopeName}
    (hstart : Kept library (.waiting (.start scope))) (limit : Nat)
    {result : Except Error Resolution} (h : (library.resolve loader limit scope).1 = some result) :
    Kept (library.resolve loader limit scope).2 (.done result) :=
  kept_of_resolve_alone (fun library run => hkeeps.loads (steps_awaitAll loader library run.scopes))
    (fun library _ => hkeeps.loads (steps_turn loader library)) hkeeps.layer hstart limit h

section

variable {loader : Loader} {Kept : ScopeName → Library → Progress → Prop}
  (hkeeps : ∀ scope, Keeps loader (Kept scope))

include hkeeps

/-- What loads and layers keep of resolutions holds when all of them are resumed. -/
private theorem forall₂_resumeAll (limit : Nat) {library : Library} {scopes : List ScopeName}
    {runs : List Progress} (h : List.Forall₂ (Kept · library) scopes runs) :
    List.Forall₂ (Kept · (library.resumeAll limit runs).1) scopes
      (library.resumeAll limit runs).2 := by
  induction runs generalizing library scopes with
  | nil =>
    cases h
    exact .nil
  | cons progress rest ih =>
    obtain ⟨scope, others, hfirst, hrest, rfl⟩ := List.forall₂_cons_right_iff.1 h
    -- The others see the loads of the first one, and it sees theirs.
    have hsteps := steps_resume loader limit library progress
    have hresumed := Progress.kept_resume
      (fun library run => (hkeeps scope).loads (steps_awaitAll loader library run.scopes))
      (hkeeps scope).layer limit hfirst
    exact .cons ((hkeeps scope).loads (steps_resumeAll loader limit _ rest) hresumed)
      (ih (hrest.imp fun other _ hother => (hkeeps other).loads hsteps hother))

/-- What loads and layers keep of resolutions holds when the executor comes back with their
results. -/
theorem forall₂_of_resolveAll {library : Library} {scopes : List ScopeName}
    (hstart : ∀ scope ∈ scopes, Kept scope library (.waiting (.start scope))) (limit : Nat)
    {results : List (Except Error Resolution)}
    (h : (library.resolveAll loader limit scopes).1 = some results) :
    List.Forall₂ (fun scope result =>
      Kept scope (library.resolveAll loader limit scopes).2 (.done result)) scopes results := by
  -- Each resolution begins with its own scope.
  have hbegin : List.Forall₂ (Kept · library) scopes
      (scopes.map fun scope => .waiting (.start scope)) :=
    List.forall₂_map_right_iff.2 (List.forall₂_same.2 hstart)
  obtain ⟨later, hkept, hresults⟩ := exists_of_runAll loader limit
    (fun library => List.Forall₂ (Kept · library) scopes)
    (fun _ _ => forall₂_resumeAll hkeeps limit)
    (fun library _ hnow => hnow.imp fun scope _ => (hkeeps scope).loads (steps_turn loader library))
    limit library _ hbegin
  -- A resolution with a result is done.
  exact hkept.comp (fun _ _ _ hnow hdone => eq_done_of_result? hdone ▸ hnow)
    (List.mapM_eq_some_iff.1 (hresults results h))

end

end Library

/-! ## What the executor does to resolutions -/

namespace Progress

/-- A resolution that has its outcomes takes a turn. -/
theorem turn_of_outcomes? {loader : Loader} {library : Library} (hr : library.Reflects loader)
    {run : Run} (hg : run.Grounded) {outcomes : List Outcome}
    (h : library.outcomes? run.scopes = some outcomes) :
    Turn loader (.waiting run) (afterLoads library.store run outcomes) := by
  -- The outcomes are those of the loader, for the scopes of the layer.
  rw [hr.outcomes?_eq h]
  exact .afterLoads library.store run hg fun _ hs => hr.agrees_of_outcomes? h hs

/-- Turns have led a resolution to where it is, and the library has what the loader answers. -/
def Led (loader : Loader) (scope : ScopeName) (library : Library) (progress : Progress) : Prop :=
  library.Reflects loader ∧ Turns loader (.waiting (.start scope)) progress

/-- Loads and layers keep a resolution on its way. -/
theorem keeps_led {loader : Loader} (hl : loader.Honest) (scope : ScopeName) :
    Keeps loader (Led loader scope) where
  load := fun _ _ _ hstep hled => ⟨hstep.reflects hl hled.1, hled.2⟩
  layer := by
    rintro library run outcomes ⟨hr, hturns⟩ houtcomes
    have hstart : (Progress.waiting (.start scope)).Grounded := Run.grounded_start scope
    have hg : run.Grounded := Turns.grounded hstart hturns
    exact ⟨hr, hturns.tail (turn_of_outcomes? hr hg houtcomes)⟩

end Progress

namespace Library

/-- The results for scopes that are resolved at once are the ends of their resolutions. -/
theorem turns_resolveAll {loader : Loader} (hl : loader.Honest) {library : Library}
    (hr : library.Reflects loader) (limit : Nat) {scopes : List ScopeName}
    {results : List (Except Error Resolution)}
    (h : (library.resolveAll loader limit scopes).1 = some results) :
    List.Forall₂ (fun scope result =>
      Progress.Turns loader (.waiting (.start scope)) (.done result)) scopes results :=
  (forall₂_of_resolveAll (Progress.keeps_led hl) (fun _ _ => ⟨hr, .refl⟩) limit h).imp
    fun _ _ hled => hled.2

/-- The result for a scope is the end of its resolution. -/
theorem turns_resolve {loader : Loader} (hl : loader.Honest) {library : Library}
    (hr : library.Reflects loader) (limit : Nat) {scope : ScopeName}
    {result : Except Error Resolution}
    (h : (library.resolve loader limit scope).1 = some result) :
    Progress.Turns loader (.waiting (.start scope)) (.done result) :=
  (kept_of_resolve (Progress.keeps_led hl scope) ⟨hr, .refl⟩ limit h).2

end Library

end Textmate
