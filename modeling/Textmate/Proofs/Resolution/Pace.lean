import Textmate.Proofs.Cache.Remaining
import Textmate.Proofs.Resolution.Executor

/-!
# How many turns the executor needs

When a resolution is resumed it goes through a layer or waits for a load, and a load comes closer to
its end with every turn. So a bound of its layers and one of its loads bound the turns that it
needs, whatever other resolutions it shares the loads with. A resolution that has an end has both
bounds, and the executor reaches the end.

## Key results

- `Paced.exists_results_of_resolveAll`: with turns for every layer and every load behind it, the
  executor has results
- `Progress.exists_bounds_of_turns_done`: a resolution with an end has few layers and short loads
- `Library.exists_limit_of_turns_done`: with enough turns the executor comes to the end
-/

namespace Textmate

/-! ## What a layer counts -/

namespace Run

/-- A scan leaves the number of layers alone. -/
private theorem layers_of_scan {store : Store} {initial : ScopeName} {base : Definition}
    {collector : Collector} {report : Resolution} {dependency : Dependency}
    {found : Collector × Resolution}
    (h : scan store initial base collector report dependency = .ok found) :
    found.2.layers = report.layers := by
  simp only [scan] at h
  split at h
  · split at h <;> cases h
    rfl
  · cases h
    cases dependency <;> rfl

/-- So do all scans of a layer. -/
private theorem layers_of_scanAll {store : Store} {initial : ScopeName} {base : Definition}
    {layer : List Dependency} {start found : Collector × Resolution}
    (h : scanAll store initial base layer start = .ok found) :
    found.2.layers = start.2.layers := by
  induction layer generalizing start with
  | nil =>
    cases h
    rfl
  | cons dependency rest ih =>
    obtain ⟨collector, report⟩ := start
    simp only [scanAll] at h
    split at h
    · cases h
    · rename_i middle hscan
      exact (ih h).trans (layers_of_scan hscan)

/-- Every layer is counted. -/
theorem layers_of_next {store : Store} {run after : Run} (h : run.next store = .ok after) :
    after.report.layers = run.report.layers + 1 := by
  obtain ⟨base, collector, report, -, hscan, rfl⟩ := next_eq_ok h
  exact layers_of_scanAll hscan

end Run

/-! ## Resolutions that are resumed -/

namespace Library

/-- A resolution whose loads have ended goes to its next layer and on from there. -/
private theorem resume_of_outcomes? {library : Library} {run : Run} {outcomes : List Outcome}
    (h : (run.scopes.foldl await library).outcomes? run.scopes = some outcomes) (layers : Nat) :
    Progress.resume (layers + 1) library (.waiting run) =
      Progress.resume layers (run.scopes.foldl await library)
        (.afterLoads (run.scopes.foldl await library).store run outcomes) := by
  conv_lhs => unfold Progress.resume
  dsimp only
  rw [h]

/-- A resolution whose loads have not all ended waits. -/
private theorem resume_of_outcomes?_eq_none {library : Library} {run : Run}
    (h : (run.scopes.foldl await library).outcomes? run.scopes = none) (layers : Nat) :
    Progress.resume (layers + 1) library (.waiting run) =
      (run.scopes.foldl await library, .waiting run) := by
  unfold Progress.resume
  dsimp only
  rw [h]

/-- What waiting for loads keeps of a library, resuming resolutions keeps too. -/
private theorem keep_resume {P : Library → Prop}
    (hawait : ∀ library (scopes : List ScopeName), P library → P (scopes.foldl await library))
    (limit : Nat) {library : Library} (h : P library) (progress : Progress) :
    P (progress.resume limit library).1 :=
  @Progress.kept_resume (fun library _ => P library) (fun _ _ h => hawait _ _ h)
    (fun _ _ _ h _ => h) limit library progress h

/-- So does resuming any number of resolutions. -/
private theorem keep_resumeAll {P : Library → Prop}
    (hawait : ∀ library (scopes : List ScopeName), P library → P (scopes.foldl await library))
    (limit : Nat) {library : Library} (h : P library) (runs : List Progress) :
    P (library.resumeAll limit runs).1 := by
  induction runs generalizing library with
  | nil => exact h
  | cons progress rest ih => exact ih (keep_resume hawait limit h progress)

end Library

/-! ## The turns that a resolution needs -/

namespace Progress

/-- A number of turns suffices for the resolution, when it goes through fewer than `most` layers and
a load takes at most `delay` turns after its first one. -/
def Within (loader : Loader) (most delay turns : Nat) (library : Library) : Progress → Prop
  | waiting run => ∃ slowest, (most - run.report.layers) * (delay + 2) + slowest ≤ turns ∧
      ∀ scope ∈ run.scopes, Library.remaining loader library scope ≤ slowest
  | done _ => True

/-- The resolution waits for a load that was requested and has not ended. -/
def Waits (loader : Loader) (library : Library) : Progress → Prop
  | waiting run => (∀ scope ∈ run.scopes, scope ∈ Dict.keys library.cache.loads) ∧
      ∃ scope ∈ run.scopes, Library.remaining loader library scope ≠ 0
  | done _ => False

/-- After the next turn a number of turns suffices. -/
def Ready (loader : Loader) (most delay turns : Nat) (library : Library) (progress : Progress) :
    Prop :=
  progress.Within loader most delay turns library ∨
    progress.Within loader most delay (turns + 1) library ∧ progress.Waits loader library

section

variable {loader : Loader} {most delay turns : Nat} {library : Library} {progress : Progress}

/-- More turns suffice as well. -/
private theorem Within.mono (h : progress.Within loader most delay turns library) {more : Nat}
    (hmore : turns ≤ more) : progress.Within loader most delay more library := by
  cases progress with
  | waiting run =>
    obtain ⟨slowest, hturns, hslowest⟩ := h
    exact ⟨slowest, Nat.le_trans hturns hmore, hslowest⟩
  | done result => trivial

/-- Waiting for loads takes no turn. -/
private theorem Within.awaitAll (h : progress.Within loader most delay turns library)
    (scopes : List ScopeName) :
    progress.Within loader most delay turns (scopes.foldl Library.await library) := by
  cases progress with
  | waiting run =>
    obtain ⟨slowest, hturns, hslowest⟩ := h
    refine ⟨slowest, hturns, fun scope hscope => ?_⟩
    rw [Library.remaining_awaitAll]
    exact hslowest scope hscope
  | done result => trivial

/-- Nor does a wait for loads undo that a load has been requested. -/
private theorem Ready.awaitAll (h : progress.Ready loader most delay turns library)
    (scopes : List ScopeName) :
    progress.Ready loader most delay turns (scopes.foldl Library.await library) := by
  rcases h with hwithin | ⟨hwithin, hwaits⟩
  · exact Or.inl (hwithin.awaitAll scopes)
  · refine Or.inr ⟨hwithin.awaitAll scopes, ?_⟩
    -- A load that was requested stays so, and as many turns of it remain.
    cases progress with
    | waiting run =>
      obtain ⟨hkeys, scope, hscope, hne⟩ := hwaits
      refine ⟨fun other hother => Library.mem_keys_awaitAll_iff.2 (Or.inr (hkeys other hother)),
        scope, hscope, ?_⟩
      rwa [Library.remaining_awaitAll]
    | done result => exact hwaits

/-- Another resolution that is resumed takes no turn from this one. -/
private theorem Within.resume (h : progress.Within loader most delay turns library) (limit : Nat)
    (other : Progress) :
    progress.Within loader most delay turns (other.resume limit library).1 :=
  Library.keep_resume (P := fun later => progress.Within loader most delay turns later)
    (fun _ scopes hnow => hnow.awaitAll scopes) limit h other

/-- Nor do any number of others. -/
private theorem Ready.resumeAll (h : progress.Ready loader most delay turns library) (limit : Nat)
    (others : List Progress) :
    progress.Ready loader most delay turns (library.resumeAll limit others).1 :=
  Library.keep_resumeAll (P := fun later => progress.Ready loader most delay turns later)
    (fun _ scopes hnow => hnow.awaitAll scopes) limit h others

/-- A turn makes up for one of the turns that are needed. -/
private theorem Ready.turn (hc : library.Coherent)
    (h : progress.Ready loader most delay turns library) :
    progress.Within loader most delay turns (library.turn loader) := by
  cases progress with
  | done result => trivial
  | waiting run =>
    rcases h with ⟨slowest, hturns, hslowest⟩ |
      ⟨⟨slowest, hturns, hslowest⟩, hkeys, scope, hscope, hne⟩
    · refine ⟨slowest, hturns, fun scope hscope => ?_⟩
      exact Nat.le_trans (Library.remaining_turn_le hc scope) (hslowest scope hscope)
    · -- The slowest load has still to end, so it comes closer to its end.
      have hpositive : 0 < slowest :=
        Nat.lt_of_lt_of_le (Nat.pos_of_ne_zero hne) (hslowest scope hscope)
      refine ⟨slowest - 1, by omega, fun other hother => ?_⟩
      rw [Library.remaining_turn hc (hkeys other hother)]
      exact Nat.sub_le_sub_right (hslowest other hother) 1

end

end Progress

/-- What is kept of resolutions bounds their layers and the loads for which they wait. -/
structure Paced (loader : Loader) (most delay : Nat) (Kept : Library → Progress → Prop) : Prop where
  keeps : Keeps loader Kept
  coherent : ∀ library progress, Kept library progress → library.Coherent
  layers_lt : ∀ library run, Kept library (.waiting run) → run.report.layers < most
  /-- No load of a layer takes longer than `delay` turns after its first one. -/
  remaining_le : ∀ library run, Kept library (.waiting run) → ∀ scope ∈ run.scopes,
    Library.remaining loader library scope ≤ delay + 1

namespace Paced

open Progress Library

variable {loader : Loader} {most delay turns : Nat} {Kept : Library → Progress → Prop}
  (h : Paced loader most delay Kept)

include h

/-- A layer makes up for the turns of the loads behind it, and for one more. -/
private theorem within_afterLoads {library : Library} {run : Run} {outcomes : List Outcome}
    (hkept : Kept library (.waiting run)) (houtcomes : library.outcomes? run.scopes = some outcomes)
    (hwithin : (waiting run).Within loader most delay (turns + 1) library) :
    (afterLoads library.store run outcomes).Within loader most delay turns library := by
  have hnext := h.keeps.layer library run outcomes hkept houtcomes
  cases hafter : afterLoads library.store run outcomes with
  | done result => trivial
  | waiting after =>
    rw [hafter] at hnext
    obtain ⟨-, hrun, -⟩ := afterLoads_eq_waiting hafter
    obtain ⟨slowest, hturns, -⟩ := hwithin
    refine ⟨delay + 1, ?_, h.remaining_le library after hnext⟩
    have hlayers := Run.layers_of_next hrun
    have hlt := h.layers_lt library run hkept
    -- One layer less to go, which frees the turns of its loads.
    obtain ⟨left, hleft⟩ : ∃ left, most - run.report.layers = left + 1 :=
      ⟨most - run.report.layers - 1, by omega⟩
    have hone : most - after.report.layers = left := by omega
    rw [hleft, Nat.add_mul, Nat.one_mul] at hturns
    rw [hone]
    omega

/-- A resolution that is resumed needs no more turns than before. -/
private theorem within_resume (limit : Nat) {library : Library} {progress : Progress}
    (hkept : Kept library progress) (hwithin : progress.Within loader most delay turns library) :
    Kept (progress.resume limit library).1 (progress.resume limit library).2 ∧
      (progress.resume limit library).2.Within loader most delay turns
        (progress.resume limit library).1 :=
  @kept_resume
    (fun library progress =>
      Kept library progress ∧ progress.Within loader most delay turns library)
    (fun library run hnow =>
      ⟨h.keeps.loads (steps_awaitAll loader library run.scopes) hnow.1, hnow.2.awaitAll _⟩)
    (fun library run outcomes hnow houtcomes =>
      ⟨h.keeps.layer library run outcomes hnow.1 houtcomes,
        h.within_afterLoads hnow.1 houtcomes (hnow.2.mono (Nat.le_succ _))⟩)
    limit library progress ⟨hkept, hwithin⟩

/-- A resolution that is resumed goes through a layer or waits for a load. -/
private theorem ready_resume (limit : Nat) {library : Library} {progress : Progress}
    (hkept : Kept library progress)
    (hwithin : progress.Within loader most delay (turns + 1) library) :
    Kept (progress.resume (limit + 1) library).1 (progress.resume (limit + 1) library).2 ∧
      (progress.resume (limit + 1) library).2.Ready loader most delay turns
        (progress.resume (limit + 1) library).1 := by
  cases progress with
  | done result => exact ⟨hkept, Or.inl trivial⟩
  | waiting run =>
    have hawaited := h.keeps.loads (steps_awaitAll loader library run.scopes) hkept
    have hstill := hwithin.awaitAll run.scopes
    cases houtcomes : (run.scopes.foldl await library).outcomes? run.scopes with
    | none =>
      rw [resume_of_outcomes?_eq_none houtcomes]
      refine ⟨hawaited, Or.inr ⟨hstill, fun scope hscope =>
        mem_keys_awaitAll_iff.2 (Or.inl hscope), ?_⟩⟩
      -- Otherwise all loads would have ended, and there would be outcomes.
      by_contra! hended
      obtain ⟨outcomes, hsome⟩ := outcomes?_of_remaining hended
      rw [houtcomes] at hsome
      cases hsome
    | some outcomes =>
      -- All loads have ended, so the resolution goes on to the next layer.
      rw [resume_of_outcomes? houtcomes]
      obtain ⟨hlater, hless⟩ := h.within_resume limit
        (h.keeps.layer _ run outcomes hawaited houtcomes)
        (h.within_afterLoads hawaited houtcomes hstill)
      exact ⟨hlater, Or.inl hless⟩

/-- When all are resumed, each goes through a layer or waits for a load. -/
private theorem ready_resumeAll (limit : Nat) {library : Library} {runs : List Progress}
    (hruns : ∀ progress ∈ runs, Kept library progress ∧
      progress.Within loader most delay (turns + 1) library) :
    ∀ progress ∈ (library.resumeAll (limit + 1) runs).2,
      Kept (library.resumeAll (limit + 1) runs).1 progress ∧
        progress.Ready loader most delay turns (library.resumeAll (limit + 1) runs).1 := by
  induction runs generalizing library with
  | nil => exact fun _ hmem => nomatch hmem
  | cons first rest ih =>
    obtain ⟨hkept, hwithin⟩ := hruns first List.mem_cons_self
    obtain ⟨hfirst, hready⟩ := h.ready_resume limit hkept hwithin
    intro progress hmem
    rcases List.mem_cons.1 hmem with rfl | hlater
    · -- The others wait for loads beside it.
      exact ⟨h.keeps.loads (steps_resumeAll loader (limit + 1) _ rest) hfirst,
        hready.resumeAll (limit + 1) rest⟩
    · refine ih (fun other hother => ?_) progress hlater
      obtain ⟨hbefore, hless⟩ := hruns other (List.mem_cons_of_mem _ hother)
      exact ⟨h.keeps.loads (steps_resume loader (limit + 1) library first) hbefore,
        hless.resume (limit + 1) first⟩

/-- When all resolutions have been resumed, a turn makes up for one that is needed. -/
private theorem within_turn (limit : Nat) {library : Library} {runs : List Progress}
    (hruns : ∀ progress ∈ runs, Kept library progress ∧
      progress.Within loader most delay (turns + 1) library) :
    ∀ progress ∈ (library.resumeAll (limit + 1) runs).2,
      Kept ((library.resumeAll (limit + 1) runs).1.turn loader) progress ∧
        progress.Within loader most delay turns
          ((library.resumeAll (limit + 1) runs).1.turn loader) := by
  intro progress hmem
  obtain ⟨hkept, hready⟩ := h.ready_resumeAll limit hruns progress hmem
  exact ⟨h.keeps.loads (steps_turn loader _) hkept, hready.turn (h.coherent _ _ hkept)⟩

/-- A resolution for which no turn is needed has ended. -/
private theorem eq_done {library : Library} {progress : Progress} (hkept : Kept library progress)
    (hwithin : progress.Within loader most delay 0 library) :
    ∃ result, progress = .done result := by
  cases progress with
  | done result => exact ⟨result, rfl⟩
  | waiting run =>
    -- A layer that waits has at least one turn left, even if no load takes any.
    obtain ⟨slowest, hturns, -⟩ := hwithin
    have hleft : 0 < most - run.report.layers := Nat.sub_pos_of_lt (h.layers_lt library run hkept)
    have hpositive : 0 < (most - run.report.layers) * (delay + 2) :=
      Nat.mul_pos hleft (Nat.succ_pos _)
    omega

/-- The executor has results when it may take as many turns as are needed. -/
private theorem exists_results (limit : Nat) {library : Library} {runs : List Progress}
    (hruns : ∀ progress ∈ runs, Kept library progress ∧
      progress.Within loader most delay turns library) :
    ∃ results, (runAll loader (limit + 1) turns library runs).1 = some results := by
  induction turns generalizing library runs with
  | zero =>
    have hone (progress : Progress) (hmem : progress ∈ runs) :
        Kept library progress ∧ progress.Within loader most delay (0 + 1) library :=
      ⟨(hruns progress hmem).1, (hruns progress hmem).2.mono (Nat.zero_le _)⟩
    -- No turn is left, so no resolution needs one.
    have hended (progress : Progress) (hmem : progress ∈ (library.resumeAll (limit + 1) runs).2) :
        ∃ result, progress.result? = some result := by
      obtain ⟨hkept, hwithin⟩ := h.within_turn limit hone progress hmem
      obtain ⟨result, rfl⟩ := h.eq_done hkept hwithin
      exact ⟨result, rfl⟩
    obtain ⟨results, hresults⟩ := List.exists_mapM_eq_some hended
    rw [runAll_of_results hresults]
    exact ⟨results, rfl⟩
  | succ turns ih =>
    cases hresults : (library.resumeAll (limit + 1) runs).2.mapM (·.result?) with
    | some results =>
      rw [runAll_of_results hresults]
      exact ⟨results, rfl⟩
    -- Some resolution waits: the turn brings all of them closer to their ends.
    | none =>
      rw [runAll_succ hresults]
      exact ih (h.within_turn limit hruns)

/-- A resolution that begins needs turns for every layer and for the loads of the first one. -/
private theorem within_start {library : Library} {initial : ScopeName}
    (hkept : Kept library (.waiting (.start initial))) :
    (waiting (.start initial)).Within loader most delay ((most + 1) * (delay + 2)) library := by
  refine ⟨delay + 1, ?_, h.remaining_le library _ hkept⟩
  have hlayers : (Run.start initial).report.layers = 0 := rfl
  rw [hlayers, Nat.sub_zero, Nat.add_mul, Nat.one_mul]
  omega

/-- With turns for every layer and every load behind it, the executor has results for all scopes
that are resolved at once. -/
theorem exists_results_of_resolveAll {library : Library} {scopes : List ScopeName}
    (hstart : ∀ scope ∈ scopes, Kept library (.waiting (.start scope))) {limit : Nat}
    (hlimit : (most + 1) * (delay + 2) ≤ limit) :
    ∃ results, (library.resolveAll loader limit scopes).1 = some results := by
  -- The last turn of the executor only looks at the results.
  obtain ⟨rest, rfl⟩ : ∃ rest, limit = rest + 1 := by
    have hpositive : 0 < (most + 1) * (delay + 2) :=
      Nat.mul_pos (Nat.succ_pos _) (Nat.succ_pos _)
    exact ⟨limit - 1, by omega⟩
  refine h.exists_results rest fun progress hmem => ?_
  obtain ⟨initial, hinitial, rfl⟩ := List.mem_map.1 hmem
  have hkept := hstart initial hinitial
  exact ⟨hkept, (h.within_start hkept).mono hlimit⟩

end Paced

/-! ## The end of a resolution -/

namespace Progress

/-- The layers of a resolution that has an end, and the delays of the scopes that it waits for, are
bounded. -/
theorem exists_bounds_of_turns_done {loader : Loader} {progress : Progress}
    {result : Except Error Resolution} (h : Turns loader progress (.done result)) :
    ∃ most delay, ∀ run, Turns loader progress (.waiting run) →
      run.report.layers < most ∧ ∀ scope ∈ run.scopes, loader.delay scope ≤ delay := by
  induction h using Relation.ReflTransGen.head_induction_on with
  | refl =>
    refine ⟨0, 0, fun run hrun => ?_⟩
    cases eq_of_turns_from_done hrun
  | @head progress next hturn _ ih =>
    obtain ⟨most, delay, hlater⟩ := ih
    -- The way to the end is the only one, so other layers come behind the next one.
    cases progress with
    | done result => cases hturn
    | waiting first =>
      -- The first layer has one more bound than the layers behind it.
      obtain ⟨slowest, hslowest⟩ : ∃ slowest, ∀ scope ∈ first.scopes,
          loader.delay scope ≤ slowest :=
        ⟨(first.scopes.map loader.delay).max?.getD 0, fun scope hscope =>
          List.le_max?_getD_of_mem (List.mem_map_of_mem hscope)⟩
      refine ⟨max most (first.report.layers + 1), max delay slowest, fun run hrun => ?_⟩
      rcases Relation.ReflTransGen.cases_head hrun with heq | ⟨other, hother, hrest⟩
      · cases heq
        exact ⟨by omega, fun scope hscope =>
          Nat.le_trans (hslowest scope hscope) (Nat.le_max_right _ _)⟩
      · obtain ⟨hlayers, hdelay⟩ := hlater run (turn_rightUnique loader hother hturn ▸ hrest)
        exact ⟨by omega, fun scope hscope =>
          Nat.le_trans (hdelay scope hscope) (Nat.le_max_left _ _)⟩

end Progress

namespace Library

section

variable {loader : Loader} {library : Library}

/-- There is a result for a scope when there are results for that scope alone. -/
theorem exists_result_of_resolveAll {limit : Nat} {initial : ScopeName}
    (h : ∃ results, (library.resolveAll loader limit [initial]).1 = some results) :
    ∃ result, (library.resolve loader limit initial).1 = some result := by
  obtain ⟨results, hresults⟩ := h
  -- There are as many results as scopes.
  have hkeeps (_ : ScopeName) : Keeps loader fun _ _ => True :=
    ⟨fun _ _ _ _ _ => trivial, fun _ _ _ _ _ => trivial⟩
  cases forall₂_of_resolveAll hkeeps (fun _ _ => trivial) limit hresults with
  | cons _ _ => exact ⟨_, Option.bind_eq_some_iff.2 ⟨_, hresults, rfl⟩⟩

end

/-- With enough turns the executor comes to the end that a resolution has. -/
theorem exists_limit_of_turns_done {loader : Loader} (hl : loader.Honest) (engine : Engine)
    {initial : ScopeName} {result : Except Error Resolution}
    (h : Progress.Turns loader (.waiting (.start initial)) (.done result)) :
    ∃ least, ∀ limit, least ≤ limit →
      (resolve loader limit (.empty engine) initial).1 = some result := by
  obtain ⟨most, delay, hbounds⟩ := Progress.exists_bounds_of_turns_done h
  have hreflects := reflects_empty loader engine
  -- What is loaded comes from steps of loads, and what is resolved from turns.
  have hpaced : Paced loader most delay fun library progress =>
      Steps loader (.empty engine) library ∧ Progress.Led loader initial library progress := by
    refine ⟨⟨?_, ?_⟩, ?_, ?_, ?_⟩
    · rintro library next progress hstep ⟨hsteps, hled⟩
      exact ⟨hsteps.tail hstep, (Progress.keeps_led hl initial).load _ _ _ hstep hled⟩
    · rintro library run outcomes ⟨hsteps, hled⟩ houtcomes
      exact ⟨hsteps, (Progress.keeps_led hl initial).layer _ _ _ hled houtcomes⟩
    · exact fun library progress hkept => Steps.coherent hkept.1 (coherent_empty engine)
    · exact fun library run hkept => (hbounds run hkept.2.2).1
    · rintro library run ⟨hsteps, hled⟩ scope hscope
      have htimely := (Steps.timely (timely_empty engine loader) hsteps).remaining_le scope
      have hdelay := (hbounds run hled.2).2 scope hscope
      omega
  refine ⟨(most + 1) * (delay + 2), fun limit hlimit => ?_⟩
  have hstart : ∀ scope ∈ [initial], Steps loader (.empty engine) (.empty engine) ∧
      Progress.Led loader initial (.empty engine) (.waiting (.start scope)) := by
    intro scope hscope
    rw [List.mem_singleton.1 hscope]
    exact ⟨.refl, hreflects, .refl⟩
  obtain ⟨found, hfound⟩ :=
    exists_result_of_resolveAll (hpaced.exists_results_of_resolveAll hstart hlimit)
  -- The executor ends as turns do, and these have one end.
  rw [hfound, Progress.eq_of_turns_done (turns_resolve hl hreflects limit hfound) h]

end Library

end Textmate
