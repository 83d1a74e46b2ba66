import Mathlib.Algebra.GroupWithZero.Nat
import Mathlib.Data.List.Induction
import Mathlib.Data.List.Perm.Subperm
import Mathlib.Logic.Function.Iterate
import Textmate.Proofs.Collector.Exact
import Textmate.Proofs.Collector.Shared

/-!
# Scans step by step

A scan does its tasks one at a time, and the only thing that keeps it from going round in a circle
is that a rule which was visited before is passed over. There are finitely many rules in the grammar
and the base, so every scan ends, whatever the collector has seen before; and since a rule asks for
one scope at most, there are never more dependencies than rules that were visited.

## Key results

- `Walker.step`: one step of a scan, which looks at the visited rules and nothing else
- `exists_after_eq`: the steps come to an end, with what the walk finds
- `Walker.Bounded.step`: what a step keeps
- `Collector.scan_ends`: every scan ends, and the bounds hold all the time
-/

namespace Textmate

/-! ## Steps of a scan -/

/-- A scan under way: what the collector has so far, and what is still to be done. -/
structure Walker where
  collector : Collector
  tasks : List WalkTask

namespace Walker

/-- Does the next task. A rule is visited unless it was visited before, and then the tasks that it
leads to come first. -/
def step : Walker → Walker
  | ⟨collector, []⟩ => ⟨collector, []⟩
  | ⟨collector, .visit site context :: tasks⟩ =>
    if site.place ∈ collector.visited then ⟨collector, tasks⟩
    else
      ⟨{ collector with visited := collector.visited ++ [site.place] },
        WalkTask.ofVisit site context ++ tasks⟩
  | ⟨collector, .follow target context :: tasks⟩ =>
    match context.follow target with
    | .rules sites other => ⟨collector, WalkTask.visits sites other ++ tasks⟩
    | .scope dependency =>
      ⟨{ collector with dependencies := collector.dependencies ++ [dependency] }, tasks⟩

/-- The scan after a number of steps. -/
def after (walker : Walker) (steps : Nat) : Walker := step^[steps] walker

/-- The rule that the next step expands, if it expands one. -/
def expands? : Walker → Option Place
  | ⟨collector, .visit site _ :: _⟩ =>
    if site.place ∈ collector.visited then none else some site.place
  | _ => none

/-- A scan at its start. -/
def start (collector : Collector) (base : Definition) (scan : Scan) : Walker :=
  ⟨collector, WalkTask.visits (scan.sites base) (.atTop base scan.definition)⟩

variable {walker : Walker} {collector : Collector} {tasks : List WalkTask}

/-- After no steps the scan is where it was. -/
@[simp] theorem after_zero (walker : Walker) : walker.after 0 = walker := rfl

/-- Of some steps one is the first. -/
private theorem after_succ (walker : Walker) (steps : Nat) :
    walker.after (steps + 1) = walker.step.after steps := rfl

/-- Of some steps one is the last. -/
private theorem after_succ' (walker : Walker) (steps : Nat) :
    walker.after (steps + 1) = (walker.after steps).step :=
  Function.iterate_succ_apply' step steps walker

/-- A step adds the rule that it expands to the visited ones. -/
private theorem visited_step (walker : Walker) :
    walker.step.collector.visited = walker.collector.visited ++ walker.expands?.toList := by
  obtain ⟨collector, tasks⟩ := walker
  -- No task, a rule to visit, or an include to follow.
  rcases tasks with _ | ⟨⟨site, context⟩ | ⟨target, context⟩, tasks⟩
  · simp [step, expands?]
  · by_cases hold : site.place ∈ collector.visited <;> simp [step, expands?, hold]
  · rw [step]
    split <;> simp [expands?]

/-- The visited rules are those that were expanded, in order. -/
private theorem visited_after (walker : Walker) (steps : Nat) :
    (walker.after steps).collector.visited = walker.collector.visited ++
      (List.range steps).filterMap fun step => (walker.after step).expands? := by
  induction steps with
  | zero => simp
  | succ steps ih =>
    rw [after_succ', visited_step, ih, List.range_succ, List.filterMap_append, List.append_assoc]
    cases h : (walker.after steps).expands? <;> simp [h]

end Walker

/-! ## The end of a scan -/

/-- A scan comes to its end, with what a walk finds that knows which rules are fresh. -/
theorem exists_after_eq {base : Definition} {Known : Definition → Prop} (hbase : Known base)
    {fresh : List Place} {tasks : List WalkTask} {collector : Collector} (hnodup : fresh.Nodup)
    (hfresh : ∀ definition site, Known definition → definition.Owns site →
      (site.place ∈ fresh ↔ site.place ∉ collector.visited))
    (hsound : ∀ task ∈ tasks, task.Sound base Known) :
    ∃ steps, (⟨collector, tasks⟩ : Walker).after steps =
      ⟨⟨collector.dependencies ++ (walk fresh tasks).dependencies,
        collector.visited ++ (walk fresh tasks).visited⟩, []⟩ := by
  have hinherited := WalkTask.inherited_sound hbase
  induction fresh, tasks using walk.induct generalizing collector with
  | case1 fresh => exact ⟨0, by simp [walk, Findings.empty]⟩
  | case2 fresh site context tasks hmem _ ih =>
    -- The rule is fresh, so it was not visited; now it was, and it is fresh no more.
    have hsite := hsound _ List.mem_cons_self
    have hnew : site.place ∉ collector.visited :=
      (hfresh _ site hsite.1.known hsite.2).1 hmem
    obtain ⟨steps, hsteps⟩ := @ih
      { collector with visited := collector.visited ++ [site.place] } (hnodup.erase _)
      (fun definition other hknown howns => by
        rw [hnodup.mem_erase_iff, hfresh definition other hknown howns, List.mem_append,
          List.mem_singleton, not_or]
        exact and_comm)
      (fun task htask => by
        rcases List.mem_append.1 htask with hinner | houter
        · exact hinherited.ofVisit site context hsite task hinner
        · exact hsound task (List.mem_cons_of_mem _ houter))
    refine ⟨steps + 1, ?_⟩
    rw [Walker.after_succ, Walker.step, if_neg hnew, hsteps, walk, dif_pos hmem]
    simp [Findings.visit]
  | case3 fresh site context tasks hmem ih =>
    have hsite := hsound _ List.mem_cons_self
    -- What is not fresh was visited, so the step passes over the rule as well.
    have hold : site.place ∈ collector.visited :=
      not_not.1 fun hnew => hmem ((hfresh _ site hsite.1.known hsite.2).2 hnew)
    obtain ⟨steps, hsteps⟩ :=
      ih hnodup hfresh fun task htask => hsound task (List.mem_cons_of_mem _ htask)
    refine ⟨steps + 1, ?_⟩
    rw [Walker.after_succ, Walker.step, if_pos hold, hsteps, walk, dif_neg hmem]
  | case4 fresh target context tasks sites inner hfollow ih =>
    -- An include to rules leaves these rules to do, all of them in a sound context.
    obtain ⟨steps, hsteps⟩ := ih hnodup hfresh fun task htask => by
      rcases List.mem_append.1 htask with hvisits | houter
      · exact hinherited.visits target context sites inner (hsound _ List.mem_cons_self) hfollow
          task hvisits
      · exact hsound task (List.mem_cons_of_mem _ houter)
    refine ⟨steps + 1, ?_⟩
    rw [Walker.after_succ, Walker.step, hfollow, hsteps, walk, hfollow]
  | case5 fresh target context tasks dependency hfollow ih =>
    obtain ⟨steps, hsteps⟩ := @ih
      { collector with dependencies := collector.dependencies ++ [dependency] } hnodup hfresh
      fun task htask => hsound task (List.mem_cons_of_mem _ htask)
    refine ⟨steps + 1, ?_⟩
    rw [Walker.after_succ, Walker.step, hfollow, hsteps, walk, hfollow]
    simp [Findings.note]

namespace Collector

variable {base current : Definition}

/-- What is fresh are the rules of the grammar and the base that were not visited. -/
private theorem mem_fresh_iff {collector : Collector}
    (horigin : base.origin = current.origin → base = current) {definition : Definition}
    (hor : definition = base ∨ definition = current) {site : Site} (howns : definition.Owns site) :
    site.place ∈ collector.fresh base current ↔ site.place ∉ collector.visited := by
  refine ⟨fun h => by simpa using (List.mem_filter.1 h).2, fun h => ?_⟩
  exact not_not.1 fun hold => h (mem_visited_of_not_mem_fresh horigin hor howns hold)

/-- No place is fresh twice. -/
private theorem nodup_fresh (collector : Collector) (base current : Definition) :
    (collector.fresh base current).Nodup := by
  refine List.Nodup.filter _ ?_
  split
  · exact current.places_nodup
  · rename_i hne
    exact base.places_nodup.append current.places_nodup (Definition.disjoint_places hne)

end Collector

/-! ## What the steps keep -/

/-- What was visited are places of rules, each of them once, and the dependencies together with the
includes that are still to be followed are not more than one for each of them, apart from those that
were injected. -/
structure Walker.Bounded (base : Definition) (Known : Definition → Prop) (IsRule : Place → Prop)
    (injected : Nat) (walker : Walker) : Prop where
  sound : ∀ task ∈ walker.tasks, task.Sound base Known
  nodup_visited : walker.collector.visited.Nodup
  isRule : ∀ place ∈ walker.collector.visited, IsRule place
  length_le : walker.collector.dependencies.length + walker.tasks.countP WalkTask.isFollow ≤
    walker.collector.visited.length + injected

/-- A rule has one include to follow at most. -/
private theorem WalkTask.countP_isFollow_ofVisit (site : Site) (context : Context) :
    (ofVisit site context).countP isFollow ≤ 1 := by
  rw [ofVisit, List.countP_append, countP_isFollow_visits, Nat.zero_add]
  refine Nat.le_trans List.countP_le_length ?_
  cases (site.rule.includes.bind fun text => (Include.parse text).toOption) <;> simp

namespace Walker.Bounded

variable {base : Definition} {Known : Definition → Prop} {IsRule : Place → Prop} {injected : Nat}
  {walker : Walker} {collector : Collector} {task : WalkTask} {tasks : List WalkTask}
  {site : Site} {context : Context} {target : Include}

/-- The tasks behind the first one are sound. -/
private theorem sound_rest
    (h : Walker.Bounded base Known IsRule injected ⟨collector, task :: tasks⟩) :
    ∀ other ∈ tasks, other.Sound base Known :=
  fun other hother => h.sound other (List.mem_cons_of_mem _ hother)

/-- A rule that was visited before is passed over. -/
private theorem pass
    (h : Walker.Bounded base Known IsRule injected ⟨collector, .visit site context :: tasks⟩) :
    Walker.Bounded base Known IsRule injected ⟨collector, tasks⟩ :=
  ⟨h.sound_rest, h.nodup_visited, h.isRule, h.length_le⟩

/-- One more rule is visited, and there is one more include to follow at most. -/
private theorem visit (hbase : Known base)
    (hrules : ∀ definition site, Known definition → definition.Owns site → IsRule site.place)
    (h : Walker.Bounded base Known IsRule injected ⟨collector, .visit site context :: tasks⟩)
    (hnew : site.place ∉ collector.visited) :
    Walker.Bounded base Known IsRule injected
      ⟨{ collector with visited := collector.visited ++ [site.place] },
        WalkTask.ofVisit site context ++ tasks⟩ where
  sound := by
    intro task htask
    rcases List.mem_append.1 htask with hinner | hrest
    · exact (WalkTask.inherited_sound hbase).ofVisit site context (h.sound _ List.mem_cons_self)
        task hinner
    · exact h.sound_rest task hrest
  nodup_visited := by
    -- The rule is new, as it would have been passed over otherwise.
    have hapart : ∀ place ∈ collector.visited, place ≠ site.place :=
      fun place hplace heq => hnew (heq ▸ hplace)
    exact List.nodup_append.2 ⟨h.nodup_visited, List.nodup_singleton _, by simpa using hapart⟩
  isRule := by
    have hsite := h.sound _ List.mem_cons_self
    intro place hplace
    rcases List.mem_append.1 hplace with hold | hnow
    · exact h.isRule place hold
    · rw [List.mem_singleton.1 hnow]
      exact hrules _ site hsite.1.known hsite.2
  length_le := by
    have hle := h.length_le
    -- The rule itself is not an include, and leaves one behind at most.
    have hone := WalkTask.countP_isFollow_ofVisit site context
    rw [List.countP_cons_of_neg (by simp [WalkTask.isFollow])] at hle
    simp only [List.countP_append, List.length_append, List.length_singleton] at hle ⊢
    omega

/-- An include that leads to rules is followed, and there is one less to follow. -/
private theorem enter {sites : List Site} {other : Context} (hbase : Known base)
    (h : Walker.Bounded base Known IsRule injected ⟨collector, .follow target context :: tasks⟩)
    (hfollow : context.follow target = .rules sites other) :
    Walker.Bounded base Known IsRule injected
      ⟨collector, WalkTask.visits sites other ++ tasks⟩ where
  sound := by
    intro task htask
    rcases List.mem_append.1 htask with hvisits | hrest
    · exact (WalkTask.inherited_sound hbase).visits target context sites other
        (h.sound _ List.mem_cons_self) hfollow task hvisits
    · exact h.sound_rest task hrest
  nodup_visited := h.nodup_visited
  isRule := h.isRule
  length_le := by
    have hle := h.length_le
    -- The include is done with, and its rules are no includes.
    rw [List.countP_cons_of_pos (by rfl)] at hle
    simp only [List.countP_append, WalkTask.countP_isFollow_visits] at hle ⊢
    omega

/-- In place of an include to follow there is one more dependency. -/
private theorem note {dependency : Dependency}
    (h : Walker.Bounded base Known IsRule injected ⟨collector, .follow target context :: tasks⟩) :
    Walker.Bounded base Known IsRule injected
      ⟨{ collector with dependencies := collector.dependencies ++ [dependency] }, tasks⟩ where
  sound := h.sound_rest
  nodup_visited := h.nodup_visited
  isRule := h.isRule
  length_le := by
    -- The include is counted no more, and the dependency is.
    have hle := h.length_le
    rw [List.countP_cons_of_pos (by rfl)] at hle
    simp only [List.length_append, List.length_singleton] at hle ⊢
    omega

/-- What a step keeps. -/
theorem step (hbase : Known base)
    (hrules : ∀ definition site, Known definition → definition.Owns site → IsRule site.place)
    (h : walker.Bounded base Known IsRule injected) :
    walker.step.Bounded base Known IsRule injected := by
  obtain ⟨collector, tasks⟩ := walker
  -- By the next task: a rule, which may be visited already, or an include.
  rcases tasks with _ | ⟨⟨site, context⟩ | ⟨target, context⟩, tasks⟩
  · exact h
  · rw [Walker.step]
    split
    · exact h.pass
    · rename_i hnew
      exact h.visit hbase hrules hnew
  · rw [Walker.step]
    split
    · rename_i sites other hfollow
      exact h.enter hbase hfollow
    · exact h.note

/-- What any number of steps keeps. -/
private theorem after (hbase : Known base)
    (hrules : ∀ definition site, Known definition → definition.Owns site → IsRule site.place)
    (h : walker.Bounded base Known IsRule injected) (steps : Nat) :
    (walker.after steps).Bounded base Known IsRule injected := by
  induction steps with
  | zero => exact h
  | succ steps ih =>
    rw [after_succ']
    exact ih.step hbase hrules

end Walker.Bounded

/-! ## A collector in use -/

namespace Collector

/-- One use of a collector. -/
inductive Use where
  | scan (base : Definition) (request : Scan)
  | inject (scopes : List ScopeName)

namespace Use

/-- The grammars to whose rules the use may come. -/
def definitions : Use → List Definition
  | scan base request => [base, request.definition]
  | inject _ => []

/-- How many dependencies are recorded that no rule asks for. -/
def injected : Use → Nat
  | scan _ _ => 0
  | inject scopes => scopes.length

/-- The base and the grammar are different objects unless they are the same. -/
def Distinct : Use → Prop
  | scan base request => base.origin = request.definition.origin → base = request.definition
  | inject _ => True

end Use

/-- The collector after a use. -/
def after (collector : Collector) : Use → Collector
  | .scan base request => collector.scan base request
  | .inject scopes => collector.addInjections scopes

/-- The collector after uses, one after another. -/
def afterAll (collector : Collector) (uses : List Use) : Collector :=
  uses.foldl after collector

/-- The grammars to whose rules any of the uses may come. -/
def scanned (uses : List Use) : List Definition :=
  uses.flatMap Use.definitions

/-- The bounds for a collector after some uses. -/
structure Bounded (collector : Collector) (uses : List Use) : Prop where
  /-- No rule was expanded twice. -/
  nodup_visited : collector.visited.Nodup
  /-- Rules of the scanned grammars and their bases were expanded. -/
  exists_owns : ∀ place ∈ collector.visited, ∃ definition ∈ scanned uses, ∃ site,
    definition.Owns site ∧ site.place = place
  /-- There are no more dependencies than visited rules, apart from those that were injected. -/
  length_dependencies_le : collector.dependencies.length ≤
    collector.visited.length + (uses.map Use.injected).sum

section

variable {collector : Collector} {uses : List Use}

/-- A new collector keeps to its bounds. -/
private theorem bounded_empty : empty.Bounded [] :=
  ⟨List.nodup_nil, List.forall_mem_nil _, Nat.zero_le _⟩

/-- There are no more visited rules than rules in the grammars, in whatever list these are. -/
private theorem Bounded.length_visited_le (h : collector.Bounded uses) {rules : List Place}
    (hrules : ∀ definition ∈ scanned uses, ∀ site, definition.Owns site → site.place ∈ rules) :
    collector.visited.length ≤ rules.length := by
  -- A list without repetition is no longer than one that has all its members.
  refine (List.subperm_of_subset h.nodup_visited fun place hplace => ?_).length_le
  obtain ⟨definition, hdefinition, site, howns, rfl⟩ := h.exists_owns place hplace
  exact hrules definition hdefinition site howns

/-- Injected scopes are recorded without a rule, and are counted as such. -/
private theorem Bounded.addInjections (h : collector.Bounded uses) (scopes : List ScopeName) :
    (collector.addInjections scopes).Bounded (uses ++ [.inject scopes]) where
  nodup_visited := h.nodup_visited
  exists_owns := by
    have hscanned : scanned (uses ++ [.inject scopes]) = scanned uses := by
      simp [scanned, Use.definitions]
    rw [hscanned]
    exact h.exists_owns
  length_dependencies_le := by
    have hle := h.length_dependencies_le
    simp only [Collector.addInjections, List.length_append, List.length_map, List.map_append,
      List.map_singleton, List.sum_append, List.sum_singleton, Use.injected]
    omega

/-- At every step of a scan the bounds hold. -/
private theorem Bounded.walker_after (h : collector.Bounded uses) (base : Definition)
    (request : Scan)
    (steps : Nat) : ((Walker.start collector base request).after steps).collector.Bounded
      (uses ++ [.scan base request]) := by
  -- The grammars of the scan are among those of all uses.
  have hbetween : ∀ definition, request.Between base definition →
      definition ∈ scanned (uses ++ [.scan base request]) := by
    intro definition hbetween
    rw [scanned, List.flatMap_append, List.flatMap_singleton]
    exact List.mem_append_right _ (by rcases hbetween with rfl | rfl <;> simp [Use.definitions])
  -- The bounds of the uses before hold at the start, and every step keeps them.
  have hstart : (Walker.start collector base request).Bounded base (request.Between base)
      (fun place => ∃ definition ∈ scanned (uses ++ [.scan base request]), ∃ site,
        definition.Owns site ∧ site.place = place) (uses.map Use.injected).sum := by
    refine ⟨fun task htask => ?_, h.nodup_visited, fun place hplace => ?_, ?_⟩
    · obtain ⟨site, hsite, rfl⟩ := List.mem_map.1 htask
      exact ⟨Context.sound_atTop (Or.inr rfl), Scan.owns_of_mem_sites hsite⟩
    · obtain ⟨definition, hdefinition, hsite⟩ := h.exists_owns place hplace
      refine ⟨definition, ?_, hsite⟩
      rw [scanned, List.flatMap_append]
      exact List.mem_append_left _ hdefinition
    · rw [Walker.start, WalkTask.countP_isFollow_visits]
      exact h.length_dependencies_le
  have hrules := fun definition site hknown howns =>
    (⟨definition, hbetween definition hknown, site, howns, rfl⟩ :
      ∃ definition ∈ scanned (uses ++ [.scan base request]), ∃ other,
        definition.Owns other ∧ other.place = site.place)
  obtain ⟨-, hnodup, hsubset, hle⟩ := hstart.after (Or.inl rfl) hrules steps
  refine ⟨hnodup, hsubset, ?_⟩
  simp only [List.map_append, List.map_singleton, List.sum_append, List.sum_singleton,
    Use.injected]
  omega

/-- A scan with a collector ends, whatever the collector has seen before. -/
private theorem exists_after_eq_scan (collector : Collector) {base : Definition} {request : Scan}
    (hdistinct : (Use.scan base request).Distinct) :
    ∃ steps, (Walker.start collector base request).after steps =
      ⟨collector.scan base request, []⟩ := by
  rw [scan_eq_collect]
  refine @exists_after_eq base (request.Between base) (Or.inl rfl) _ _ _
    (nodup_fresh collector base request.definition)
    (fun definition site hbetween howns => mem_fresh_iff hdistinct hbetween howns)
    fun task htask => ?_
  -- A scan starts with rules of its grammar at the top level.
  obtain ⟨site, hsite, rfl⟩ := List.mem_map.1 htask
  exact ⟨Context.sound_atTop (Or.inr rfl), Scan.owns_of_mem_sites hsite⟩

/-- A use keeps the collector to its bounds. -/
private theorem Bounded.after (h : collector.Bounded uses) {use : Use} (hdistinct : use.Distinct) :
    (collector.after use).Bounded (uses ++ [use]) := by
  cases use with
  | scan base request =>
    -- The collector is what the last step of the scan leaves.
    obtain ⟨steps, hsteps⟩ := collector.exists_after_eq_scan hdistinct
    have hbounded := h.walker_after base request steps
    rwa [hsteps] at hbounded
  | inject scopes => exact h.addInjections scopes

/-- So do any number of uses. -/
private theorem bounded_afterAll (hdistinct : ∀ use ∈ uses, use.Distinct) :
    (empty.afterAll uses).Bounded uses := by
  induction uses using List.reverseRecOn with
  | nil => exact bounded_empty
  | append_singleton uses use ih =>
    rw [afterAll, List.foldl_concat]
    exact (ih fun other hother => hdistinct other (List.mem_append_left _ hother)).after
      (hdistinct use (List.mem_append_right _ (List.mem_singleton_self use)))

end

/-- With a collector that was used in any way before, every scan ends: of a whole grammar, or of one
of its rules. At every step until then the rules that were expanded are the visited ones, in order;
no rule was expanded twice since the collector was new; there are no more visited rules than rules
in the grammars that were scanned and their bases; and no more dependencies than visited rules,
apart from those that were injected. -/
theorem scan_ends (uses : List Use) (base : Definition) (request : Scan)
    (hdistinct : ∀ use ∈ uses ++ [.scan base request], use.Distinct) :
    let collector := empty.afterAll uses
    let walker := Walker.start collector base request
    (∃ steps, walker.after steps = ⟨collector.scan base request, []⟩) ∧
    ∀ steps,
      let now := (walker.after steps).collector
      now.visited = collector.visited ++
        (List.range steps).filterMap (fun step => (walker.after step).expands?) ∧
      now.visited.Nodup ∧
      (∀ rules : List Place, (∀ definition ∈ scanned (uses ++ [.scan base request]), ∀ site,
        definition.Owns site → site.place ∈ rules) → now.visited.length ≤ rules.length) ∧
      now.dependencies.length ≤ now.visited.length + (uses.map Use.injected).sum := by
  intro collector walker
  have hlast := hdistinct _ (List.mem_append_right _ (List.mem_singleton_self _))
  refine ⟨collector.exists_after_eq_scan hlast, fun steps => ?_⟩
  intro now
  -- The bounds of all uses so far hold at every step of this one.
  have hbounded := (bounded_afterAll fun use huse =>
    hdistinct use (List.mem_append_left _ huse)).walker_after base request steps
  have hle := hbounded.length_dependencies_le
  simp only [List.map_append, List.map_singleton, List.sum_append, List.sum_singleton,
    Use.injected, Nat.add_zero] at hle
  exact ⟨walker.visited_after steps, hbounded.nodup_visited,
    fun rules hrules => hbounded.length_visited_le hrules, hle⟩

open Embedded in
/-- After a scan that went round between two grammars and left out one rule, a scan of that rule
expands nothing else. -/
theorem scan_ends_at_last_rule :
    let uses : List Use := [.inject [page], .scan base (.whole current)]
    let collector := empty.afterAll uses
    let walker := Walker.start collector base (.rule current "unused")
    (∀ use ∈ uses ++ [.scan base (.rule current "unused")], use.Distinct) ∧
    (collector.scan base (.rule current "unused")).visited.length = 7 ∧
    (∃ steps, walker.after steps = ⟨collector.scan base (.rule current "unused"), []⟩) ∧
    (base.places ++ current.places).length = 7 ∧
    ∀ steps, (walker.after steps).collector.visited.length ≤ 7 ∧
      (walker.after steps).collector.dependencies.length ≤
        (walker.after steps).collector.visited.length + 1 := by
  intro uses collector walker
  -- The grammars have different scopes, so they are different ones.
  have horigin : base.origin ≠ current.origin := fun h =>
    absurd (congrArg Place.scope h) (by decide)
  have hdistinct : ∀ use ∈ uses ++ [.scan base (.rule current "unused")], use.Distinct := by
    intro use huse
    simp only [uses, List.cons_append, List.nil_append, List.mem_cons, List.not_mem_nil,
      or_false] at huse
    rcases huse with rfl | rfl | rfl
    · trivial
    · exact fun h => absurd h horigin
    · exact fun h => absurd h horigin
  have hplaces : (base.places ++ current.places).length = 7 := by cbv
  obtain ⟨hends, hbounds⟩ := scan_ends uses base (.rule current "unused") hdistinct
  refine ⟨hdistinct, by cbv, hends, hplaces, fun steps => ?_⟩
  -- Every grammar of a use is one of the two whose seven places are counted.
  obtain ⟨-, -, hvisited, hdependencies⟩ := hbounds steps
  refine ⟨hplaces ▸ hvisited _ fun definition hdefinition site howns => ?_, hdependencies⟩
  simp only [scanned, uses, Use.definitions, List.cons_append, List.nil_append, List.flatMap_cons,
    List.flatMap_nil, List.append_nil, List.mem_cons, List.not_mem_nil, or_false,
    Scan.definition] at hdefinition
  rcases hdefinition with rfl | rfl | rfl | rfl
  · exact List.mem_append_left _ howns.mem_places
  · exact List.mem_append_right _ howns.mem_places
  · exact List.mem_append_left _ howns.mem_places
  · exact List.mem_append_right _ howns.mem_places

end Collector

end Textmate
