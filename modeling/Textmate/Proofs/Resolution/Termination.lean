import Mathlib.Algebra.Order.BigOperators.Group.List
import Mathlib.Algebra.Order.Group.Nat
import Textmate.GrammarIndex
import Textmate.Proofs.Resolution.Calls
import Textmate.Proofs.Resolution.Mentions

/-!
# A resolution comes to its end

The grammars of a loader mention a number of keys, and every layer of a resolution but the first one
takes at least one of them. So a resolution goes through a bounded number of layers, whatever the
grammars include. Between two layers it waits for loads that come closer to their ends with every
turn, so the executor needs a bounded number of turns, and has a result for every resolution.

## Key results

- `Progress.keeps_counted`: a resolution goes through layers each of which requests something
- `Library.exists_results`: with as many turns the executor has results
- `Library.resolve_ends`: a resolution ends, after a bounded number of layers
- `GrammarIndex.resolve_returns`: the turns that are reckoned for an index suffice
-/

namespace Textmate

/-! ## The layers of a resolution -/

/-- A resolution is under way, and each of its layers so far requests something. -/
structure UnderWay (loader : Loader) (first : Library) (initial : ScopeName) (layers : List Layer)
    (library : Library) (run : Run) : Prop where
  history : History loader first initial layers library run
  requests_ne_nil : ∀ layer ∈ layers, layer.requests ≠ []
  layer_ne_nil : run.layer ≠ []

namespace UnderWay

variable {loader : Loader} {first library : Library} {initial : ScopeName} {layers : List Layer}
  {run : Run}

/-- The report counts the layers. -/
private theorem layers_eq (h : UnderWay loader first initial layers library run) :
    run.report.layers = layers.length := by
  rw [h.history.report_eq.2]
  rfl

/-- There are no more layers than keys to request, and one for the initial scope. -/
private theorem length_le {allowed : List Dependency} (hl : loader.MentionsOnly allowed)
    (hfirst : first.store.MentionsOnly allowed)
    (h : UnderWay loader first initial layers library run) :
    layers.length + 1 ≤ 1 + (Dependency.keys allowed).length :=
  h.history.length_le hl hfirst h.requests_ne_nil h.layer_ne_nil

end UnderWay

namespace Progress

/-- The resolution has ended with a result behind its last layer, and has gone through a number of
layers each of which requests something. -/
def EndedAfter (loader : Loader) (first : Library) (initial : ScopeName) (count : Nat)
    (library : Library) (result : Except Error Resolution) : Prop :=
  ∃ layers earlier run outcomes, UnderWay loader first initial layers earlier run ∧
    earlier.outcomes? run.scopes = some outcomes ∧
    afterLoads earlier.store run outcomes = .done result ∧
    Library.Steps loader earlier library ∧ count = layers.length + 1

/-- The layers of the resolution can be counted. -/
def Counted (loader : Loader) (first : Library) (initial : ScopeName) (library : Library) :
    Progress → Prop
  | waiting run => ∃ layers, UnderWay loader first initial layers library run
  | done result => ∃ count, EndedAfter loader first initial count library result

/-- A resolution that begins has no layers yet and requests its scope. -/
private theorem counted_start {loader : Loader} {first library : Library} (initial : ScopeName)
    (h : Library.Steps loader first library) :
    Counted loader first initial library (.waiting (.start initial)) :=
  ⟨[], History.start.loads h, fun _ h => (nomatch h), List.cons_ne_nil _ _⟩

/-- Loads and layers continue the count. -/
theorem keeps_counted (loader : Loader) (first : Library) (initial : ScopeName) :
    Keeps loader (Counted loader first initial) where
  load := by
    intro library next progress hstep hcounted
    cases progress with
    | waiting run =>
      obtain ⟨layers, h⟩ := hcounted
      exact ⟨layers, h.history.load hstep, h.requests_ne_nil, h.layer_ne_nil⟩
    | done result =>
      -- A resolution that has ended counts no further.
      obtain ⟨count, layers, earlier, run, outcomes, h, houtcomes, hend, hsteps, hcount⟩ := hcounted
      exact ⟨count, layers, earlier, run, outcomes, h, houtcomes, hend, hsteps.tail hstep, hcount⟩
  layer := by
    rintro library run outcomes ⟨layers, h⟩ houtcomes
    cases hafter : afterLoads library.store run outcomes with
    | done result => exact ⟨_, layers, library, run, outcomes, h, houtcomes, hafter, .refl, rfl⟩
    | waiting after =>
      obtain ⟨hnone, hnext, hne⟩ := afterLoads_eq_waiting hafter
      obtain ⟨base, -, -, hbase, -⟩ := Run.next_eq_ok hnext
      refine ⟨_, h.history.layer houtcomes hnone hbase hnext, fun layer hlayer => ?_, hne⟩
      rcases List.mem_append.1 hlayer with hbefore | hnow
      · exact h.requests_ne_nil layer hbefore
      · rw [List.mem_singleton.1 hnow]
        exact h.layer_ne_nil

namespace EndedAfter

variable {loader : Loader} {first library : Library} {initial : ScopeName} {count : Nat}
  {result : Except Error Resolution}

/-- A resolution that has ended has gone through as many layers at most. -/
private theorem count_le {allowed : List Dependency} (hl : loader.MentionsOnly allowed)
    (hfirst : first.store.MentionsOnly allowed)
    (h : EndedAfter loader first initial count library result) :
    count ≤ 1 + (Dependency.keys allowed).length := by
  obtain ⟨layers, earlier, run, outcomes, hunder, -, -, -, rfl⟩ := h
  exact hunder.length_le hl hfirst

/-- The report has the number of layers. -/
private theorem layers_eq (h : EndedAfter loader first initial count library result)
    {report : Resolution} (hresult : result = .ok report) : report.layers = count := by
  obtain ⟨layers, earlier, run, outcomes, hunder, -, hend, -, rfl⟩ := h
  rw [hresult] at hend
  obtain ⟨-, after, hnext, -, rfl⟩ := afterLoads_eq_ok hend
  rw [Run.layers_of_next hnext, hunder.layers_eq]

end EndedAfter

end Progress

/-! ## The end of a resolution -/

namespace Library

open Progress

variable {loader : Loader} {allowed : List Dependency} {engine : Engine} {library : Library}

/-- The resolutions of scopes go through as many layers as there are keys to request, and a load
takes as long as the slowest of the scopes that can be requested. -/
private theorem paced_counted (hl : loader.MentionsOnly allowed)
    (hlibrary : Steps loader (.empty engine) library) {scopes : List ScopeName} {delay : Nat}
    (hscopes : ∀ scope ∈ scopes, loader.delay scope ≤ delay)
    (hallowed : ∀ dependency ∈ allowed, loader.delay dependency.scope ≤ delay) :
    Paced loader (1 + (Dependency.keys allowed).length) delay fun later progress =>
      Steps loader (.empty engine) later ∧
        ∃ initial ∈ scopes, Counted loader library initial later progress := by
  have hfirst : library.store.MentionsOnly allowed :=
    Steps.mentionsOnly hl (Store.mentionsOnly_empty engine allowed) hlibrary
  refine ⟨⟨?_, ?_⟩, ?_, ?_, ?_⟩
  · rintro later next progress hstep ⟨hsteps, initial, hinitial, hcounted⟩
    exact ⟨hsteps.tail hstep, initial, hinitial,
      (keeps_counted loader library initial).load later next progress hstep hcounted⟩
  · rintro later run outcomes ⟨hsteps, initial, hinitial, hcounted⟩ houtcomes
    exact ⟨hsteps, initial, hinitial,
      (keeps_counted loader library initial).layer later run outcomes hcounted houtcomes⟩
  · exact fun later progress hkept => Steps.coherent hkept.1 (coherent_empty engine)
  · rintro later run ⟨-, initial, -, layers, hunder⟩
    have hlength := hunder.length_le hl hfirst
    rw [hunder.layers_eq]
    omega
  · rintro later run ⟨hsteps, initial, hinitial, layers, hunder⟩ scope hscope
    have htimely := (Steps.timely (timely_empty engine loader) hsteps).remaining_le scope
    have hdelay : loader.delay scope ≤ delay := by
      -- A scope of the layer is the initial one or mentioned, so its load is not slower than the
      -- slowest.
      obtain ⟨request, hrequest, rfl⟩ := Run.mem_scopes.1 hscope
      have hmem := hunder.history.requests_subset hl hfirst (List.mem_append_right _ hrequest)
      rcases List.mem_cons.1 hmem with rfl | hmentioned
      · exact hscopes initial hinitial
      · exact hallowed request hmentioned
    omega

/-- With a number of turns that the mentioned keys and the slowest load decide, the executor has
results for all scopes that are resolved at once. -/
theorem exists_results (hl : loader.MentionsOnly allowed)
    (hlibrary : Steps loader (.empty engine) library) {scopes : List ScopeName} {delay : Nat}
    (hscopes : ∀ scope ∈ scopes, loader.delay scope ≤ delay)
    (hallowed : ∀ dependency ∈ allowed, loader.delay dependency.scope ≤ delay) {limit : Nat}
    (hlimit : ((Dependency.keys allowed).length + 2) * (delay + 2) ≤ limit) :
    ∃ results, (library.resolveAll loader limit scopes).1 = some results := by
  refine (paced_counted hl hlibrary hscopes hallowed).exists_results_of_resolveAll
    (fun initial hinitial => ⟨hlibrary, initial, hinitial, counted_start initial .refl⟩) ?_
  rwa [Nat.add_comm 1]

/-- A resolution ends, also when grammars include each other and scopes without a grammar: the
executor has a result when it may take enough turns, and every result comes after at most one layer
more than there are keys in the includes and the lists of injected scopes of all grammars. -/
theorem resolve_ends {served : List ScopeName} (hserved : loader.ServesOnly served)
    (hlibrary : Steps loader (.empty engine) library) (initial : ScopeName) :
    (∃ least, ∀ limit, least ≤ limit →
      ∃ result, (library.resolve loader limit initial).1 = some result) ∧
    ∀ limit result, (library.resolve loader limit initial).1 = some result →
      ∃ count, count ≤ 1 + (Dependency.keys (loader.mentions served)).length ∧
        EndedAfter loader library initial count (library.resolve loader limit initial).2 result ∧
        ∀ report, result = .ok report → report.layers = count := by
  have hl := hserved.mentionsOnly
  constructor
  · -- Finitely many scopes can be requested, so one of their loads is the slowest one.
    obtain ⟨delay, hdelay⟩ : ∃ delay,
        ∀ scope ∈ initial :: (loader.mentions served).map (·.scope), loader.delay scope ≤ delay :=
      ⟨((initial :: (loader.mentions served).map (·.scope)).map loader.delay).max?.getD 0,
        fun scope hscope => List.le_max?_getD_of_mem (List.mem_map_of_mem hscope)⟩
    have hscopes : ∀ scope ∈ [initial], loader.delay scope ≤ delay := by
      intro scope hscope
      rw [List.mem_singleton.1 hscope]
      exact hdelay initial List.mem_cons_self
    have hmentioned : ∀ dependency ∈ loader.mentions served,
        loader.delay dependency.scope ≤ delay :=
      fun dependency hmem => hdelay _ (List.mem_cons_of_mem _ (List.mem_map_of_mem hmem))
    exact ⟨_, fun limit hlimit => exists_result_of_resolveAll
      (exists_results hl hlibrary hscopes hmentioned hlimit)⟩
  · intro limit result hresult
    -- Every layer but the first brings a key that was not requested before.
    obtain ⟨count, hended⟩ := kept_of_resolve (keeps_counted loader library initial)
      (counted_start initial .refl) limit hresult
    exact ⟨count, hended.count_le hl
      (Steps.mentionsOnly hl (Store.mentionsOnly_empty engine _) hlibrary), hended,
      fun report => hended.layers_eq⟩

/-- Two grammars include each other and themselves, a rule of a scope without a grammar, and another
scope without one that is injected. There are four keys to request. -/
theorem resolve_ends_with_cycle :
    let a : ScopeName := ⟨"source.a", by decide, by simp, by simp; decide⟩
    let b : ScopeName := ⟨"source.b", by decide, by simp, by simp; decide⟩
    let d : ScopeName := ⟨"source.d", by decide, by simp, by simp; decide⟩
    let loader := Loader.ofGrammars
      [((Grammar.empty a).addPattern (.including "source.b")).addPattern (.including "source.a"),
        ((Grammar.empty b).addPattern (.including "source.a")).addPattern
          (.including "source.c#rule")] [(a, [a, b]), (b, [d])]
    loader.ServesOnly [a, b] ∧ (Dependency.keys (loader.mentions [a, b])).length = 4 ∧
    ∃ limit result, (resolve loader limit (.empty .none) a).1 = some result ∧
      ∃ count, count ≤ 5 ∧
        EndedAfter loader (.empty .none) a count
          (resolve loader limit (.empty .none) a).2 result := by
  intro a b d loader
  have hserved : loader.ServesOnly [a, b] := Loader.servesOnly_ofGrammars _ _
  -- Seven things are mentioned, and four of them are different.
  have hmentions : (loader.mentions [a, b]).map (·.key) = ["source.b", "source.a", "source.a",
      "source.b", "source.a", "source.c#rule", "source.d"] := by cbv
  have hkeys : (Dependency.keys (loader.mentions [a, b])).length = 4 := by
    rw [Dependency.keys, hmentions]
    decide
  -- One layer more than there are keys makes five.
  obtain ⟨⟨least, hends⟩, hbound⟩ :=
    resolve_ends hserved (Relation.ReflTransGen.refl (a := Library.empty .none)) a
  obtain ⟨result, hresult⟩ := hends least (Nat.le_refl _)
  obtain ⟨count, hcount, hended, -⟩ := hbound least result hresult
  rw [hkeys] at hcount
  exact ⟨hserved, hkeys, least, result, hresult, count, hcount, hended⟩

/-! ## How many turns suffice -/

/-- The turns that are reckoned for grammars, lists of injected scopes and a greatest delay suffice
for a loader that has nothing else. -/
private theorem exists_results_of_turnLimit {grammars : List Grammar}
    {injections : List (List ScopeName)}
    {delay : Nat} (hanswer : ∀ scope grammar, loader.answer scope = .grammar grammar →
      grammar ∈ grammars ∧ (loader.injections scope = [] ∨ loader.injections scope ∈ injections))
    (hdelay : ∀ scope, loader.delay scope ≤ delay) (hlibrary : Steps loader (.empty engine) library)
    (scopes : List ScopeName) {limit : Nat}
    (hlimit : Loader.turnLimit grammars injections delay ≤ limit) :
    ∃ results, (library.resolveAll loader limit scopes).1 = some results := by
  have hl : loader.MentionsOnly
      (grammars.flatMap Grammar.mentions ++ injections.flatten.map .whole) := by
    refine ⟨fun scope grammar h dependency hmem => ?_, fun scope grammar h other hother => ?_⟩
    · exact List.mem_append_left _ (List.mem_flatMap.2 ⟨grammar, (hanswer scope grammar h).1, hmem⟩)
    · refine List.mem_append_right _ (List.mem_map_of_mem (List.mem_flatten.2 ?_))
      rcases (hanswer scope grammar h).2 with hnil | hmem
      · rw [hnil] at hother
        cases hother
      · exact ⟨_, hmem, hother⟩
  refine exists_results hl hlibrary (fun scope _ => hdelay scope) (fun _ _ => hdelay _)
    (Nat.le_trans (Nat.mul_le_mul_right _ ?_) hlimit)
  -- There are no more keys than rules and injected scopes.
  have hkeys := (List.dedup_sublist ((grammars.flatMap Grammar.mentions ++
    injections.flatten.map Dependency.whole).map (·.key))).length_le
  -- A rule includes one thing at most, and every rule has a place.
  have hrules : (grammars.flatMap Grammar.mentions).length ≤
      (grammars.flatMap fun grammar => (Definition.mk 0 grammar).places).length := by
    rw [List.length_flatMap, List.length_flatMap]
    exact List.sum_le_sum fun grammar _ => List.length_filterMap_le _ _
  simp only [List.length_map, List.length_append] at hkeys
  unfold Dependency.keys
  omega

end Library

/-- The turns that are reckoned for an index suffice to resolve any scope. -/
theorem GrammarIndex.resolve_returns (index : GrammarIndex) (files : Files)
    (injections : InjectionTable) (engine : Engine) (scope : ScopeName) :
    ∃ result, ((Registry.empty (index.loader files injections) (index.turnLimit files injections)
      engine).resolve scope).1 = some result := by
  suffices hresults : ∃ results, ((Library.empty engine).resolveAll
      (index.loader files injections) (index.turnLimit files injections) [scope]).1 =
        some results from Library.exists_result_of_resolveAll hresults
  refine Library.exists_results_of_turnLimit (fun other grammar hanswer => ?_)
    (fun _ => Nat.le_refl _) .refl _ (Nat.le_refl _)
  have hload : index.load files other = .ok (some grammar) := by
    simp only [loader] at hanswer
    split at hanswer <;> cases hanswer
    assumption
  refine ⟨List.mem_filterMap.2 ⟨other, ?_, by rw [hload]⟩, ?_⟩
  · -- A scope with a grammar is in the index.
    refine (Dict.mem_keys_iff_find? _ _).2 ?_
    unfold load at hload
    split at hload
    · cases hload
    · exact ⟨_, ‹_›⟩
  · -- The scopes injected into it are one of the lists of the table.
    change injections.injectedInto other = [] ∨
      injections.injectedInto other ∈ Dict.values injections
    unfold InjectionTable.injectedInto
    cases hfind : Dict.find? other injections with
    | none => exact Or.inl rfl
    | some listed => exact Or.inr (List.mem_map_of_mem (f := (·.2)) (Dict.mem_of_find? hfind))

/-! ## Calls at the same time -/

/-- Whatever goes on over the library beside it, a call that returns has gone through no more layers
than there are keys to request, and one for its own scope. -/
theorem Calls.ended_of_returned {loader : Loader} {allowed : List Dependency}
    (hl : loader.MentionsOnly allowed) {library : Library}
    (hlibrary : library.store.MentionsOnly allowed) (events : List Event) {call : Nat}
    {initial : ScopeName} {result : Except Error Resolution}
    (h : (after loader library events).Returned call initial result) :
    ∃ count, count ≤ 1 + (Dependency.keys allowed).length ∧
      Progress.EndedAfter loader library initial count (after loader library events).library
        result := by
  -- Loads and layers continue the count, whichever call they belong to.
  have hall := all_after (fun scope => Progress.keeps_counted loader library scope)
    (fun scope _ => Progress.counted_start scope) events
  obtain ⟨count, hended⟩ := hall.kept _ (List.mem_of_getElem? h) _ rfl
  exact ⟨count, hended.count_le hl hlibrary, hended⟩

end Textmate
