import Mathlib.Data.List.Flatten
import Textmate.Proofs.Resolution.Requests

/-!
# What a report says

On a fresh registry a resolution is the only one to ask the loader. The scopes that it reports are
then all for which the loader was asked, and its report lists none of them twice.

## Key results

- `Progress.Alone`: what a resolution keeps that goes on alone
- `Registry.report_consistent`: a report on a fresh registry says what the loader was asked for
-/

namespace Textmate

/-- A list keeps its first element when others are added behind it. -/
private theorem head?_foldl_addNew {α : Type} [DecidableEq α] (first : α) (list more : List α) :
    (more.foldl addNew (first :: list)).head? = some first := by
  induction more generalizing list with
  | nil => rfl
  | cons a more ih =>
    rw [List.foldl_cons, addNew]
    split
    · exact ih list
    · exact ih (list ++ [a])

/-! ## A resolution alone -/

/-- A resolution has gone on alone: its cache has loads for the scopes of its requests only. -/
def Progress.Alone (loader : Loader) (engine : Engine) (initial : ScopeName) (library : Library)
    (progress : Progress) : Prop :=
  progress.Holds fun run => ∃ layers,
    History loader (.empty engine) initial layers library run ∧
      ∀ scope ∈ Dict.keys library.cache.loads,
        ∃ request ∈ layers.flatMap (·.requests) ++ run.layer, request.scope = scope

/-- A resolution on a fresh library ends alone. -/
private theorem Library.alone_of_resolve {loader : Loader} {limit : Nat} {engine : Engine}
    {initial : ScopeName} {result : Except Error Resolution}
    (h : ((Library.empty engine).resolve loader limit initial).1 = some result) :
    (Progress.done result).Alone loader engine initial
      ((Library.empty engine).resolve loader limit initial).2 := by
  refine kept_of_resolve_alone ?_ ?_ ?_ ⟨[], .start, fun _ h => nomatch h⟩ limit h
  · -- What the resolution waits for are the scopes of its layer.
    rintro library run ⟨layers, hhistory, hkeys⟩
    refine ⟨layers, hhistory.loads (library.steps_awaitAll loader run.scopes),
      fun scope hscope => ?_⟩
    rcases mem_keys_awaitAll_iff.1 hscope with hwaited | hbefore
    · obtain ⟨request, hrequest, hscope⟩ := Run.mem_scopes.1 hwaited
      exact ⟨request, List.mem_append_right _ hrequest, hscope⟩
    · exact hkeys scope hbefore
  · -- A turn of the executor asks for nothing new.
    intro library progress halone
    refine halone.imp fun run ⟨layers, hhistory, hkeys⟩ => ?_
    refine ⟨layers, hhistory.loads (library.steps_turn loader), ?_⟩
    rwa [keys_turn]
  · -- The requests of the layer that is left behind are part of the history.
    rintro library run outcomes ⟨layers, hhistory, hkeys⟩ houtcomes
    refine Progress.holds_afterLoads fun after hnone hnext => ?_
    obtain ⟨base, -, -, hbase, -⟩ := Run.next_eq_ok hnext
    refine ⟨_, hhistory.layer houtcomes hnone hbase hnext, fun scope hscope => ?_⟩
    obtain ⟨request, hrequest, heq⟩ := hkeys scope hscope
    refine ⟨request, List.mem_append_left _ ?_, heq⟩
    rw [List.flatMap_append, List.flatMap_cons, List.flatMap_nil, List.append_nil]
    exact hrequest

/-! ## Reports -/

/-- What a report lists fits together, and it fits what the loader was asked for. -/
structure Resolution.Consistent (report : Resolution) (initial : ScopeName) (cache : Cache) :
    Prop where
  loaded_nodup : report.loaded.Nodup
  whole_nodup : report.whole.Nodup
  parts_nodup : report.parts.Nodup
  missing_nodup : report.missing.Nodup
  disjoint : report.loaded.Disjoint report.missing
  /-- The loader was asked once for every reported scope, and for no other one. -/
  asked : ∀ scope, cache.fetched.count scope =
    if scope ∈ report.loaded ∨ scope ∈ report.missing then 1 else 0
  fetchCount_eq : cache.fetchCount = report.loaded.length + report.missing.length
  /-- A scope is loaded when its grammar or one of its rules was scanned. -/
  mem_loaded_iff : ∀ scope, scope ∈ report.loaded ↔
    scope ∈ report.whole ∨ ∃ name, (Dependency.part scope name).key ∈ report.parts
  /-- What is scanned besides whole grammars are rules of scopes. -/
  parts_keys : ∀ key ∈ report.parts, ∃ scope name, (Dependency.part scope name).key = key
  head_loaded : report.loaded.head? = some initial
  head_whole : report.whole.head? = some initial

namespace History

variable {loader : Loader} {first library : Library} {initial : ScopeName} {layers : List Layer}
  {run : Run}

/-- The initial scope is the first one that has a grammar. -/
private theorem exists_present_eq (h : History loader first initial layers library run)
    (hempty : run.layer = []) :
    ∃ rest, layers.flatMap (·.present) = .whole initial :: rest := by
  have hhead := h.head?_eq
  rw [hempty] at hhead
  cases layers with
  | nil => cases hhead
  | cons layer layers =>
    have hrequests : layer.requests = [.whole initial] := Option.some.inj hhead
    have hpresent : layer.present = [.whole initial] := by
      cases hlookup : layer.store.lookup initial with
      | none =>
        -- Without a grammar for the initial scope the resolution would have failed.
        have habsent : .whole initial ∈ layer.absent := by
          rw [Layer.absent, hrequests]
          simp [Dependency.scope, hlookup]
        exact absurd rfl (h.scope_ne_initial List.mem_cons_self habsent)
      | some definition =>
        rw [Layer.present, hrequests]
        simp [Dependency.scope, hlookup]
    exact ⟨layers.flatMap (·.present), by rw [List.flatMap_cons, hpresent]; rfl⟩

/-- A scope that has a grammar in one layer has it in every layer. -/
private theorem present_disjoint_absent (hl : loader.Honest) (hr : first.Reflects loader)
    (h : History loader first initial layers library run) {present absent : Dependency}
    (hpresent : present ∈ layers.flatMap (·.present))
    (habsent : absent ∈ layers.flatMap (·.absent)) : present.scope ≠ absent.scope := by
  obtain ⟨layer, hlayer, hpresent⟩ := List.mem_flatMap.1 hpresent
  obtain ⟨other, hother, habsent⟩ := List.mem_flatMap.1 habsent
  obtain ⟨hrequest, hsome⟩ := List.mem_filter.1 hpresent
  obtain ⟨hotherRequest, hnone⟩ := List.mem_filter.1 habsent
  -- In both layers the store had what the loader answers.
  rw [(h.agrees hl hr hlayer hrequest).lookup_eq] at hsome
  rw [(h.agrees hl hr hother hotherRequest).lookup_eq] at hnone
  intro heq
  rw [heq, Option.isNone_iff_eq_none.1 hnone] at hsome
  cases hsome

/-- The reported scopes are those of the requests. -/
private theorem reported_iff (h : History loader first initial layers library run)
    {scope : ScopeName} :
    (scope ∈ run.report.loaded ∨ scope ∈ run.report.missing) ↔
      ∃ request ∈ layers.flatMap (·.requests), request.scope = scope := by
  simp only [h.report_eq.2, Resolution.mem_loaded_ofRequests, Resolution.mem_missing_ofRequests,
    Layer.mem_requests_iff, or_and_right, exists_or]

/-- Nothing that has a grammar was requested twice. -/
private theorem nodup_present (h : History loader first initial layers library run) :
    (layers.flatMap (·.present)).Nodup :=
  (List.nodup_append.1 h.nodup_requests).1.sublist
    (List.Sublist.flatMap_right layers fun _ _ => List.filter_sublist)

/-- When a resolution that has gone on alone has ended, the loader was asked for the reported
scopes. -/
private theorem mem_fetched_iff (hc : library.Coherent)
    (h : History loader first initial layers library run) (hempty : run.layer = [])
    (hkeys : ∀ scope ∈ Dict.keys library.cache.loads,
      ∃ request ∈ layers.flatMap (·.requests) ++ run.layer, request.scope = scope)
    (scope : ScopeName) : scope ∈ library.cache.fetched ↔
      scope ∈ run.report.loaded ∨ scope ∈ run.report.missing := by
  rw [h.reported_iff, hc.mem_fetched_iff]
  rw [hempty, List.append_nil] at hkeys
  constructor
  · rintro ⟨phase, hphase, -⟩
    exact hkeys scope ((Dict.mem_keys_iff_find? _ _).2 ⟨phase, hphase⟩)
  · -- The load of a request has ended, so it was started.
    rintro ⟨request, hrequest, rfl⟩
    obtain ⟨layer, hlayer, hmem⟩ := List.mem_flatMap.1 hrequest
    obtain ⟨outcome, houtcome⟩ := h.exists_outcome hlayer hmem
    obtain ⟨phase, hphase, hended⟩ := Option.bind_eq_some_iff.1 houtcome
    exact ⟨phase, hphase, Phase.isStarted_of_outcome? hended⟩

/-- What a resolution reports that has ended fits together, and it fits what the loader was asked
for if that are the reported scopes. -/
private theorem consistent (hl : loader.Honest) (hr : first.Reflects loader)
    (h : History loader first initial layers library run) (hempty : run.layer = [])
    (hnodup : library.cache.fetched.Nodup)
    (hfetched : ∀ scope, scope ∈ library.cache.fetched ↔
      scope ∈ run.report.loaded ∨ scope ∈ run.report.missing) :
    run.report.Consistent initial library.cache := by
  -- The first request with a grammar is the one for the initial scope.
  obtain ⟨rest, hpresent⟩ := h.exists_present_eq hempty
  have hloaded : run.report.loaded.Nodup := by
    rw [h.report_eq.2]
    exact Resolution.nodup_loaded_ofRequests
  have hmissing : run.report.missing.Nodup := by
    rw [h.report_eq.2]
    exact Resolution.nodup_missing_ofRequests
  -- A scope with and without a grammar would have two answers of one loader.
  have hdisjoint : run.report.loaded.Disjoint run.report.missing := by
    rw [h.report_eq.2]
    intro scope hin hout
    obtain ⟨present, hpresent, hscope⟩ := Resolution.mem_loaded_ofRequests.1 hin
    obtain ⟨absent, habsent, rfl⟩ := Resolution.mem_missing_ofRequests.1 hout
    exact h.present_disjoint_absent hl hr hpresent habsent hscope
  exact {
    loaded_nodup := hloaded
    whole_nodup := by
      rw [h.report_eq.2]
      exact Dependency.nodup_wholes h.nodup_present
    parts_nodup := by
      rw [h.report_eq.2]
      exact Dependency.nodup_partKeys h.nodup_present
    missing_nodup := hmissing
    disjoint := hdisjoint
    asked := by
      intro scope
      rw [hnodup.count]
      simp only [hfetched]
    fetchCount_eq := by
      -- The loader was asked for the reported scopes, in whatever order.
      have hperm := (List.perm_ext_iff_of_nodup hnodup (hloaded.append hmissing hdisjoint)).2
        fun scope => by rw [hfetched, List.mem_append]
      rw [Cache.fetchCount, hperm.length_eq, List.length_append]
    mem_loaded_iff := by
      intro scope
      rw [h.report_eq.2]
      exact Resolution.mem_loaded_ofRequests_iff
    parts_keys := by
      intro key hkey
      rw [h.report_eq.2] at hkey
      obtain ⟨scope, name, -, heq⟩ := Dependency.mem_partKeys.1 hkey
      exact ⟨scope, name, heq⟩
    head_loaded := by
      rw [h.report_eq.2, hpresent]
      exact head?_foldl_addNew initial [] _
    head_whole := by
      rw [h.report_eq.2, hpresent]
      rfl }

end History

/-- The report of a resolution on a fresh registry whose loader answers every scope with a grammar
of that scope, if any: its lists have no scope or rule twice, and have the scopes for which the
loader was asked; and no rule was requested in a later layer than its whole grammar. -/
theorem Registry.report_consistent {loader : Loader} (hl : loader.Honest) (limit : Nat)
    (engine : Engine) (initial : ScopeName) (report : Resolution)
    (h : ((Registry.empty loader limit engine).resolve initial).1 = some (.ok report)) :
    let registry := ((Registry.empty loader limit engine).resolve initial).2
    report.Consistent initial registry.cache ∧
      ∃ layers, Completes loader (.empty engine) initial layers registry.library report ∧
        layers.Pairwise fun earlier later =>
          ∀ scope name, .whole scope ∈ earlier.requests → .part scope name ∉ later.requests := by
  intro registry
  obtain ⟨run, ⟨layers, hhistory, hkeys⟩, hempty, rfl⟩ := Library.alone_of_resolve h
  have hc : registry.library.Coherent :=
    hhistory.steps.coherent (Library.coherent_empty engine)
  refine ⟨hhistory.consistent hl (Library.reflects_empty loader engine) hempty hc.fetched_nodup
    (hhistory.mem_fetched_iff hc hempty hkeys), layers, ⟨run, hhistory, hempty, rfl⟩, ?_⟩
  -- The layer under way is left out, for it is empty at the end.
  exact List.pairwise_map.1 (List.pairwise_append.1 hhistory.partsBeforeWholes).1

/-- A rule of a grammar is requested, and in the layer behind it the whole grammar, which is
injected into itself together with a scope that has no grammar. -/
theorem Registry.report_consistent_with_missing_scope :
    let a : ScopeName := ⟨"source.a", by decide, by simp, by simp; decide⟩
    let b : ScopeName := ⟨"source.b", by decide, by simp, by simp; decide⟩
    let c : ScopeName := ⟨"source.c", by decide, by simp, by simp; decide⟩
    let loader := Loader.ofGrammars
      [(Grammar.empty a).addPattern (.including "source.b#name"),
        (Grammar.empty b).setRule "name" (.including "source.c")] [(b, [b, c])]
    let registry := ((Registry.empty loader 20 .none).resolve a).2
    let report : Resolution := ⟨some a, 3, [a, b], [a, b], ["source.b#name"], [c]⟩
    loader.Honest ∧ ((Registry.empty loader 20 .none).resolve a).1 = some (.ok report) ∧
      report.Consistent a registry.cache ∧
      ∃ layers, Completes loader (.empty .none) a layers registry.library report ∧
        layers.Pairwise fun earlier later =>
          ∀ scope name, .whole scope ∈ earlier.requests → .part scope name ∉ later.requests := by
  intro a b c loader registry report
  have hl : loader.Honest := Loader.honest_ofGrammars _ _
  have hresolve : ((Registry.empty loader 20 .none).resolve a).1 = some (.ok report) := by cbv
  exact ⟨hl, hresolve, Registry.report_consistent hl 20 .none a report hresolve⟩

end Textmate
