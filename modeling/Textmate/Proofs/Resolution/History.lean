import Mathlib.Data.List.Chain
import Textmate.Proofs.Resolution.Accounts
import Textmate.Proofs.Resolution.Layers

/-!
# The history of a resolution

A history is all that has happened to a resolution: the loads that have changed the library, its own
and those of others, and the layers that it has gone through. The layers tell what was requested and
what is reported, and each of them tells where the requests of the next one come from.

## Key results

- `History.report_eq`, `History.requested_eq`: the layers decide the report and what was requested
- `History.chain`: a layer requests what the layer before it has found
- `History.nodup_requests`: nothing is requested twice
- `History.partsBeforeWholes`: no rule is requested in a later layer than its whole grammar
-/

namespace Textmate

/-! ## What is selected -/

namespace Requested

/-- What a list of dependencies requests. -/
def of (requests : List Dependency) : Requested :=
  ⟨Dependency.wholes requests, Dependency.partKeys requests⟩

/-- Something is covered when it was requested, or when the whole grammar of a rule was. -/
theorem covers_of_iff {requests : List Dependency} {dependency : Dependency} :
    (of requests).Covers dependency ↔ dependency ∈ requests ∨
      ∃ scope name, dependency = .part scope name ∧ .whole scope ∈ requests := by
  cases dependency with
  | whole scope => simp [Covers, of, Dependency.mem_wholes]
  | part scope name =>
    simp only [Covers, of, Dependency.mem_wholes, Dependency.key_mem_partKeys]
    -- A rule is covered by its own request or by that of its whole grammar.
    constructor
    · rintro (hwhole | hpart)
      · exact Or.inr ⟨scope, name, rfl, hwhole⟩
      · exact Or.inl hpart
    · rintro (hpart | ⟨other, found, heq, hwhole⟩)
      · exact Or.inr hpart
      · cases heq
        exact Or.inl hwhole

/-- Requests that are added one by one are requested along with those before them. -/
private theorem foldl_add_of (requests more : List Dependency) :
    more.foldl add (of requests) = of (requests ++ more) := by
  rw [foldl_add]
  simp only [of, Dependency.wholes, Dependency.partKeys, List.filter_append, List.map_append]

end Requested

/-! ## Histories -/

/-- What has happened to the resolution of a scope that began with a library: its layers so far, and
the library and the state to which it has come. -/
inductive History (loader : Loader) (first : Library) (initial : ScopeName) :
    List Layer → Library → Run → Prop
  | start : History loader first initial [] first (.start initial)
  /-- A load has changed the library, for this resolution or for others. -/
  | load {layers : List Layer} {library next : Library} {run : Run}
    (h : History loader first initial layers library run)
    (hstep : Library.Step loader library next) : History loader first initial layers next run
  /-- All loads of a layer have ended, and none of them has failed. -/
  | layer {layers : List Layer} {library : Library} {run after : Run} {base : Definition}
    {outcomes : List Outcome} (h : History loader first initial layers library run)
    (houtcomes : library.outcomes? run.scopes = some outcomes)
    (hnone : Progress.firstFailure outcomes = none)
    (hbase : run.base.or (library.store.lookup run.initial) = some base)
    (hnext : run.next library.store = .ok after) :
    History loader first initial (layers ++ [run.layerIn library.store base]) library after

namespace History

variable {loader : Loader} {first library : Library} {initial : ScopeName} {layers : List Layer}
  {run : Run}

/-- The library has changed by loads alone. -/
theorem steps (h : History loader first initial layers library run) :
    Library.Steps loader first library := by
  induction h with
  | start => exact .refl
  | load _ hstep ih => exact ih.tail hstep
  | layer _ _ _ _ _ ih => exact ih

/-- Any number of loads may go on in a history. -/
theorem loads (h : History loader first initial layers library run) {next : Library}
    (hsteps : Library.Steps loader library next) :
    History loader first initial layers next run :=
  hsteps.keep (History loader first initial layers · run) h fun _ _ hstep h => h.load hstep

/-- The load of every request of a layer has ended. -/
theorem exists_outcome (h : History loader first initial layers library run) {layer : Layer}
    (hlayer : layer ∈ layers) {request : Dependency} (hrequest : request ∈ layer.requests) :
    ∃ outcome, library.outcome? request.scope = some outcome := by
  induction h with
  | start => cases hlayer
  | load _ hstep ih =>
    obtain ⟨outcome, houtcome⟩ := ih hlayer
    exact ⟨outcome, hstep.outcome_eq houtcome⟩
  | layer _ houtcomes _ _ _ ih =>
    rcases List.mem_append.1 hlayer with hbefore | hnow
    · exact ih hbefore
    · rw [List.mem_singleton.1 hnow] at hrequest
      -- The layer that has just ended has an outcome for each of its scopes.
      obtain ⟨outcome, -, houtcome⟩ := (List.mapM_eq_some_iff.1 houtcomes).exists_of_mem
        (Run.mem_scopes.2 ⟨request, hrequest, rfl⟩)
      exact ⟨outcome, houtcome⟩

/-- A layer has for the scopes of its requests what an honest loader answers. -/
theorem agrees (hl : loader.Honest) (hr : first.Reflects loader)
    (h : History loader first initial layers library run) {layer : Layer} (hlayer : layer ∈ layers)
    {request : Dependency} (hrequest : request ∈ layer.requests) :
    layer.store.Agrees loader request.scope := by
  induction h with
  | start => cases hlayer
  | load _ _ ih => exact ih hlayer
  | layer h houtcomes _ _ _ ih =>
    rcases List.mem_append.1 hlayer with hbefore | hnow
    · exact ih hbefore
    · rw [List.mem_singleton.1 hnow] at hrequest ⊢
      -- A load that has ended leaves the answer of the loader in the store.
      exact (Library.Steps.reflects hl hr h.steps).agrees_of_outcomes? houtcomes
        (Run.mem_scopes.2 ⟨request, hrequest, rfl⟩)

/-- The layers decide what is reported. -/
theorem report_eq (h : History loader first initial layers library run) :
    run.initial = initial ∧
      run.report = .ofRequests initial layers.length (layers.flatMap (·.present))
        (layers.flatMap (·.absent)) := by
  induction h with
  | start => exact ⟨rfl, rfl⟩
  | load _ _ ih => exact ih
  | layer _ _ _ hbase hnext ih =>
    obtain ⟨rfl, hreport⟩ := ih
    obtain ⟨-, rfl⟩ := Run.next_eq_ok_of_report hbase hreport hnext
    simp

/-- The initial scope has a grammar in every layer that requests it. -/
theorem scope_ne_initial (h : History loader first initial layers library run) {layer : Layer}
    (hlayer : layer ∈ layers) {request : Dependency} (habsent : request ∈ layer.absent) :
    request.scope ≠ initial := by
  induction h with
  | start => cases hlayer
  | load _ _ ih => exact ih hlayer
  | layer h _ _ hbase hnext ih =>
    -- The scans of the last layer would have failed.
    rcases List.mem_append.1 hlayer with hbefore | hnow
    · exact ih hbefore
    · obtain ⟨rfl, hreport⟩ := h.report_eq
      rw [List.mem_singleton.1 hnow] at habsent
      exact (Run.next_eq_ok_of_report hbase hreport hnext).1 request habsent

/-- The next layer is a selection from what the layer finds. -/
theorem selection (h : History loader first initial layers library run) {after : Run}
    {base : Definition} (hbase : run.base.or (library.store.lookup run.initial) = some base)
    (hnext : run.next library.store = .ok after) :
    run.requested.Selection (run.layerIn library.store base).found.dependencies after.layer
      after.requested := by
  obtain ⟨rfl, hreport⟩ := h.report_eq
  obtain ⟨-, rfl⟩ := Run.next_eq_ok_of_report hbase hreport hnext
  exact Requested.selection_select _ _

/-- What was requested are the requests of the layers so far and of the one under way. -/
theorem requested_eq (h : History loader first initial layers library run) :
    run.requested = .of (layers.flatMap (·.requests) ++ run.layer) := by
  induction h with
  | start => rfl
  | load _ _ ih => exact ih
  | layer h _ _ hbase hnext ih =>
    -- The selected requests are added to all earlier ones.
    rw [(h.selection hbase hnext).all_eq, ih, Requested.foldl_add_of, List.flatMap_append,
      List.flatMap_cons, List.flatMap_nil, List.append_nil]
    rfl

/-- The first layer requests the initial scope. -/
theorem head?_eq (h : History loader first initial layers library run) :
    (layers.map (·.requests) ++ [run.layer]).head? = some [.whole initial] := by
  induction h with
  | start => rfl
  | load _ _ ih => exact ih
  | layer _ _ _ _ _ ih =>
    rw [List.map_append, List.map_cons, List.map_nil, List.head?_append]
    simpa [Run.layerIn] using ih

/-- A layer requests what the layer before it has found. -/
theorem chain (h : History loader first initial layers library run) :
    layers.IsChain (fun earlier later => later.requests ⊆ earlier.found.dependencies) ∧
      ∀ last ∈ layers.getLast?, run.layer ⊆ last.found.dependencies := by
  induction h with
  | start => exact ⟨.nil, fun _ h => nomatch h⟩
  | load _ _ ih => exact ih
  | layer h _ _ hbase hnext ih =>
    refine ⟨List.isChain_append.2 ⟨ih.1, .singleton _, fun last hlast next hhead => ?_⟩,
      fun last hlast => ?_⟩
    · -- The new layer comes last, and its requests were selected from what the one before it found.
      cases hhead
      exact ih.2 last hlast
    · rw [List.getLast?_append_of_ne_nil _ (List.cons_ne_nil _ _), List.getLast?_singleton] at hlast
      cases hlast
      exact (h.selection hbase hnext).subset

/-- What a layer finds was requested before or is in the next layer. -/
theorem covers_found (h : History loader first initial layers library run) {layer : Layer}
    (hlayer : layer ∈ layers) {dependency : Dependency}
    (hfound : dependency ∈ layer.found.dependencies) : run.requested.Covers dependency := by
  induction h with
  | start => cases hlayer
  | load _ _ ih => exact ih hlayer
  | layer h _ _ hbase hnext ih =>
    -- What was covered stays so, and the next layer is selected from what was found.
    have hselection := h.selection hbase hnext
    rcases List.mem_append.1 hlayer with hbefore | hnow
    · exact (hselection.all_eq ▸ Requested.extends_foldl_add _ _).covers (ih hbefore)
    · rw [List.mem_singleton.1 hnow] at hfound
      exact hselection.covers dependency hfound

/-- Nothing is requested twice. -/
theorem nodup_requests (h : History loader first initial layers library run) :
    (layers.flatMap (·.requests) ++ run.layer).Nodup := by
  induction h with
  | start => exact List.nodup_singleton _
  | load _ _ ih => exact ih
  | layer h _ _ hbase hnext ih =>
    have hselection := h.selection hbase hnext
    rw [List.flatMap_append, List.flatMap_cons, List.flatMap_nil, List.append_nil]
    -- A selection has nothing twice and nothing that was requested before.
    refine List.nodup_append'.2 ⟨ih, hselection.nodup, fun dependency hbefore hselected => ?_⟩
    refine hselection.fresh dependency hselected ?_
    rw [h.requested_eq]
    exact Requested.covers_of_iff.2 (Or.inl hbefore)

/-- No rule is requested in a later layer than its whole grammar. -/
theorem partsBeforeWholes (h : History loader first initial layers library run) :
    (layers.map (·.requests) ++ [run.layer]).Pairwise fun earlier later =>
      ∀ scope name, .whole scope ∈ earlier → .part scope name ∉ later := by
  induction h with
  | start => exact List.pairwise_singleton _ _
  | load _ _ ih => exact ih
  | layer h _ _ hbase hnext ih =>
    rename_i layers library run after base outcomes
    rw [List.map_append, List.map_cons, List.map_nil]
    refine List.pairwise_append.2 ⟨ih, List.pairwise_singleton _ _, ?_⟩
    -- What the new layer requests was not covered by the requests so far.
    intro earlier hearlier later hlater scope name hwhole hpart
    rw [List.mem_singleton.1 hlater] at hpart
    refine (h.selection hbase hnext).fresh _ hpart ?_
    rw [h.requested_eq]
    refine Requested.covers_of_iff.2 (Or.inr ⟨scope, name, rfl, ?_⟩)
    rcases List.mem_append.1 hearlier with hbefore | hnow
    · obtain ⟨layer, hlayer, rfl⟩ := List.mem_map.1 hbefore
      exact List.mem_append_left _ (List.mem_flatMap.2 ⟨layer, hlayer, hwhole⟩)
    · rw [List.mem_singleton.1 hnow] at hwhole
      exact List.mem_append_right _ hwhole

end History

end Textmate
