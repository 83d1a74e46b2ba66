import Textmate.Proofs.Collector.Closed
import Textmate.Proofs.Collector.Records
import Textmate.Proofs.Resolution.Turns

/-!
# The layers of a resolution

A layer is a list of requests, the store behind their loads, and the base. Its scans note what the
rules that they visit ask for, and the scopes injected into what they have scanned; what is reported
depends only on which of the requests have a grammar in the store.

## Key results

- `Layer.byRule_or_byInjection`: what a layer finds are the requests of its rules and the injected
  scopes
- `Run.next_eq_ok_of_report`: a layer leads to the next one by what it finds and reports
-/

namespace Textmate

/-! ## Lists without repeated elements -/

section

variable {α : Type} [DecidableEq α]

/-- What is added only if it is new is not repeated. -/
private theorem nodup_addNew {list : List α} (h : list.Nodup) (a : α) : (addNew list a).Nodup := by
  unfold addNew
  split
  · exact h
  · rename_i hmem
    exact List.nodup_append.2 ⟨h, List.nodup_singleton a, fun b hb c hc heq =>
      hmem (List.mem_singleton.1 hc ▸ heq ▸ hb)⟩

/-- Nor is anything repeated after several additions. -/
private theorem nodup_foldl_addNew {list : List α} (h : list.Nodup) (more : List α) :
    (more.foldl addNew list).Nodup := by
  induction more generalizing list with
  | nil => exact h
  | cons a more ih => exact ih (nodup_addNew h a)

/-- After several additions there is what was there and what was added. -/
private theorem mem_foldl_addNew {list more : List α} {a : α} :
    a ∈ more.foldl addNew list ↔ a ∈ list ∨ a ∈ more := by
  induction more generalizing list with
  | nil => simp
  | cons b more ih => rw [List.foldl_cons, ih, mem_addNew, List.mem_cons, or_assoc]

end

/-! ## What is requested and reported -/

namespace Dependency

/-- The scopes among dependencies that are to be there as a whole. -/
def wholes (dependencies : List Dependency) : List ScopeName :=
  (dependencies.filter (·.isWhole)).map (·.scope)

/-- The keys of the rules among dependencies. -/
def partKeys (dependencies : List Dependency) : List String :=
  (dependencies.filter (!·.isWhole)).map (·.key)

variable {dependencies : List Dependency}

/-- A scope is among the whole ones when a dependency is on its whole grammar. -/
theorem mem_wholes {scope : ScopeName} :
    scope ∈ wholes dependencies ↔ .whole scope ∈ dependencies := by
  simp only [wholes, List.mem_map, List.mem_filter]
  constructor
  · rintro ⟨dependency, ⟨hmem, hwhole⟩, rfl⟩
    -- A dependency on a rule was filtered out.
    cases dependency with
    | whole scope => exact hmem
    | part scope name => cases hwhole
  · exact fun hmem => ⟨.whole scope, ⟨hmem, rfl⟩, rfl⟩

/-- A key is among those of rules when a dependency on a rule has it. -/
theorem mem_partKeys {key : String} :
    key ∈ partKeys dependencies ↔
      ∃ scope name, .part scope name ∈ dependencies ∧ (part scope name).key = key := by
  simp only [partKeys, List.mem_map, List.mem_filter]
  constructor
  · rintro ⟨dependency, ⟨hmem, hpart⟩, rfl⟩
    cases dependency with
    | whole scope => cases hpart
    | part scope name => exact ⟨scope, name, hmem, rfl⟩
  · rintro ⟨scope, name, hmem, rfl⟩
    exact ⟨.part scope name, ⟨hmem, rfl⟩, rfl⟩

/-- The key of a rule is there when the dependency is, as no other dependency has the key. -/
theorem key_mem_partKeys {scope : ScopeName} {name : String} :
    (part scope name).key ∈ partKeys dependencies ↔ .part scope name ∈ dependencies := by
  rw [mem_partKeys]
  constructor
  · rintro ⟨other, found, hmem, hkey⟩
    -- The key determines the scope and the rule.
    rwa [← key_inj.1 hkey]
  · exact fun hmem => ⟨scope, name, hmem, rfl⟩

/-- Different dependencies on whole grammars are on different scopes. -/
theorem nodup_wholes (h : dependencies.Nodup) : (wholes dependencies).Nodup := by
  refine (h.filter _).map_on fun a ha b hb hscope => ?_
  -- What is left after filtering is determined by its scope.
  have hwhole (dependency : Dependency) (hmem : dependency ∈ dependencies.filter (·.isWhole)) :
      dependency = .whole dependency.scope := by
    cases dependency with
    | whole scope => rfl
    | part scope name => cases (List.mem_filter.1 hmem).2
  rw [hwhole a ha, hwhole b hb, hscope]

/-- Different dependencies on rules have different keys. -/
theorem nodup_partKeys (h : dependencies.Nodup) : (partKeys dependencies).Nodup :=
  (h.filter _).map fun _ _ hkey => key_inj.1 hkey

end Dependency

namespace Resolution

/-- The report on requests for scopes that have a grammar and for scopes that have none. -/
def ofRequests (initial : ScopeName) (layers : Nat) (present absent : List Dependency) :
    Resolution where
  initial := some initial
  layers := layers
  loaded := (present.map (·.scope)).foldl addNew []
  whole := Dependency.wholes present
  parts := Dependency.partKeys present
  missing := (absent.map (·.scope)).foldl addNew []

variable {initial : ScopeName} {layers : Nat} {present absent : List Dependency}

/-- The loaded scopes are those of the requests with a grammar. -/
theorem mem_loaded_ofRequests {scope : ScopeName} :
    scope ∈ (ofRequests initial layers present absent).loaded ↔
      ∃ request ∈ present, request.scope = scope := by
  rw [ofRequests, mem_foldl_addNew, List.mem_map]
  exact or_iff_right List.not_mem_nil

/-- The missing scopes are those of the requests without a grammar. -/
theorem mem_missing_ofRequests {scope : ScopeName} :
    scope ∈ (ofRequests initial layers present absent).missing ↔
      ∃ request ∈ absent, request.scope = scope := by
  rw [ofRequests, mem_foldl_addNew, List.mem_map]
  exact or_iff_right List.not_mem_nil

/-- A loaded scope is reported once. -/
theorem nodup_loaded_ofRequests : (ofRequests initial layers present absent).loaded.Nodup :=
  nodup_foldl_addNew List.nodup_nil _

/-- A missing scope is reported once. -/
theorem nodup_missing_ofRequests : (ofRequests initial layers present absent).missing.Nodup :=
  nodup_foldl_addNew List.nodup_nil _

/-- The loaded scopes are those of what was scanned. -/
theorem mem_loaded_ofRequests_iff {scope : ScopeName} :
    scope ∈ (ofRequests initial layers present absent).loaded ↔
      scope ∈ (ofRequests initial layers present absent).whole ∨
        ∃ name, (Dependency.part scope name).key ∈
          (ofRequests initial layers present absent).parts := by
  -- A scope is loaded when it was requested, as a whole or for a rule.
  rw [mem_loaded_ofRequests]
  simp only [ofRequests, Dependency.mem_wholes, Dependency.key_mem_partKeys]
  constructor
  · rintro ⟨request, hmem, rfl⟩
    -- A request with a grammar is in one of the two lists, by its kind.
    cases request with
    | whole scope => exact Or.inl hmem
    | part scope name => exact Or.inr ⟨name, hmem⟩
  · rintro (hwhole | ⟨name, hpart⟩)
    · exact ⟨_, hwhole, rfl⟩
    · exact ⟨_, hpart, rfl⟩

end Resolution

/-! ## What is found -/

/-- The rules with which the scan of a dependency starts. -/
def Dependency.sites (base definition : Definition) : Dependency → List Site
  | whole _ => definition.top
  | part _ name => (Context.atTop base definition).lookup name

/-- The scan of a dependency starts with rules of its grammar. -/
private theorem Dependency.owns_of_mem_sites {base definition : Definition}
    {dependency : Dependency}
    {site : Site} (h : site ∈ dependency.sites base definition) : definition.Owns site := by
  cases dependency with
  | whole scope => exact Definition.owns_of_mem_top h
  | part scope name => exact Context.owns_of_mem_lookup h

/-- The scopes that are injected into the scope of a request, if that has a grammar. -/
def Store.injectedBy (store : Store) (request : Dependency) : List ScopeName :=
  if (store.lookup request.scope).isSome then store.injectionsInto request.scope else []

namespace Collector

/-- What a collector has when a request was scanned, if its scope has a grammar. -/
def answer (store : Store) (base : Definition) (collector : Collector) (request : Dependency) :
    Collector :=
  match store.lookup request.scope with
  | none => collector
  | some definition =>
    (collector.collect base definition (request.sites base definition)).addInjections
      (store.injectionsInto request.scope)

/-- The collector has visited rules of known grammars, and has what they ask for, and whole
scopes. -/
def Holds (collector : Collector) (base : Definition) (Known : Definition → Prop)
    (scopes : List ScopeName) : Prop :=
  ∃ rules : List Site, (∀ site ∈ rules, ∃ definition, Known definition ∧ definition.Owns site) ∧
    collector.visited = rules.map (·.place) ∧
    collector.dependencies.Perm
      (rules.filterMap (·.asks base.grammar.scope) ++ scopes.map .whole)

section

variable {base : Definition} {Known : Definition → Prop} {collector : Collector}
  {scopes : List ScopeName}

/-- A collector that has seen nothing holds nothing. -/
private theorem holds_empty : empty.Holds base Known [] :=
  ⟨[], fun _ h => (nomatch h), rfl, .nil⟩

/-- A scan adds the rules that it visits, and what they ask for. -/
private theorem Holds.collect (h : collector.Holds base Known scopes) (hbase : Known base)
    {definition : Definition} (hknown : Known definition) {sites : List Site}
    (howns : ∀ site ∈ sites, definition.Owns site) :
    (collector.collect base definition sites).Holds base Known scopes := by
  obtain ⟨rules, hrules, hvisited, hperm⟩ := h
  -- The scan starts with rules of a known grammar, at its top.
  have htasks : ∀ task ∈ WalkTask.visits sites (.atTop base definition),
      task.Sound base Known := by
    intro task htask
    obtain ⟨site, hsite, rfl⟩ := List.mem_map.1 htask
    exact ⟨Context.sound_atTop hknown, howns site hsite⟩
  -- The walk adds the rules that it visits.
  obtain ⟨found, hfound, hrecord⟩ := records_walk (WalkTask.inherited_sound hbase)
    (fun _ h => h) (collector.fresh base definition) _ htasks
  have hnoted := hrecord.perm
  rw [WalkTask.filterMap_noted?_visits, List.nil_append] at hnoted
  refine ⟨rules ++ found, fun site hsite => ?_, ?_, ?_⟩
  · rcases List.mem_append.1 hsite with hbefore | hnow
    · exact hrules site hbefore
    · -- A rule that is visited now belongs to the grammar of the place it was found in.
      obtain ⟨context, hsound, howned⟩ := hfound site hnow
      exact ⟨context.current, hsound.known, howned⟩
  · exact (congrArg₂ (· ++ ·) hvisited hrecord.visited_eq).trans List.map_append.symm
  · rw [List.filterMap_append, List.append_assoc]
    refine (hperm.append hnoted).trans ?_
    rw [List.append_assoc]
    exact List.perm_append_comm.append_left _

/-- Injected scopes are added as whole scopes. -/
private theorem Holds.addInjections (h : collector.Holds base Known scopes)
    (injected : List ScopeName) :
    (collector.addInjections injected).Holds base Known (scopes ++ injected) := by
  obtain ⟨rules, hrules, hvisited, hperm⟩ := h
  refine ⟨rules, hrules, hvisited, ?_⟩
  rw [List.map_append, ← List.append_assoc]
  exact hperm.append_right _

/-- A request with a grammar adds what its scan visits and what is injected into its scope. -/
private theorem Holds.answer (h : collector.Holds base Known scopes) (hbase : Known base)
    {store : Store}
    {request : Dependency} (hknown : ∀ definition, store.lookup request.scope = some definition →
      Known definition) :
    (collector.answer store base request).Holds base Known
      (scopes ++ store.injectedBy request) := by
  unfold Collector.answer Store.injectedBy
  -- Without a grammar nothing is scanned and nothing injected.
  cases hlookup : store.lookup request.scope with
  | none => simpa using h
  | some definition =>
    rw [Option.isSome_some, if_pos rfl]
    exact (h.collect hbase (hknown definition hlookup) fun _ =>
      Dependency.owns_of_mem_sites).addInjections _

/-- Several requests add what each of them does. -/
private theorem Holds.foldl_answer (h : collector.Holds base Known scopes) (hbase : Known base)
    {store : Store} {requests : List Dependency} (hknown : ∀ request ∈ requests, ∀ definition,
      store.lookup request.scope = some definition → Known definition) :
    (requests.foldl (Collector.answer store base) collector).Holds base Known
      (scopes ++ requests.flatMap store.injectedBy) := by
  induction requests generalizing collector scopes with
  | nil => rwa [List.flatMap_nil, List.append_nil]
  | cons request requests ih =>
    rw [List.flatMap_cons, ← List.append_assoc]
    exact ih (h.answer hbase (hknown request List.mem_cons_self)) fun other hother =>
      hknown other (List.mem_cons_of_mem _ hother)

end

end Collector

/-! ## Layers -/

/-- A layer of a resolution whose loads have ended. -/
structure Layer where
  requests : List Dependency
  /-- Where the grammars are looked up. -/
  store : Store
  /-- The grammar of the initial scope. -/
  base : Definition

namespace Layer

variable (layer : Layer)

/-- The requests for scopes that have a grammar. -/
def present : List Dependency :=
  layer.requests.filter fun request => (layer.store.lookup request.scope).isSome

/-- The requests for scopes that have no grammar. -/
def absent : List Dependency :=
  layer.requests.filter fun request => (layer.store.lookup request.scope).isNone

/-- A request of some layers is one for a scope with a grammar or for one without. -/
theorem mem_requests_iff {layers : List Layer} {request : Dependency} :
    request ∈ layers.flatMap (·.requests) ↔
      request ∈ layers.flatMap (·.present) ∨ request ∈ layers.flatMap (·.absent) := by
  -- In each layer a request is on one side or the other.
  have hlayer (layer : Layer) :
      request ∈ layer.requests ↔ request ∈ layer.present ∨ request ∈ layer.absent := by
    rw [present, absent, List.mem_filter, List.mem_filter, ← and_or_left]
    cases layer.store.lookup request.scope <;> simp
  simp only [List.mem_flatMap, hlayer, and_or_left, exists_or]

/-- What the scans of the layer find. -/
def found : Collector :=
  layer.requests.foldl (Collector.answer layer.store layer.base) .empty

/-- The grammars between which the scans of the layer go. -/
def Uses (definition : Definition) : Prop :=
  definition = layer.base ∨
    ∃ request ∈ layer.requests, layer.store.lookup request.scope = some definition

/-- What a layer finds is what the rules ask for that its scans visit, and the injected scopes. -/
private theorem holds_found :
    layer.found.Holds layer.base layer.Uses (layer.requests.flatMap layer.store.injectedBy) :=
  Collector.holds_empty.foldl_answer (Or.inl rfl) fun request hrequest _ hlookup =>
    Or.inr ⟨request, hrequest, hlookup⟩

/-- A rule that the layer has visited asks for the dependency. -/
def ByRule (dependency : Dependency) : Prop :=
  ∃ site definition, layer.Uses definition ∧ definition.Owns site ∧
    site.place ∈ layer.found.visited ∧ site.asks layer.base.grammar.scope = some dependency

/-- The dependency is a whole scope that is injected into a scope with a grammar. -/
def ByInjection (dependency : Dependency) : Prop :=
  ∃ request ∈ layer.present, ∃ scope ∈ layer.store.injectionsInto request.scope,
    dependency = .whole scope

/-- What a layer finds is asked for by one of its rules, or injected. -/
theorem byRule_or_byInjection {layer : Layer} {dependency : Dependency}
    (h : dependency ∈ layer.found.dependencies) :
    layer.ByRule dependency ∨ layer.ByInjection dependency := by
  obtain ⟨rules, hrules, hvisited, hperm⟩ := layer.holds_found
  -- Up to order, a layer has what its rules ask for and what is injected.
  rcases List.mem_append.1 (hperm.mem_iff.1 h) with hrule | hinjected
  · -- What a rule asks for: the rule was visited, and belongs to a grammar in use.
    obtain ⟨site, hsite, hasks⟩ := List.mem_filterMap.1 hrule
    obtain ⟨definition, hdefinition, howns⟩ := hrules site hsite
    exact Or.inl ⟨site, definition, hdefinition, howns, hvisited ▸ List.mem_map_of_mem hsite, hasks⟩
  · obtain ⟨scope, hscope, rfl⟩ := List.mem_map.1 hinjected
    -- The scope is injected into that of a request.
    obtain ⟨request, hrequest, hby⟩ := List.mem_flatMap.1 hscope
    unfold Store.injectedBy at hby
    split at hby
    · rename_i hsome
      exact Or.inr ⟨request, List.mem_filter.2 ⟨hrequest, hsome⟩, scope, hby, rfl⟩
    · cases hby

end Layer

namespace Run

section

variable {store : Store} {initial : ScopeName} {base : Definition} {count : Nat}
  {present absent : List Dependency} {collector : Collector} {after : Collector × Resolution}

/-- The scan of a request for a scope without a grammar. -/
private theorem scan_absent {request : Dependency}
    (hnone : store.lookup request.scope = none)
    (h : scan store initial base collector (.ofRequests initial count present absent) request =
      .ok after) :
    request.scope ≠ initial ∧ after = (collector.answer store base request,
      .ofRequests initial count present (absent ++ [request])) := by
  simp only [scan, hnone] at h
  split at h
  · cases h
  · rename_i hne
    cases h
    refine ⟨hne, ?_⟩
    -- Nothing is collected for the request, and its scope is missing from now on.
    rw [Collector.answer, hnone]
    simp [Resolution.ofRequests]

/-- The scan of a request for a scope with a grammar. -/
private theorem scan_present {request : Dependency} {definition : Definition}
    (hsome : store.lookup request.scope = some definition)
    (h : scan store initial base collector (.ofRequests initial count present absent) request =
      .ok after) :
    after = (collector.answer store base request,
      .ofRequests initial count (present ++ [request]) absent) := by
  simp only [scan, hsome] at h
  rw [Collector.answer, hsome]
  -- The report has the whole grammar or the rule, and the scope in both cases.
  cases request with
  | whole scope =>
    cases h
    simp [Resolution.ofRequests, Dependency.wholes, Dependency.partKeys, Dependency.isWhole,
      Dependency.scope, Dependency.sites, Collector.collectAll]
  | part scope name =>
    cases h
    simp [Resolution.ofRequests, Dependency.wholes, Dependency.partKeys, Dependency.isWhole,
      Dependency.scope, Dependency.sites, Collector.collectRule]

/-- The scans of a layer add to the report the requests with and without a grammar. -/
private theorem scanAll_ofRequests {requests : List Dependency}
    (h : scanAll store initial base requests
      (collector, .ofRequests initial count present absent) = .ok after) :
    (∀ request ∈ requests, store.lookup request.scope = none → request.scope ≠ initial) ∧
    after = (requests.foldl (Collector.answer store base) collector,
      .ofRequests initial count
        (present ++ requests.filter fun request => (store.lookup request.scope).isSome)
        (absent ++ requests.filter fun request => (store.lookup request.scope).isNone)) := by
  -- Along the requests; those that were scanned before are in the report already.
  induction requests generalizing collector present absent with
  | nil =>
    cases h
    exact ⟨fun _ h => (nomatch h), by simp⟩
  | cons request requests ih =>
    simp only [scanAll] at h
    split at h
    · cases h
    · rename_i middle hscan
      cases hlookup : store.lookup request.scope with
      | none =>
        obtain ⟨hne, rfl⟩ := scan_absent hlookup hscan
        obtain ⟨hrest, rfl⟩ := ih h
        -- Without a grammar the request counts as one that is missing.
        rw [List.filter_cons_of_neg (by simp [hlookup]),
          List.filter_cons_of_pos (by simp [hlookup]), List.append_assoc absent]
        refine ⟨fun other hother hnone => ?_, rfl⟩
        rcases List.mem_cons.1 hother with rfl | hlater
        · exact hne
        · exact hrest other hlater hnone
      | some definition =>
        obtain rfl := scan_present hlookup hscan
        obtain ⟨hrest, rfl⟩ := ih h
        -- With a grammar the collector answers it.
        rw [List.filter_cons_of_pos (by simp [hlookup]),
          List.filter_cons_of_neg (by simp [hlookup]), List.append_assoc present]
        refine ⟨fun other hother hnone => ?_, rfl⟩
        rcases List.mem_cons.1 hother with rfl | hlater
        · rw [hlookup] at hnone
          cases hnone
        · exact hrest other hlater hnone

end

/-- The layer that a resolution is in, with the store behind its loads and the base. -/
def layerIn (run : Run) (store : Store) (base : Definition) : Layer :=
  ⟨run.layer, store, base⟩

/-- A layer leads to the next one by what it finds and what is present or absent in it. -/
theorem next_eq_ok_of_report {store : Store} {run after : Run} {base : Definition} {count : Nat}
    {present absent : List Dependency} (hbase : run.base.or (store.lookup run.initial) = some base)
    (hreport : run.report = .ofRequests run.initial count present absent)
    (h : run.next store = .ok after) :
    let layer := run.layerIn store base
    (∀ request ∈ layer.absent, request.scope ≠ run.initial) ∧
    after = ⟨run.initial, some base, (run.requested.select layer.found.dependencies).1,
      (run.requested.select layer.found.dependencies).2,
      .ofRequests run.initial (count + 1) (present ++ layer.present) (absent ++ layer.absent)⟩ := by
  intro layer
  obtain ⟨found, collector, report, hfound, hscan, rfl⟩ := next_eq_ok h
  -- The base is the one that the resolution has or has found just now.
  cases hbase.symm.trans hfound
  -- The layer is counted before its scans.
  have hfirst : { run.report with layers := run.report.layers + 1 } =
      Resolution.ofRequests run.initial (count + 1) present absent := by
    rw [hreport]
    rfl
  rw [hfirst] at hscan
  obtain ⟨habsent, heq⟩ := scanAll_ofRequests hscan
  cases heq
  refine ⟨fun request hrequest => ?_, rfl⟩
  obtain ⟨hmem, hnone⟩ := List.mem_filter.1 hrequest
  exact habsent request hmem (Option.isNone_iff_eq_none.1 hnone)

end Run

end Textmate
