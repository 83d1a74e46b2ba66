import Textmate.Proofs.Resolution.Layers
import Textmate.Proofs.Resolution.Scans

/-!
# What a resolution keeps account of

Behind every layer a resolution has requested all that the rules seen so far include, as a whole
grammar or as a rule. What it has requested is in the next layer or reported, and what is reported
as scanned was seen. A rule counts as requested, too, when its grammar was requested as a whole.

## Key results

- `Requested.selection_select`: what a selection keeps and what it has requested afterwards
- `Requested.select_spec`: everything is covered afterwards, and what was not before is selected
- `Run.Accounts.next`: what a layer hands on to the next one
-/

namespace Textmate

/-! ## Requests -/

namespace Requested

/-- Nothing more has to be requested for the dependency. -/
def Covers (requested : Requested) : Dependency → Prop
  | .whole scope => scope ∈ requested.whole
  | .part scope name =>
    scope ∈ requested.whole ∨ (Dependency.part scope name).key ∈ requested.parts

/-- What is covered a selection passes over. -/
theorem covers_iff {requested : Requested} {dependency : Dependency} :
    requested.Covers dependency ↔ requested.admits dependency = false := by
  cases dependency with
  | whole scope => simp [Covers, admits]
  | part scope name =>
    simp only [Covers, admits, Bool.and_eq_false_iff, decide_eq_false_iff_not, not_not]

/-- What was requested, and later more. -/
structure Extends (requested later : Requested) : Prop where
  whole_subset : requested.whole ⊆ later.whole
  parts_subset : requested.parts ⊆ later.parts

/-- What was covered stays covered when more is requested. -/
theorem Extends.covers {requested later : Requested} (h : requested.Extends later)
    {dependency : Dependency} (hcovers : requested.Covers dependency) :
    later.Covers dependency := by
  cases dependency with
  | whole scope => exact h.whole_subset hcovers
  | part scope name =>
    exact hcovers.imp (fun hwhole => h.whole_subset hwhole) fun hpart => h.parts_subset hpart

/-- A further dependency adds to what was requested. -/
private theorem extends_add (requested : Requested) (dependency : Dependency) :
    requested.Extends (requested.add dependency) := by
  cases dependency with
  | whole scope => exact ⟨List.subset_append_left _ _, fun _ h => h⟩
  | part scope name => exact ⟨fun _ h => h, List.subset_append_left _ _⟩

/-- What was requested is covered. -/
private theorem covers_add (requested : Requested) (dependency : Dependency) :
    (requested.add dependency).Covers dependency := by
  cases dependency with
  | whole scope => exact List.mem_append_right _ (List.mem_singleton_self scope)
  | part scope name => exact Or.inr (List.mem_append_right _ (List.mem_singleton_self _))

/-- What is requested with further dependencies. -/
theorem foldl_add (requested : Requested) (dependencies : List Dependency) :
    dependencies.foldl add requested =
      ⟨requested.whole ++ Dependency.wholes dependencies,
        requested.parts ++ Dependency.partKeys dependencies⟩ := by
  induction dependencies generalizing requested with
  | nil => simp [Dependency.wholes, Dependency.partKeys]
  | cons dependency rest ih =>
    rw [List.foldl_cons, ih]
    cases dependency <;>
      simp [add, Dependency.wholes, Dependency.partKeys, Dependency.isWhole, Dependency.scope]

/-- Further dependencies add to what was requested. -/
theorem extends_foldl_add (requested : Requested) (dependencies : List Dependency) :
    requested.Extends (dependencies.foldl add requested) := by
  rw [foldl_add]
  exact ⟨List.subset_append_left _ _, List.subset_append_left _ _⟩

/-- Among dependencies those were selected that are to be requested, each once. -/
structure Selection (requested : Requested) (dependencies selected : List Dependency)
    (all : Requested) : Prop where
  all_eq : all = selected.foldl add requested
  subset : selected ⊆ dependencies
  nodup : selected.Nodup
  /-- Nothing is selected that was covered before. -/
  fresh : ∀ dependency ∈ selected, ¬ requested.Covers dependency
  covers : ∀ dependency ∈ dependencies, all.Covers dependency

/-- This is what selecting does. -/
theorem selection_select (requested : Requested) (dependencies : List Dependency) :
    requested.Selection dependencies (requested.select dependencies).1
      (requested.select dependencies).2 := by
  -- What is requested grows along the list, so the statement is for any requests before it.
  induction dependencies generalizing requested with
  | nil =>
    exact ⟨rfl, List.nil_subset _, List.nodup_nil, fun _ h => absurd h List.not_mem_nil,
      fun _ h => absurd h List.not_mem_nil⟩
  | cons dependency rest ih =>
    rw [select]
    split
    · -- The dependency is selected, and what is selected behind it is not covered by it either.
      rename_i hadmits
      have hrest := ih (requested.add dependency)
      have hextends := hrest.all_eq ▸ (requested.add dependency).extends_foldl_add _
      refine ⟨hrest.all_eq, List.cons_subset_cons _ hrest.subset,
        List.nodup_cons.2 ⟨fun hmem => ?_, hrest.nodup⟩, fun other hother hcovers => ?_,
        fun other hother => ?_⟩
      · exact hrest.fresh dependency hmem (requested.covers_add dependency)
      · rcases List.mem_cons.1 hother with rfl | hlater
        · rw [covers_iff.1 hcovers] at hadmits
          cases hadmits
        · exact hrest.fresh other hlater ((requested.extends_add dependency).covers hcovers)
      · rcases List.mem_cons.1 hother with rfl | hlater
        · exact hextends.covers (requested.covers_add other)
        · exact hrest.covers other hlater
    · -- The dependency was covered before, and stays so.
      rename_i hadmits
      have hrest := ih requested
      have hextends := hrest.all_eq ▸ requested.extends_foldl_add _
      refine ⟨hrest.all_eq, List.subset_cons_of_subset _ hrest.subset, hrest.nodup, hrest.fresh,
        fun other hother => ?_⟩
      rcases List.mem_cons.1 hother with rfl | hlater
      · exact hextends.covers (covers_iff.2 (Bool.not_eq_true _ ▸ hadmits))
      · exact hrest.covers other hlater

/-- What a selection requests: it covers all dependencies, and what it requests it selects. -/
theorem select_spec (requested : Requested) (dependencies : List Dependency) :
    requested.Extends (requested.select dependencies).2 ∧
    (∀ dependency ∈ dependencies, (requested.select dependencies).2.Covers dependency) ∧
    (∀ scope ∈ (requested.select dependencies).2.whole,
      scope ∈ requested.whole ∨ .whole scope ∈ (requested.select dependencies).1) ∧
    ∀ scope name, (Dependency.part scope name).key ∈ (requested.select dependencies).2.parts →
      (Dependency.part scope name).key ∈ requested.parts ∨
        .part scope name ∈ (requested.select dependencies).1 := by
  have hselection := requested.selection_select dependencies
  -- What was requested grows by what was selected, kind by kind.
  have hall := hselection.all_eq.trans (foldl_add _ _)
  refine ⟨hselection.all_eq ▸ requested.extends_foldl_add _, hselection.covers,
    fun scope hscope => ?_, fun scope name hkey => ?_⟩
  · rw [hall] at hscope
    exact (List.mem_append.1 hscope).imp_right Dependency.mem_wholes.1
  · rw [hall] at hkey
    exact (List.mem_append.1 hkey).imp_right Dependency.key_mem_partKeys.1

end Requested

/-! ## The accounts of a run -/

namespace Run

/-- What is known of a resolution behind any of its layers, with the rules that its scans have seen
so far. -/
structure Accounts (loader : Loader) (initial : ScopeName) (run : Run)
    (seen : ScopeName → Rule → Prop) : Prop where
  /-- The resolution is that of the scope. -/
  initial_eq : run.initial = initial
  /-- The base is the grammar of the scope, and reported as loaded. -/
  base_eq : ∀ base, run.base = some base →
    loader.definition? initial = some base ∧ initial ∈ run.report.loaded
  /-- The first layer looks for the base. -/
  layer_eq : run.base = none → run.layer = [.whole initial]
  mem_whole : initial ∈ run.requested.whole
  /-- Rules were seen in loaded grammars only. -/
  seen_loaded : ∀ scope rule, seen scope rule → scope ∈ run.report.loaded
  /-- What is inside a seen rule was seen. -/
  seen_inner : ∀ scope rule, seen scope rule → ∀ inner ∈ rule.inner, seen scope inner
  /-- What a seen rule includes was seen or requested. -/
  met : ∀ scope rule, seen scope rule → ∀ target, rule.include? = some target →
    Met loader initial seen run.requested.Covers scope target
  /-- What is injected into a loaded scope was requested. -/
  injected : ∀ scope ∈ run.report.loaded, ∀ other ∈ loader.injected scope,
    other ∈ run.requested.whole
  /-- A requested grammar is in the layer or reported. -/
  whole : ∀ scope ∈ run.requested.whole,
    .whole scope ∈ run.layer ∨ scope ∈ run.report.missing ∨ scope ∈ run.report.whole
  /-- A requested rule is in the layer or reported. -/
  parts : ∀ scope name, (Dependency.part scope name).key ∈ run.requested.parts →
    .part scope name ∈ run.layer ∨ scope ∈ run.report.missing ∨
      scope ∈ run.report.loaded ∧ (Dependency.part scope name).key ∈ run.report.parts
  /-- A reported grammar was seen as a whole. -/
  whole_seen : ∀ scope ∈ run.report.whole,
    scope ∈ run.report.loaded ∧ SeenWhole loader seen scope
  parts_seen : ∀ scope name, (Dependency.part scope name).key ∈ run.report.parts →
    SeenRule loader seen scope name
  /-- What is reported as missing has no grammar. -/
  missing : ∀ scope ∈ run.report.missing, loader.definition? scope = none

/-- Before the first layer nothing was seen, and the initial scope is requested. -/
theorem accounts_start (loader : Loader) (initial : ScopeName) :
    Accounts loader initial (start initial) fun _ _ => False where
  initial_eq := rfl
  base_eq := fun _ h => nomatch h
  layer_eq := fun _ => rfl
  mem_whole := List.mem_singleton_self initial
  seen_loaded := fun _ _ h => h.elim
  seen_inner := fun _ _ h => h.elim
  met := fun _ _ h => h.elim
  injected := fun _ h => nomatch h
  whole := by
    -- The only requested scope is the initial one, in the first layer.
    intro scope hscope
    rw [List.mem_singleton.1 hscope]
    exact Or.inl (List.mem_singleton_self _)
  parts := fun _ _ h => nomatch h
  whole_seen := fun _ h => nomatch h
  parts_seen := fun _ _ h => nomatch h
  missing := fun _ h => nomatch h

/-- The scans see rules in loaded grammars only. -/
private theorem loaded_of_sees {loader : Loader} {initial : ScopeName} {base : Definition}
    {collector : Collector} {report : Resolution}
    (hclosed : collector.Closed base (report.Knows loader initial))
    (hinitial : initial ∈ report.loaded) (hl : loader.Honest) {scope : ScopeName} {rule : Rule}
    (h : collector.Sees loader scope rule) : scope ∈ report.loaded := by
  -- The collector is closed between the initial and the loaded scopes, and the place names one.
  obtain ⟨definition, site, hdefinition, howns, -, hvisited⟩ := h
  obtain ⟨found, other, hplace, ⟨-, hor⟩, hfound, -⟩ := hclosed site.place hvisited
  have hscope : other.grammar.scope = scope := by
    rw [← hfound.scope_eq, hplace, howns.scope_eq, Loader.grammar?_scope hl hdefinition]
  rw [hscope] at hor
  rcases hor with rfl | hloaded
  · exact hinitial
  · exact hloaded

/-! ## Behind a layer -/

section

variable {loader : Loader} {initial : ScopeName} {run : Run} {seen : ScopeName → Rule → Prop}
  {base : Definition} {collector : Collector} {report : Resolution}

/-- The base that a layer is scanned with is the grammar of the initial scope. -/
private theorem Accounts.definition?_base (h : Accounts loader initial run seen) {store : Store}
    (hagrees : ∀ scope ∈ run.scopes, store.Agrees loader scope)
    (hbase : run.base.or (store.lookup run.initial) = some base) :
    loader.definition? initial = some base := by
  obtain rfl := h.initial_eq
  cases hknown : run.base with
  | some found =>
    rw [hknown, Option.some_or] at hbase
    cases hbase
    exact (h.base_eq base hknown).1
  | none =>
    -- The first layer has loaded the initial scope.
    have hmem : run.initial ∈ run.scopes :=
      mem_scopes.2 ⟨.whole run.initial, by rw [h.layer_eq hknown]; simp, rfl⟩
    rwa [hknown, Option.none_or, (hagrees _ hmem).lookup_eq] at hbase

variable (h : Accounts loader initial run seen)
  (hscanned : Scanned loader initial base run.layer
    (.empty, { run.report with layers := run.report.layers + 1 }) (collector, report))

include h hscanned

/-- The initial scope is reported as loaded behind any layer. -/
private theorem Accounts.mem_loaded (hdefinition : loader.definition? initial = some base) :
    initial ∈ report.loaded := by
  refine (hscanned.mem_loaded_iff initial).2 ?_
  -- It was loaded with the base, or it is the layer that was just scanned.
  cases hknown : run.base with
  | some found => exact Or.inl (h.base_eq found hknown).2
  | none =>
    have hsome : (loader.definition? initial).isSome := by rw [hdefinition]; rfl
    have hlayer : .whole initial ∈ run.layer := by rw [h.layer_eq hknown]; simp
    exact Or.inr ⟨.whole initial, hlayer, rfl, hsome⟩

/-- A grammar that was requested before a layer is reported behind it. -/
private theorem Accounts.whole_reported {scope : ScopeName} (hscope : scope ∈ run.requested.whole) :
    scope ∈ report.missing ∨ scope ∈ report.whole := by
  -- The layer is scanned now; the rest was reported before.
  rcases h.whole scope hscope with hlayer | hmissing | hreported
  · cases hfound : loader.definition? scope with
    | none => exact Or.inl ((hscanned.mem_missing_iff scope).2 (Or.inr ⟨_, hlayer, rfl, hfound⟩))
    | some definition =>
      have hsome : (loader.definition? scope).isSome := by rw [hfound]; rfl
      exact Or.inr ((hscanned.mem_whole_iff scope).2 (Or.inr ⟨hlayer, hsome⟩))
  · exact Or.inl ((hscanned.mem_missing_iff scope).2 (Or.inl hmissing))
  · exact Or.inr ((hscanned.mem_whole_iff scope).2 (Or.inl hreported))

/-- A rule that was requested before a layer is reported behind it. -/
private theorem Accounts.part_reported {scope : ScopeName} {name : String}
    (hkey : (Dependency.part scope name).key ∈ run.requested.parts) :
    scope ∈ report.missing ∨
      scope ∈ report.loaded ∧ (Dependency.part scope name).key ∈ report.parts := by
  rcases h.parts scope name hkey with hlayer | hmissing | ⟨hloaded, hreported⟩
  · -- A request of the layer is reported now, by what the loader has for its scope.
    cases hfound : loader.definition? scope with
    | none => exact Or.inl ((hscanned.mem_missing_iff scope).2 (Or.inr ⟨_, hlayer, rfl, hfound⟩))
    | some definition =>
      have hsome : (loader.definition? scope).isSome := by rw [hfound]; rfl
      exact Or.inr ⟨(hscanned.mem_loaded_iff scope).2 (Or.inr ⟨_, hlayer, rfl, hsome⟩),
        (hscanned.mem_parts_iff _).2 (Or.inr ⟨scope, name, hlayer, hsome, rfl⟩)⟩
  · exact Or.inl ((hscanned.mem_missing_iff scope).2 (Or.inl hmissing))
  · exact Or.inr ⟨(hscanned.mem_loaded_iff scope).2 (Or.inl hloaded),
      (hscanned.mem_parts_iff _).2 (Or.inl hreported)⟩

/-- A grammar that is reported as scanned behind a layer was seen by then. -/
private theorem Accounts.seenWhole_of_reported {scope : ScopeName} (hscope : scope ∈ report.whole) :
    scope ∈ report.loaded ∧
      SeenWhole loader (fun scope rule => seen scope rule ∨ collector.Sees loader scope rule)
        scope := by
  -- It was in the report before the layer, or the layer has scanned it.
  rcases (hscanned.mem_whole_iff scope).1 hscope with hbefore | ⟨hlayer, hsome⟩
  · obtain ⟨hloaded, hseen⟩ := h.whole_seen scope hbefore
    exact ⟨(hscanned.mem_loaded_iff scope).2 (Or.inl hloaded),
      fun rule hrule => Or.inl (hseen rule hrule)⟩
  · have hseen := (hscanned.answered _ hlayer hsome).1
    exact ⟨(hscanned.mem_loaded_iff scope).2 (Or.inr ⟨_, hlayer, rfl, hsome⟩),
      fun rule hrule => Or.inr (hseen rule hrule)⟩

/-- A rule that is reported as scanned behind a layer was seen by then. -/
private theorem Accounts.seenRule_of_reported {scope : ScopeName} {name : String}
    (hkey : (Dependency.part scope name).key ∈ report.parts) :
    SeenRule loader (fun scope rule => seen scope rule ∨ collector.Sees loader scope rule)
      scope name := by
  rcases (hscanned.mem_parts_iff _).1 hkey with hbefore | ⟨other, found, hlayer, hsome, heq⟩
  · exact fun rule hrule => Or.inl (h.parts_seen scope name hbefore rule hrule)
  · cases Dependency.key_inj.1 heq
    have hseen := (hscanned.answered _ hlayer hsome).1
    exact fun rule hrule => Or.inr (hseen rule hrule)

end

/-- What a layer hands on to the next one. -/
theorem Accounts.next {loader : Loader} (hl : loader.Honest) (hflat : loader.IsFlat)
    {initial : ScopeName} {run after : Run} {seen : ScopeName → Rule → Prop}
    (h : Accounts loader initial run seen) {store : Store}
    (hagrees : ∀ scope ∈ run.scopes, store.Agrees loader scope)
    (hnext : run.next store = .ok after) :
    ∃ later, Accounts loader initial after later := by
  obtain ⟨base, collector, report, hbase, hscan, rfl⟩ := next_eq_ok hnext
  obtain rfl := h.initial_eq
  have hdefinition := h.definition?_base hagrees hbase
  have hscanned := scanned_of_scanAll hl hflat hdefinition
    (fun dependency hdependency => hagrees _ (mem_scopes.2 ⟨dependency, hdependency, rfl⟩)) hscan
  obtain ⟨hextends, hcovers, hwhole, hparts⟩ := run.requested.select_spec collector.dependencies
  -- The collector of the layer starts empty, so it is closed at the end.
  have hclosed := hscanned.closed (Collector.closed_empty _ _)
  have hknown (definition : Definition) (hd : report.Knows loader run.initial definition) :
      loader.Defines definition := hd.1
  have hinitial := h.mem_loaded hscanned hdefinition
  -- Every part holds of what was known before the layer, and of what its scans have added.
  exact ⟨fun scope rule => seen scope rule ∨ collector.Sees loader scope rule, {
    initial_eq := rfl
    base_eq := by
      rintro found hfound
      cases hfound
      exact ⟨hdefinition, hinitial⟩
    layer_eq := fun hnone => nomatch hnone
    mem_whole := hextends.whole_subset h.mem_whole
    seen_loaded := by
      rintro scope rule (hbefore | hnow)
      · exact (hscanned.mem_loaded_iff scope).2 (Or.inl (h.seen_loaded scope rule hbefore))
      · exact loaded_of_sees hclosed hinitial hl hnow
    -- What lies inside a rule that a scan has seen was seen by the same scan.
    seen_inner := by
      rintro scope rule (hbefore | hnow) inner hinner
      · exact Or.inl (h.seen_inner scope rule hbefore inner hinner)
      · exact Or.inr (hclosed.seesInner hl hflat hknown hnow hinner)
    met := by
      rintro scope rule (hbefore | hnow) target htarget
      · exact (h.met scope rule hbefore target htarget).mono (fun _ _ => Or.inl)
          fun _ => hextends.covers
      · exact (hclosed.met hl hflat hknown hdefinition hnow htarget).mono (fun _ _ => Or.inr)
          hcovers
    injected := by
      intro scope hscope other hother
      rcases (hscanned.mem_loaded_iff scope).1 hscope with hbefore | ⟨dependency, hmem, rfl, hsome⟩
      · exact hextends.whole_subset (h.injected scope hbefore other hother)
      · exact hcovers _ ((hscanned.answered dependency hmem hsome).2 other hother)
    -- A request of this layer is in the report now, or it was selected for the next one.
    whole := by
      intro scope hscope
      rcases hwhole scope hscope with hbefore | hselected
      · exact Or.inr (h.whole_reported hscanned hbefore)
      · exact Or.inl hselected
    parts := by
      intro scope name hkey
      rcases hparts scope name hkey with hbefore | hselected
      · exact Or.inr (h.part_reported hscanned hbefore)
      · exact Or.inl hselected
    whole_seen := fun scope => h.seenWhole_of_reported hscanned
    parts_seen := fun scope name => h.seenRule_of_reported hscanned
    missing := by
      intro scope hscope
      rcases (hscanned.mem_missing_iff scope).1 hscope with hbefore | ⟨dependency, -, -, hnone⟩
      · exact h.missing scope hbefore
      · exact hnone }⟩

end Run

end Textmate
