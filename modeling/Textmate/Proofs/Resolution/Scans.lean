import Textmate.Proofs.Collector.Closed
import Textmate.Proofs.Resolution.Loaded
import Textmate.Proofs.Resolution.Reachable

/-!
# What the scans of a layer see

The scans of one layer share a collector. When they are done, they have seen what every dependency
of the layer asks for. For every rule that they have seen, they have seen what is inside it, and
what it includes they have seen too or handed on as a dependency.

## Key results

- `Closed.seesInner` and `Closed.met`: a closed collector in terms of the graph of grammars
- `Run.scanned_of_scanAll`: what the scans of a layer see, note and report
-/

namespace Textmate

/-! ## What a loader has of a grammar -/

namespace Loader

/-- The definition is what its scope stands for. -/
def Defines (loader : Loader) (definition : Definition) : Prop :=
  loader.definition? definition.grammar.scope = some definition

/-- A scope stands for one definition. -/
private theorem Defines.eq {loader : Loader} {first second : Definition}
    (hfirst : loader.Defines first)
    (hsecond : loader.Defines second) (h : first.grammar.scope = second.grammar.scope) :
    first = second :=
  Option.some.inj (hfirst.symm.trans (h ▸ hsecond))

/-- What a scope stands for is the definition of its own scope. -/
private theorem defines_of_definition? {loader : Loader} (hl : loader.Honest) {scope : ScopeName}
    {definition : Definition} (h : loader.definition? scope = some definition) :
    loader.Defines definition := by
  rw [Defines, grammar?_scope hl h, h]

/-- A text spells the scope that a definition stands for when it is the text of its grammar. -/
private theorem text_eq_iff {loader : Loader} (hl : loader.Honest) {scope : ScopeName}
    {definition : Definition} (h : loader.definition? scope = some definition) {text : String}
    {other : ScopeName} (hother : ScopeName.ofString? text = some other) :
    definition.grammar.scope.text = text ↔ other = scope := by
  rw [grammar?_scope hl h, ← ScopeName.ofString?_eq_some_iff.1 hother]
  exact ⟨fun h => ScopeName.ext h.symm, fun h => h ▸ rfl⟩

/-- The rules at the top level of a scope are those of its definition. -/
private theorem topRules_eq {loader : Loader} {scope : ScopeName} {definition : Definition}
    (h : loader.definition? scope = some definition) :
    loader.topRules scope = definition.grammar.topRules := by
  rw [topRules, grammar?, h]
  rfl

/-- A named rule of a scope is that of its definition. -/
private theorem rule?_eq {loader : Loader} {scope : ScopeName} {definition : Definition}
    (h : loader.definition? scope = some definition) (name : String) :
    loader.rule? scope name = definition.grammar.rule? name := by
  rw [rule?, grammar?, h]
  rfl

end Loader

/-! ## What was seen of grammars -/

/-- All rules at the top level of the grammar of a scope were seen. -/
def SeenWhole (loader : Loader) (seen : ScopeName → Rule → Prop) (scope : ScopeName) : Prop :=
  ∀ rule ∈ loader.topRules scope, seen scope rule

/-- A rule of the repository of the grammar of a scope was seen, if there is one. -/
def SeenRule (loader : Loader) (seen : ScopeName → Rule → Prop) (scope : ScopeName)
    (name : String) : Prop :=
  ∀ rule, loader.rule? scope name = some rule → seen scope rule

/-- Where an include in the grammar of the `current` scope leads was seen, or it was asked for. Only
what is neither in the same grammar nor in the initial one is asked for. -/
def Met (loader : Loader) (initial : ScopeName) (seen : ScopeName → Rule → Prop)
    (asked : Dependency → Prop) (current : ScopeName) : Include → Prop
  | .base => SeenWhole loader seen initial
  | .self => SeenWhole loader seen current
  | .rule name => SeenRule loader seen current name
  | .grammar text => ∀ scope, ScopeName.ofString? text = some scope →
    (scope = current ∨ scope = initial) ∧ SeenWhole loader seen scope ∨ asked (.whole scope)
  | .grammarRule text name => ∀ scope, ScopeName.ofString? text = some scope →
    (scope = current ∨ scope = initial) ∧ SeenRule loader seen scope name ∨
      scope ≠ current ∧ scope ≠ initial ∧ asked (.part scope name)

/-- What was met stays met when more is seen and asked for. -/
theorem Met.mono {loader : Loader} {initial current : ScopeName}
    {seen later : ScopeName → Rule → Prop} {asked more : Dependency → Prop} {target : Include}
    (h : Met loader initial seen asked current target)
    (hseen : ∀ scope rule, seen scope rule → later scope rule)
    (hasked : ∀ dependency, asked dependency → more dependency) :
    Met loader initial later more current target := by
  cases target with
  | base => exact fun rule hrule => hseen _ rule (h rule hrule)
  | self => exact fun rule hrule => hseen _ rule (h rule hrule)
  | rule name => exact fun rule hrule => hseen _ rule (h rule hrule)
  | grammar text =>
    intro scope hscope
    rcases h scope hscope with ⟨hor, hwhole⟩ | hnoted
    · exact Or.inl ⟨hor, fun rule hrule => hseen _ rule (hwhole rule hrule)⟩
    · exact Or.inr (hasked _ hnoted)
  | grammarRule text name =>
    intro scope hscope
    -- It was seen, which stays so, or it was asked for.
    rcases h scope hscope with ⟨hor, hrule⟩ | ⟨hcurrent, hinitial, hnoted⟩
    · exact Or.inl ⟨hor, fun rule hfound => hseen _ rule (hrule rule hfound)⟩
    · exact Or.inr ⟨hcurrent, hinitial, hasked _ hnoted⟩

/-! ## What a collector has seen -/

namespace Collector

/-- The collector has visited the rule in the grammar of the scope. -/
def Sees (collector : Collector) (loader : Loader) (scope : ScopeName) (rule : Rule) : Prop :=
  ∃ definition site, loader.definition? scope = some definition ∧ definition.Owns site ∧
    site.rule = rule ∧ site.place ∈ collector.visited

section

variable {collector : Collector} {loader : Loader} {base : Definition}
  {Known : Definition → Prop}

/-- What a closed collector has done for a rule that it visited. -/
private theorem Closed.covered (hclosed : collector.Closed base Known)
    (hknown : ∀ definition, Known definition → loader.Defines definition)
    {definition : Definition} (hdefines : loader.Defines definition) {site : Site}
    (howns : definition.Owns site) (hvisited : site.place ∈ collector.visited) :
    ∀ task ∈ WalkTask.ofVisit site (.atTop base definition),
      task.Covered (· ∈ collector.visited) collector.dependencies := by
  -- The collector is closed at the place, and a place has one rule.
  obtain ⟨found, other, hplace, hother, hfound, htasks⟩ := hclosed site.place hvisited
  have hscope : other.grammar.scope = definition.grammar.scope := by
    rw [← hfound.scope_eq, hplace, howns.scope_eq]
  obtain rfl := (hknown other hother).eq hdefines hscope
  obtain rfl := hfound.eq howns hplace
  exact htasks

/-- What a closed collector has seen it has seen with what is inside. -/
theorem Closed.seesInner (hl : loader.Honest) (hflat : loader.IsFlat)
    (hclosed : collector.Closed base Known)
    (hknown : ∀ definition, Known definition → loader.Defines definition) {scope : ScopeName}
    {rule inner : Rule} (h : collector.Sees loader scope rule) (hinner : inner ∈ rule.inner) :
    collector.Sees loader scope inner := by
  obtain ⟨definition, site, hdefinition, howns, rfl, hvisited⟩ := h
  have hcovered := hclosed.covered hknown (Loader.defines_of_definition? hl hdefinition) howns
    hvisited
  rw [WalkTask.ofVisit_atTop (hflat scope _ (by rw [Loader.grammar?, hdefinition]; rfl)) howns]
    at hcovered
  obtain ⟨found, hfound, rfl⟩ := Site.exists_mem_of_inner hinner
  -- What is inside the rule are the tasks in front of its include.
  have hvisit := hcovered (.visit found (.atTop base definition))
    (List.mem_append_left _ (List.mem_map_of_mem hfound))
  exact ⟨definition, found, hdefinition, howns.inner hfound, rfl, hvisit⟩

/-- A visited top level is a grammar that was seen as a whole. -/
private theorem seenWhole_of_visited {scope : ScopeName} {definition : Definition}
    (hdefinition : loader.definition? scope = some definition)
    (h : ∀ site ∈ definition.top, site.place ∈ collector.visited) :
    SeenWhole loader (collector.Sees loader) scope := by
  intro rule hrule
  rw [Loader.topRules_eq hdefinition] at hrule
  obtain ⟨site, hsite, heq⟩ := Definition.exists_mem_top hrule
  exact ⟨definition, site, hdefinition, Definition.owns_of_mem_top hsite, heq, h site hsite⟩

/-- What a name leads to was seen when its site was visited. -/
private theorem seenRule_of_visited {scope : ScopeName} {definition : Definition}
    (hdefinition : loader.definition? scope = some definition) {name : String}
    (h : ∀ site ∈ (Context.atTop base definition).lookup name,
      site.place ∈ collector.visited) :
    SeenRule loader (collector.Sees loader) scope name := by
  intro rule hrule
  rw [Loader.rule?_eq hdefinition] at hrule
  -- In a flat grammar a name leads to one rule of the repository at most.
  obtain ⟨site, hsite, heq⟩ := Definition.exists_find?_repository hrule
  rw [Context.lookup_atTop, hsite] at h
  exact ⟨definition, site, hdefinition, Definition.owns_of_mem_repository (Dict.mem_of_find? hsite),
    heq, h site (by simp)⟩

/-- A scope that a walk goes into without asking is that of the grammar or the base. -/
private theorem definition?_of_local? (hl : loader.Honest) {initial scope other : ScopeName}
    (hbase : loader.definition? initial = some base) {definition : Definition}
    (hdefinition : loader.definition? scope = some definition) {text : String}
    (hother : ScopeName.ofString? text = some other) {context : Context}
    (h : (Context.atTop base definition).local? text = some context) :
    (other = scope ∨ other = initial) ∧ ∃ found, loader.definition? other = some found ∧
      context = .atTop base found := by
  obtain ⟨found, hor, hscope, rfl⟩ := Context.exists_of_local? h
  rcases hor with rfl | rfl
  · -- The text spells one scope, which is that of the definition.
    obtain rfl := (Loader.text_eq_iff hl hbase hother).1 hscope
    exact ⟨Or.inr rfl, found, hbase, rfl⟩
  · obtain rfl := (Loader.text_eq_iff hl hdefinition hother).1 hscope
    exact ⟨Or.inl rfl, found, hdefinition, rfl⟩

/-- What a rule includes a closed collector has seen or noted, if it has seen the rule. -/
theorem Closed.met (hl : loader.Honest) (hflat : loader.IsFlat)
    (hclosed : collector.Closed base Known)
    (hknown : ∀ definition, Known definition → loader.Defines definition) {initial : ScopeName}
    (hbase : loader.definition? initial = some base) {scope : ScopeName} {rule : Rule}
    (h : collector.Sees loader scope rule) {target : Include}
    (htarget : rule.include? = some target) :
    Met loader initial (collector.Sees loader) (· ∈ collector.dependencies) scope target := by
  obtain ⟨definition, site, hdefinition, howns, rfl, hvisited⟩ := h
  have hcovered := hclosed.covered hknown (Loader.defines_of_definition? hl hdefinition) howns
    hvisited
  rw [WalkTask.ofVisit_atTop (hflat scope _ (by rw [Loader.grammar?, hdefinition]; rfl)) howns]
    at hcovered
  -- The include is the last task of the rule.
  have hfollow := hcovered (.follow target (.atTop base definition))
    (List.mem_append_right _ (by rw [Rule.include?] at htarget; simp [htarget]))
  cases target with
  | base => exact seenWhole_of_visited hbase hfollow
  | self => exact seenWhole_of_visited hdefinition hfollow
  | rule name => exact seenRule_of_visited hdefinition hfollow
  | grammar text =>
    intro other hother
    simp only [WalkTask.Covered, Context.follow] at hfollow
    cases hcase : (Context.atTop base definition).local? text with
    | some context =>
      obtain ⟨hor, found, hfound, rfl⟩ :=
        definition?_of_local? hl hbase hdefinition hother hcase
      -- A known scope is one of the two grammars, and what it has was walked.
      rw [hcase] at hfollow
      exact Or.inl ⟨hor, seenWhole_of_visited hfound hfollow⟩
    | none =>
      -- Another scope was noted.
      rw [hcase, hother] at hfollow
      exact Or.inr hfollow
  | grammarRule text name =>
    intro other hother
    simp only [WalkTask.Covered, Context.follow] at hfollow
    -- A rule of the same grammar is looked up there before the base is thought of.
    by_cases hcurrent : (Context.atTop base definition).current.grammar.scope.text = text
    · rw [if_pos hcurrent] at hfollow
      obtain rfl := (Loader.text_eq_iff hl hdefinition hother).1 hcurrent
      exact Or.inl ⟨Or.inl rfl, seenRule_of_visited hdefinition hfollow⟩
    · rw [if_neg hcurrent] at hfollow
      cases hcase : (Context.atTop base definition).local? text with
      | some context =>
        obtain ⟨hor, found, hfound, rfl⟩ :=
          definition?_of_local? hl hbase hdefinition hother hcase
        rw [hcase] at hfollow
        exact Or.inl ⟨hor, seenRule_of_visited hfound hfollow⟩
      | none =>
        rw [hcase, hother] at hfollow
        obtain ⟨hne, hinitial⟩ := Context.local?_eq_none_iff.1 hcase
        exact Or.inr ⟨fun heq => hne ((Loader.text_eq_iff hl hdefinition hother).2 heq),
          fun heq => hinitial ((Loader.text_eq_iff hl hbase hother).2 heq), hfollow⟩

end

end Collector

/-! ## The scans of a layer -/

/-- A collector that has visited more still sees what it saw. -/
private theorem Collector.Sees.mono {before after : Collector} {loader : Loader} {scope : ScopeName}
    {rule : Rule} (h : before.Sees loader scope rule) (hsubset : before.visited ⊆ after.visited) :
    after.Sees loader scope rule := by
  obtain ⟨definition, site, hdefinition, howns, heq, hvisited⟩ := h
  exact ⟨definition, site, hdefinition, howns, heq, hsubset hvisited⟩

/-- What a dependency asks for was seen. -/
def Dependency.Seen (loader : Loader) (seen : ScopeName → Rule → Prop) : Dependency → Prop
  | whole scope => SeenWhole loader seen scope
  | part scope name => SeenRule loader seen scope name

/-- What was asked for stays seen when more is. -/
private theorem Dependency.Seen.mono {loader : Loader} {seen later : ScopeName → Rule → Prop}
    {dependency : Dependency} (h : dependency.Seen loader seen)
    (hseen : ∀ scope rule, seen scope rule → later scope rule) :
    dependency.Seen loader later := by
  cases dependency with
  | whole scope => exact fun rule hrule => hseen _ rule (h rule hrule)
  | part scope name => exact fun rule hrule => hseen _ rule (h rule hrule)

/-- The definition is that of the initial scope or of a scope reported as loaded. -/
def Resolution.Knows (report : Resolution) (loader : Loader) (initial : ScopeName)
    (definition : Definition) : Prop :=
  loader.Defines definition ∧
    (definition.grammar.scope = initial ∨ definition.grammar.scope ∈ report.loaded)

namespace Run

/-- What scans of dependencies have done to a collector and a report. -/
structure Scanned (loader : Loader) (initial : ScopeName) (base : Definition)
    (layer : List Dependency) (before after : Collector × Resolution) : Prop where
  visited_subset : before.1.visited ⊆ after.1.visited
  dependencies_subset : before.1.dependencies ⊆ after.1.dependencies
  closed : before.1.Closed base (before.2.Knows loader initial) →
    after.1.Closed base (after.2.Knows loader initial)
  /-- What the dependencies ask for was seen, and what is injected was noted. -/
  answered : ∀ dependency ∈ layer, (loader.definition? dependency.scope).isSome →
    dependency.Seen loader (after.1.Sees loader) ∧
      ∀ scope ∈ loader.injected dependency.scope, .whole scope ∈ after.1.dependencies
  /-- The scopes with a grammar are reported as loaded. -/
  mem_loaded_iff : ∀ scope, scope ∈ after.2.loaded ↔ scope ∈ before.2.loaded ∨
    ∃ dependency ∈ layer, dependency.scope = scope ∧ (loader.definition? scope).isSome
  /-- The scopes without a grammar are reported as missing. -/
  mem_missing_iff : ∀ scope, scope ∈ after.2.missing ↔ scope ∈ before.2.missing ∨
    ∃ dependency ∈ layer, dependency.scope = scope ∧ loader.definition? scope = none
  mem_whole_iff : ∀ scope, scope ∈ after.2.whole ↔ scope ∈ before.2.whole ∨
    .whole scope ∈ layer ∧ (loader.definition? scope).isSome
  mem_parts_iff : ∀ key, key ∈ after.2.parts ↔ key ∈ before.2.parts ∨
    ∃ scope name, .part scope name ∈ layer ∧ (loader.definition? scope).isSome ∧
      (Dependency.part scope name).key = key

namespace Scanned

variable {loader : Loader} {initial : ScopeName} {base : Definition}
  {layer rest : List Dependency} {before middle after : Collector × Resolution}

/-- Without dependencies nothing has changed. -/
private theorem nil : Scanned loader initial base [] before before where
  visited_subset := fun _ h => h
  dependencies_subset := fun _ h => h
  closed := fun h => h
  answered := fun _ h => nomatch h
  mem_loaded_iff := by simp
  mem_missing_iff := by simp
  mem_whole_iff := by simp
  mem_parts_iff := by simp

/-- Scans of two parts of a layer are the scans of both. -/
private theorem append (hfirst : Scanned loader initial base layer before middle)
    (hrest : Scanned loader initial base rest middle after) :
    Scanned loader initial base (layer ++ rest) before after where
  -- The second part of a layer starts with what the first part has left.
  visited_subset := fun _ h => hrest.visited_subset (hfirst.visited_subset h)
  dependencies_subset := fun _ h => hrest.dependencies_subset (hfirst.dependencies_subset h)
  closed := fun h => hrest.closed (hfirst.closed h)
  answered := by
    intro dependency hdependency hsome
    -- What an early scan has seen stays seen.
    rcases List.mem_append.1 hdependency with hearly | hlate
    · obtain ⟨hseen, hinjected⟩ := hfirst.answered dependency hearly hsome
      exact ⟨hseen.mono fun _ _ h => h.mono hrest.visited_subset,
        fun scope hscope => hrest.dependencies_subset (hinjected scope hscope)⟩
    · exact hrest.answered dependency hlate hsome
  mem_loaded_iff := by
    intro scope
    rw [hrest.mem_loaded_iff, hfirst.mem_loaded_iff]
    simp only [List.mem_append, or_and_right, exists_or, or_assoc]
  mem_missing_iff := by
    intro scope
    rw [hrest.mem_missing_iff, hfirst.mem_missing_iff]
    simp only [List.mem_append, or_and_right, exists_or, or_assoc]
  mem_whole_iff := by
    intro scope
    rw [hrest.mem_whole_iff, hfirst.mem_whole_iff]
    simp only [List.mem_append, or_and_right, or_assoc]
  mem_parts_iff := by
    intro key
    rw [hrest.mem_parts_iff, hfirst.mem_parts_iff]
    simp only [List.mem_append, or_and_right, exists_or, or_assoc]

end Scanned

/-- What a walk and the injected scopes do to a collector. -/
private theorem collected_spec {loader : Loader} (hl : loader.Honest) (hflat : loader.IsFlat)
    {initial : ScopeName} {base : Definition} (hbase : loader.definition? initial = some base)
    {scope : ScopeName} {definition : Definition}
    (hdefinition : loader.definition? scope = some definition) {sites : List Site}
    (howns : ∀ site ∈ sites, definition.Owns site) (collector : Collector)
    (injected : List ScopeName) (report later : Resolution)
    (hlater : ∀ other, other ∈ later.loaded ↔ other ∈ report.loaded ∨ other = scope) :
    let after := (collector.collect base definition sites).addInjections injected
    collector.visited ⊆ after.visited ∧ collector.dependencies ⊆ after.dependencies ∧
    (collector.Closed base (report.Knows loader initial) →
      after.Closed base (later.Knows loader initial)) ∧
    (∀ site ∈ sites, site.place ∈ after.visited) ∧
    ∀ other ∈ injected, .whole other ∈ after.dependencies := by
  -- The definitions of an honest loader have different scopes, hence different places.
  have horigin : base.origin = definition.origin → base = definition := fun heq =>
    (Loader.defines_of_definition? hl hbase).eq (Loader.defines_of_definition? hl hdefinition)
      (congrArg Place.scope heq)
  refine ⟨List.subset_append_left _ _, fun dependency h => ?_, fun hclosed => ?_, ?_,
    fun other h => ?_⟩
  · exact List.mem_append_left _ (List.mem_append_left _ h)
  · have hknown : ∀ found, later.Knows loader initial found → found.grammar.IsFlat := by
      intro found hfound
      -- All definitions that are known come from the loader.
      refine hflat found.grammar.scope found.grammar ?_
      rw [Loader.grammar?, hfound.1]
      rfl
    have hmore : ∀ found, report.Knows loader initial found → later.Knows loader initial found :=
      fun found hfound => ⟨hfound.1, hfound.2.imp_right fun h => (hlater _).2 (Or.inl h)⟩
    have hbaseknown : later.Knows loader initial base :=
      ⟨Loader.defines_of_definition? hl hbase, Or.inl (Loader.grammar?_scope hl hbase)⟩
    have hdefinitionknown : later.Knows loader initial definition :=
      ⟨Loader.defines_of_definition? hl hdefinition,
        Or.inr ((hlater _).2 (Or.inr (Loader.grammar?_scope hl hdefinition)))⟩
    exact ((hclosed.mono hmore).collect horigin hknown hbaseknown hdefinitionknown
      howns).addInjections injected
  · exact Collector.mem_visited_of_collect horigin howns
  · exact List.mem_append_right _ (List.mem_map_of_mem h)

section

variable {loader : Loader} {initial : ScopeName} {base : Definition} {dependency : Dependency}

/-- A dependency without a grammar is reported as missing, and nothing else happens. -/
private theorem scanned_missing (hnone : loader.definition? dependency.scope = none)
    (collector : Collector) (report : Resolution) :
    Scanned loader initial base [dependency] (collector, report)
      (collector, { report with missing := addNew report.missing dependency.scope }) := by
  -- Every list but that of the missing scopes takes only dependencies with a grammar.
  have hsome : ¬ (loader.definition? dependency.scope).isSome := by simp [hnone]
  refine ⟨fun _ h => h, fun _ h => h, fun h => h, ?_, ?_, ?_, ?_, ?_⟩
  · intro other hother hfound
    rw [List.mem_singleton.1 hother] at hfound
    exact absurd hfound hsome
  · intro scope
    refine (or_iff_left ?_).symm
    rintro ⟨other, hother, rfl, hfound⟩
    rw [List.mem_singleton.1 hother] at hfound
    exact hsome hfound
  · intro scope
    -- The list of the missing scopes gets the scope of this one.
    rw [mem_addNew]
    refine or_congr_right ⟨?_, ?_⟩
    · rintro rfl
      exact ⟨dependency, List.mem_singleton_self _, rfl, hnone⟩
    · rintro ⟨other, hother, rfl, -⟩
      rw [List.mem_singleton.1 hother]
  · intro scope
    refine (or_iff_left ?_).symm
    rintro ⟨hother, hfound⟩
    rw [← List.mem_singleton.1 hother] at hsome
    exact hsome hfound
  · intro key
    refine (or_iff_left ?_).symm
    rintro ⟨scope, name, hother, hfound, -⟩
    rw [← List.mem_singleton.1 hother] at hsome
    exact hsome hfound

/-- A dependency with a grammar is reported as loaded. What else is reported of it, and that what it
asks for was seen, depends on what it asks for. -/
private theorem scanned_found (hl : loader.Honest) (hflat : loader.IsFlat)
    (hbase : loader.definition? initial = some base) {definition : Definition}
    (hdefinition : loader.definition? dependency.scope = some definition) {sites : List Site}
    (howns : ∀ site ∈ sites, definition.Owns site) {collector : Collector}
    (hseen : ∀ after : Collector, (∀ site ∈ sites, site.place ∈ after.visited) →
      dependency.Seen loader (after.Sees loader))
    {report later : Resolution}
    (hloaded : later.loaded = addNew report.loaded dependency.scope)
    (hmissing : later.missing = report.missing)
    (hwhole : ∀ scope, scope ∈ later.whole ↔
      scope ∈ report.whole ∨ .whole scope = dependency)
    (hparts : ∀ key, key ∈ later.parts ↔
      key ∈ report.parts ∨ ∃ scope name, .part scope name = dependency ∧
        (Dependency.part scope name).key = key) :
    Scanned loader initial base [dependency] (collector, report)
      ((collector.collect base definition sites).addInjections (loader.injected dependency.scope),
        later) := by
  have hsome : (loader.definition? dependency.scope).isSome := by simp [hdefinition]
  -- What the walk does to the collector does not depend on what is reported of it.
  obtain ⟨hvisited, hnoted, hclosed, hplaces, hinjected⟩ := collected_spec hl hflat hbase
    hdefinition howns collector (loader.injected dependency.scope) report later
    (by simp [hloaded])
  refine ⟨hvisited, hnoted, hclosed, ?_, ?_, ?_, ?_, ?_⟩
  · intro other hother _
    rw [List.mem_singleton.1 hother]
    exact ⟨hseen _ hplaces, hinjected⟩
  · intro scope
    rw [hloaded, mem_addNew]
    refine or_congr_right ⟨?_, ?_⟩
    · rintro rfl
      exact ⟨dependency, List.mem_singleton_self _, rfl, hsome⟩
    · rintro ⟨other, hother, rfl, -⟩
      rw [List.mem_singleton.1 hother]
  · intro scope
    -- Nothing is added to the missing scopes, as there is a grammar.
    rw [hmissing]
    refine (or_iff_left ?_).symm
    rintro ⟨other, hother, rfl, hnone⟩
    rw [List.mem_singleton.1 hother, hdefinition] at hnone
    cases hnone
  · intro scope
    rw [hwhole, List.mem_singleton]
    refine or_congr_right (iff_self_and.2 ?_)
    rintro rfl
    exact hsome
  · intro key
    rw [hparts]
    refine or_congr_right ⟨?_, ?_⟩
    · rintro ⟨scope, name, rfl, hkey⟩
      exact ⟨scope, name, List.mem_singleton_self _, hsome, hkey⟩
    · rintro ⟨scope, name, hmem, -, hkey⟩
      exact ⟨scope, name, List.mem_singleton.1 hmem, hkey⟩

/-- What the scan of one dependency does. -/
private theorem scanned_of_scan (hl : loader.Honest) (hflat : loader.IsFlat)
    (hbase : loader.definition? initial = some base) {store : Store} {collector : Collector}
    {report : Resolution} (hagrees : store.Agrees loader dependency.scope)
    {after : Collector × Resolution}
    (h : scan store initial base collector report dependency = .ok after) :
    Scanned loader initial base [dependency] (collector, report) after := by
  -- The store has what the loader answered, so the scan is one of the two above.
  simp only [scan, hagrees.lookup_eq, hagrees.injectionsInto_eq] at h
  split at h
  · rename_i hnone
    split at h
    · cases h
    · cases h
      exact scanned_missing hnone collector report
  · rename_i definition hdefinition
    -- A whole grammar is walked from its top, and a part from the rule of its name.
    cases dependency with
    | whole scope =>
      cases h
      refine scanned_found hl hflat hbase hdefinition (fun _ => Definition.owns_of_mem_top)
        (fun _ => Collector.seenWhole_of_visited hdefinition) rfl rfl ?_ ?_
      · simp
      · simp
    | part scope name =>
      cases h
      refine scanned_found hl hflat hbase hdefinition (fun _ => Context.owns_of_mem_lookup)
        (fun _ => Collector.seenRule_of_visited hdefinition) rfl rfl ?_ ?_
      · simp
      · simp [eq_comm]

end

/-- What the scans of a layer see, note and report. -/
theorem scanned_of_scanAll {loader : Loader} (hl : loader.Honest) (hflat : loader.IsFlat)
    {initial : ScopeName} {base : Definition} (hbase : loader.definition? initial = some base)
    {store : Store} {layer : List Dependency} {before after : Collector × Resolution}
    (hagrees : ∀ dependency ∈ layer, store.Agrees loader dependency.scope)
    (h : scanAll store initial base layer before = .ok after) :
    Scanned loader initial base layer before after := by
  induction layer generalizing before with
  | nil =>
    cases h
    exact .nil
  | cons dependency rest ih =>
    obtain ⟨collector, report⟩ := before
    simp only [scanAll] at h
    split at h
    · cases h
    · rename_i middle hscan
      -- The rest of the layer starts with what the first scan leaves.
      have hfirst := scanned_of_scan hl hflat hbase (hagrees dependency List.mem_cons_self) hscan
      exact hfirst.append (ih (fun other hother => hagrees other (List.mem_cons_of_mem _ hother)) h)

end Run

end Textmate
