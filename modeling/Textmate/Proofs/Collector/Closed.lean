import Textmate.Proofs.Collector.Walk

/-!
# Collectors of flat grammars

In a grammar without inner repositories an include leads to the same rules wherever it stands, so it
makes no difference that a collector visits each rule only once, whatever walk comes to it first.
What a collector has visited is closed: it has also visited all that these rules lead to inside the
grammar and inside the base, and noted all other scopes that they include.

## Key results

- `Closed.collect`: a walk keeps the collector closed
- `mem_visited_of_collect`: it visits the rules that it starts from
-/

namespace Textmate

/-! ## Contexts at the top level -/

namespace Context

/-- At the top level a name leads to the repository of the grammar alone. -/
theorem lookup_atTop (base current : Definition) (name : String) :
    (atTop base current).lookup name = (Dict.find? name current.repository).toList := by
  unfold lookup atTop
  rw [List.findSome?_cons]
  cases Dict.find? name current.repository <;> rfl

/-- What a name leads to there belongs to the grammar. -/
theorem owns_of_mem_lookup {base current : Definition} {name : String} {site : Site}
    (h : site ∈ (atTop base current).lookup name) : current.Owns site := by
  rw [lookup_atTop] at h
  exact Definition.owns_of_mem_repository (Dict.mem_of_find? (Option.mem_toList.1 h))

/-- A scope is known inside if it is that of the grammar or of the base. -/
theorem local?_atTop (base current : Definition) (text : String) :
    (atTop base current).local? text =
      if current.grammar.scope.text = text then some (atTop base current)
      else if base.grammar.scope.text = text then some (atTop base base)
      else none := rfl

/-- A scope that is known inside leads to the top level of the grammar or of the base. -/
theorem exists_of_local? {base current : Definition} {text : String} {context : Context}
    (h : (atTop base current).local? text = some context) :
    ∃ definition, (definition = base ∨ definition = current) ∧
      definition.grammar.scope.text = text ∧ context = atTop base definition := by
  -- The current grammar is looked at before the base.
  rw [local?_atTop] at h
  split at h
  · rename_i hcurrent
    cases h
    exact ⟨current, Or.inr rfl, hcurrent, rfl⟩
  · split at h
    · rename_i hbase
      cases h
      exact ⟨base, Or.inl rfl, hbase, rfl⟩
    · cases h

/-- All scopes but these two are others. -/
theorem local?_eq_none_iff {base current : Definition} {text : String} :
    (atTop base current).local? text = none ↔
      current.grammar.scope.text ≠ text ∧ base.grammar.scope.text ≠ text := by
  rw [local?_atTop]
  split
  · simp_all
  · split <;> simp_all

/-- The rules of the target belong to one of two definitions and lie at its top level. -/
def Target.Within (base current : Definition) : Target → Prop
  | rules sites context =>
    ∃ definition, (definition = base ∨ definition = current) ∧
      context = atTop base definition ∧ ∀ site ∈ sites, definition.Owns site
  | scope _ => True

section

variable {base current definition : Definition}

/-- The top level of the grammar or the base lies within. -/
private theorem within_topLevel (hor : definition = base ∨ definition = current) :
    (topLevel (atTop base definition)).Within base current :=
  ⟨definition, hor, rfl, fun _ => Definition.owns_of_mem_top⟩

/-- So does what a name leads to in one of them. -/
private theorem within_lookup (hor : definition = base ∨ definition = current) (name : String) :
    (Target.rules ((atTop base definition).lookup name) (atTop base definition)).Within
      base current :=
  ⟨definition, hor, rfl, fun _ => owns_of_mem_lookup⟩

/-- Without a scope to ask for there are no rules. -/
private theorem within_getD (scope : Option ScopeName) (dependency : ScopeName → Dependency) :
    ((scope.map fun s => Target.scope (dependency s)).getD (.nothing (atTop base current))).Within
      base current := by
  cases scope with
  | none => exact ⟨current, Or.inr rfl, rfl, fun _ h => nomatch h⟩
  | some other => trivial

/-- An include leads to rules of the grammar in which it stands or of the base. -/
private theorem follow_within (base current : Definition) (target : Include) :
    ((atTop base current).follow target).Within base current := by
  -- Every include leads to a top level, to a name in the repositories, or to another scope.
  cases target with
  | base => exact within_topLevel (Or.inl rfl)
  | self => exact within_topLevel (Or.inr rfl)
  | rule name => exact within_lookup (Or.inr rfl) name
  | grammar text =>
    simp only [follow]
    split
    · rename_i other hlocal
      obtain ⟨definition, hor, -, rfl⟩ := exists_of_local? hlocal
      exact within_topLevel hor
    · exact within_getD _ .whole
  | grammarRule text name =>
    simp only [follow]
    split
    · exact within_lookup (Or.inr rfl) name
    · split
      · rename_i other hlocal
        obtain ⟨definition, hor, -, rfl⟩ := exists_of_local? hlocal
        exact within_lookup hor name
      · exact within_getD _ fun s => .part s name

/-- The rules that an include leads to belong to the grammar in which it stands or to the base. -/
theorem owns_of_follow_atTop {target : Include} {sites : List Site} {context : Context}
    (h : (atTop base current).follow target = .rules sites context) :
    ∃ definition, (definition = base ∨ definition = current) ∧
      context = atTop base definition ∧ ∀ site ∈ sites, definition.Owns site := by
  have hwithin := follow_within base current target
  rw [h] at hwithin
  exact hwithin

end

end Context

/-! ## Tasks in flat grammars -/

namespace WalkTask

/-- The task is one in the grammar of a definition among some, with a base. -/
def Between (base : Definition) (Known : Definition → Prop) : WalkTask → Prop
  | visit site context =>
    ∃ definition, Known definition ∧ context = .atTop base definition ∧ definition.Owns site
  | follow _ context => ∃ definition, Known definition ∧ context = .atTop base definition

/-- A rule of a flat grammar stays between the same repositories. -/
theorem ofVisit_atTop {base definition : Definition} (hflat : definition.grammar.IsFlat)
    {site : Site} (howns : definition.Owns site) :
    ofVisit site (.atTop base definition) =
      visits (site.patterns ++ site.captures) (.atTop base definition) ++
        ((site.rule.includes.bind fun text => (Include.parse text).toOption).map
          (follow · (.atTop base definition))).toList := by
  -- A repository of its own would put one more layer above.
  have hinside : (Context.atTop base definition).inside site = .atTop base definition := by
    rw [Context.inside, howns.repository?_eq_none hflat]
  rw [ofVisit, hinside]

/-- What a rule of a flat grammar leads to is again between the same definitions. -/
private theorem between_of_mem_ofVisit {base definition : Definition} {Known : Definition → Prop}
    {site : Site} (hknown : Known definition) (hflat : definition.grammar.IsFlat)
    (howns : definition.Owns site) {task : WalkTask}
    (h : task ∈ ofVisit site (.atTop base definition)) : task.Between base Known := by
  rw [ofVisit_atTop hflat howns] at h
  rcases List.mem_append.1 h with hvisit | hfollow
  · obtain ⟨inner, hinner, rfl⟩ := List.mem_map.1 hvisit
    exact ⟨definition, hknown, rfl, howns.inner hinner⟩
  · obtain ⟨target, -, rfl⟩ := Option.map_eq_some_iff.1 (Option.mem_toList.1 hfollow)
    exact ⟨definition, hknown, rfl⟩

/-- So a walk never leaves them. -/
private theorem inherited_between {base : Definition} {Known : Definition → Prop}
    (hflat : ∀ definition, Known definition → definition.grammar.IsFlat) (hbase : Known base) :
    Inherited (Between base Known) where
  ofVisit := by
    rintro site context ⟨definition, hknown, rfl, howns⟩ task htask
    exact between_of_mem_ofVisit hknown (hflat definition hknown) howns htask
  visits := by
    rintro target context sites inner ⟨definition, hknown, rfl⟩ hfollow task htask
    -- An include leads to the grammar in which it stands or to the base, and both are known.
    obtain ⟨found, hor, rfl, howns⟩ := Context.owns_of_follow_atTop hfollow
    obtain ⟨site, hsite, rfl⟩ := List.mem_map.1 htask
    refine ⟨found, ?_, rfl, howns site hsite⟩
    rcases hor with rfl | rfl
    · exact hbase
    · exact hknown

/-- Where a task between definitions leads is seen when all rules of these and of the base are that
were seen before. -/
private theorem Covered.imp {seen later : Place → Prop} {before after : List Dependency}
    {task : WalkTask} {base : Definition} {Known : Definition → Prop} (h : task.Covered seen before)
    (hfit : task.Between base Known) (hbase : Known base)
    (hseen : ∀ definition site, Known definition → definition.Owns site → seen site.place →
      later site.place) (hnoted : before ⊆ after) : task.Covered later after := by
  cases task with
  | visit site context =>
    obtain ⟨definition, hknown, -, howns⟩ := hfit
    exact hseen definition site hknown howns h
  | follow target context =>
    obtain ⟨definition, hknown, rfl⟩ := hfit
    -- The include leads to the same rules, or to the same scope, as it did before.
    simp only [Covered] at h ⊢
    split
    · rename_i sites inner hfollow
      rw [hfollow] at h
      intro site hsite
      obtain ⟨found, hor, -, howns⟩ := Context.owns_of_follow_atTop hfollow
      refine hseen found site ?_ (howns site hsite) (h site hsite)
      rcases hor with rfl | rfl
      · exact hbase
      · exact hknown
    · rename_i dependency hfollow
      rw [hfollow] at h
      exact hnoted h

end WalkTask

/-! ## Closed collectors -/

namespace Collector

/-- For every visited rule the collector has seen or noted all that the rule leads to. -/
def Closed (collector : Collector) (base : Definition) (Known : Definition → Prop) : Prop :=
  ∀ place ∈ collector.visited, ∃ site definition, site.place = place ∧ Known definition ∧
    definition.Owns site ∧ ∀ task ∈ WalkTask.ofVisit site (.atTop base definition),
      task.Covered (· ∈ collector.visited) collector.dependencies

/-- A collector that has visited nothing is closed. -/
theorem closed_empty (base : Definition) (Known : Definition → Prop) : empty.Closed base Known :=
  fun _ h => nomatch h

/-- A closed collector stays so when more definitions count. -/
theorem Closed.mono {collector : Collector} {base : Definition} {Known More : Definition → Prop}
    (h : collector.Closed base Known) (hmore : ∀ definition, Known definition → More definition) :
    collector.Closed base More := by
  intro place hplace
  obtain ⟨site, definition, hsite, hknown, howns, htasks⟩ := h place hplace
  exact ⟨site, definition, hsite, hmore definition hknown, howns, htasks⟩

/-- Injected scopes that are added visit no rule. -/
theorem Closed.addInjections {collector : Collector} {base : Definition}
    {Known : Definition → Prop} (h : collector.Closed base Known) (scopes : List ScopeName) :
    (collector.addInjections scopes).Closed base Known := by
  intro place hplace
  obtain ⟨site, definition, hsite, hknown, howns, htasks⟩ := h place hplace
  refine ⟨site, definition, hsite, hknown, howns, fun task htask => ?_⟩
  exact (htasks task htask).mono (fun _ h => h) (List.subset_append_left _ _)

/-- A place of the grammar or the base that is not fresh was visited. -/
theorem mem_visited_of_not_mem_fresh {collector : Collector} {base current : Definition}
    (horigin : base.origin = current.origin → base = current) {definition : Definition}
    (hor : definition = base ∨ definition = current) {site : Site} (howns : definition.Owns site)
    (h : site.place ∉ collector.fresh base current) : site.place ∈ collector.visited := by
  -- What is fresh are the places of both definitions that were not visited.
  have hplace := howns.mem_places
  refine Decidable.byContradiction fun hnot => h (List.mem_filter.2 ⟨?_, by simpa using hnot⟩)
  split
  · rename_i heq
    rcases hor with rfl | rfl
    · exact horigin heq ▸ hplace
    · exact hplace
  · rcases hor with rfl | rfl
    · exact List.mem_append_left _ hplace
    · exact List.mem_append_right _ hplace

section

variable {collector : Collector} {base current : Definition} {Known : Definition → Prop}
  {sites : List Site}

/-- What a walk has seen the collector has visited. -/
private theorem covered_collect (horigin : base.origin = current.origin → base = current)
    {task : WalkTask}
    (hfit : task.Between base fun definition => definition = base ∨ definition = current)
    (h : task.Covered ((walk (collector.fresh base current)
        (WalkTask.visits sites (.atTop base current))).Seen (collector.fresh base current))
      (walk (collector.fresh base current)
        (WalkTask.visits sites (.atTop base current))).dependencies) :
    task.Covered (· ∈ (collector.collect base current sites).visited)
      (collector.collect base current sites).dependencies := by
  refine h.imp hfit (Or.inl rfl) (fun definition site hor howns hseen => ?_)
    (List.subset_append_right _ _)
  -- What was not fresh was visited by an earlier walk.
  rcases hseen with hvisited | hfresh
  · exact List.mem_append_right _ hvisited
  · exact List.mem_append_left _ (mem_visited_of_not_mem_fresh horigin hor howns hfresh)

/-- A walk visits the rules that it starts from. -/
theorem mem_visited_of_collect (horigin : base.origin = current.origin → base = current)
    (howns : ∀ site ∈ sites, current.Owns site) :
    ∀ site ∈ sites, site.place ∈ (collector.collect base current sites).visited := by
  intro site hsite
  -- The walk has covered its tasks, and the visits of these rules are among them.
  have htask : WalkTask.visit site (.atTop base current) ∈
      WalkTask.visits sites (.atTop base current) := List.mem_map_of_mem hsite
  have hfit : (WalkTask.visit site (.atTop base current)).Between base
      fun definition => definition = base ∨ definition = current :=
    ⟨current, Or.inr rfl, rfl, howns site hsite⟩
  exact covered_collect horigin hfit (covered_walk _ _ _ htask)

/-- A walk keeps the collector closed. -/
theorem Closed.collect (hclosed : collector.Closed base Known)
    (horigin : base.origin = current.origin → base = current)
    (hflat : ∀ definition, Known definition → definition.grammar.IsFlat) (hbase : Known base)
    (hcurrent : Known current) (howns : ∀ site ∈ sites, current.Owns site) :
    (collector.collect base current sites).Closed base Known := by
  intro place hplace
  rcases List.mem_append.1 hplace with hbefore | hnow
  · -- Visited by an earlier walk, whose findings are kept.
    obtain ⟨site, definition, hsite, hknown, hsiteowns, htasks⟩ := hclosed place hbefore
    refine ⟨site, definition, hsite, hknown, hsiteowns, fun task htask => ?_⟩
    exact (htasks task htask).mono (fun _ h => List.mem_append_left _ h)
      (List.subset_append_left _ _)
  · -- Visited by this walk, which stays in the grammar and the base.
    have hbetween : ∀ definition, definition = base ∨ definition = current → Known definition := by
      rintro definition (rfl | rfl)
      · exact hbase
      · exact hcurrent
    have hinherited := WalkTask.inherited_between
      (fun definition hor => hflat definition (hbetween definition hor)) (Or.inl rfl)
    have hfits : ∀ task ∈ WalkTask.visits sites (.atTop base current), task.Between base
        fun definition => definition = base ∨ definition = current := by
      intro task htask
      obtain ⟨site, hsite, rfl⟩ := List.mem_map.1 htask
      exact ⟨current, Or.inr rfl, rfl, howns site hsite⟩
    obtain ⟨site, context, hsite, ⟨definition, hor, rfl, hsiteowns⟩, htasks⟩ :=
      exists_of_mem_visited hinherited (collector.fresh base current) _ hfits place hnow
    refine ⟨site, definition, hsite, hbetween definition hor, hsiteowns, fun task htask => ?_⟩
    have hfit : task.Between base fun definition => definition = base ∨ definition = current :=
      WalkTask.between_of_mem_ofVisit hor (hflat definition (hbetween definition hor)) hsiteowns
        htask
    exact covered_collect horigin hfit (htasks task htask)

end

end Collector

end Textmate
