import Textmate.Proofs.Collector.Walk
import Textmate.Proofs.Grammar.Distinct

/-!
# What a walk records

A rule asks for a scope when it includes one that is neither the scope of its own grammar nor that
of the base. Whatever repositories there are around the rules, a walk records for every rule that it
visits what the rule asks for, once, and nothing else.

## Key results

- `nodup_walk`: a walk visits no place twice
- `records_walk`: what a walk records are the requests of the rules that it visits
-/

namespace Textmate

/-! ## What a rule asks for -/

namespace Site

/-- The scope that a text names, if it is neither that of the grammar that the rule belongs to nor
the base. -/
def outside? (base : ScopeName) (site : Site) (text : String) : Option ScopeName :=
  (ScopeName.ofString? text).filter fun scope => scope ≠ site.place.scope ∧ scope ≠ base

/-- What the rule asks for: another scope that it includes, as a whole or a rule of it. -/
def asks (base : ScopeName) (site : Site) : Option Dependency :=
  match site.rule.include? with
  | some (.grammar text) => (site.outside? base text).map .whole
  | some (.grammarRule text name) => (site.outside? base text).map (.part · name)
  | _ => none

end Site

/-! ## Contexts of known grammars -/

namespace Context

/-- The dependency that is a target, if it is one. -/
def Target.dependency? : Target → Option Dependency
  | rules _ _ => none
  | scope dependency => some dependency

/-- The context is in a grammar among some, and the repositories hold rules of that grammar. -/
structure Sound (base : Definition) (Known : Definition → Prop) (context : Context) : Prop where
  base_eq : context.base = base
  known : Known context.current
  /-- The rules that names stand for belong to the grammar. -/
  owns : ∀ repository ∈ context.repositories, ∀ entry ∈ repository, context.current.Owns entry.2

section

variable {base : Definition} {Known : Definition → Prop} {context : Context}

/-- The top level of a known grammar is sound. -/
theorem sound_atTop {current : Definition} (hknown : Known current) :
    (atTop base current).Sound base Known where
  base_eq := rfl
  known := hknown
  owns := by
    intro repository hrepository entry hentry
    rw [List.mem_singleton.1 hrepository] at hentry
    exact Definition.owns_of_mem_repository hentry

/-- What a name leads to belongs to the grammar. -/
private theorem Sound.owns_of_mem_lookup (h : context.Sound base Known) {name : String}
    {site : Site} (hsite : site ∈ context.lookup name) : context.current.Owns site := by
  obtain ⟨repository, hrepository, hfind⟩ :=
    List.exists_of_findSome?_eq_some (Option.mem_toList.1 hsite)
  exact h.owns repository hrepository _ (Dict.mem_of_find? hfind)

/-- A context stays sound inside a rule of its grammar. -/
theorem Sound.inside (h : context.Sound base Known) {site : Site}
    (howns : context.current.Owns site) : (context.inside site).Sound base Known := by
  unfold Context.inside
  split
  · exact h
  · rename_i repository hrepository
    refine ⟨h.base_eq, h.known, fun other hother entry hentry => ?_⟩
    rcases List.mem_cons.1 hother with rfl | houter
    · -- The rule's own repository is one step further inside the rule.
      obtain ⟨entries, hentries, rfl⟩ := Option.map_eq_some_iff.1 hrepository
      obtain ⟨index, hplace, hrule⟩ := Site.of_mem_ofEntries hentry
      refine howns.of_inside? hplace ?_
      rw [Rule.inside?, hentries, Option.getD_some, hrule, Option.map_some]
    · exact h.owns other houter entry hentry

end

/-- The base is the same inside a rule. -/
private theorem base_inside (context : Context) (site : Site) :
    (context.inside site).base = context.base := by
  unfold inside
  split <;> rfl

/-- The grammar is the same inside a rule. -/
theorem current_inside (context : Context) (site : Site) :
    (context.inside site).current = context.current := by
  unfold inside
  split <;> rfl

/-- A walk goes into another grammar without asking exactly when a text names the scope of the
grammar that it is in or of the base. -/
private theorem local?_isSome_iff {context : Context} {text : String} :
    (context.local? text).isSome ↔
      context.current.grammar.scope.text = text ∨ context.base.grammar.scope.text = text := by
  unfold local?
  split
  · simp_all
  · split <;> simp_all

section

variable {context : Context} {site : Site}
  (hscope : site.place.scope = context.current.grammar.scope)

include hscope

/-- A text names a scope to ask for exactly when a walk does not go into its grammar. -/
private theorem outside?_eq (text : String) :
    site.outside? context.base.grammar.scope text =
      if (context.local? text).isSome then none else ScopeName.ofString? text := by
  unfold Site.outside?
  cases hread : ScopeName.ofString? text with
  | none => simp
  | some scope =>
    -- A scope that is read is the only one with its text.
    obtain rfl := ScopeName.ofString?_eq_some_iff.1 hread
    have htext (other : ScopeName) : other.text = scope.text ↔ scope = other :=
      ⟨fun h => ScopeName.ext h.symm, fun h => h ▸ rfl⟩
    simp only [local?_isSome_iff, htext, hscope, Option.filter_some, ne_eq, ← not_or,
      decide_not, Bool.not_eq_true', decide_eq_false_iff_not, ite_not]

/-- Following what a rule includes leads to another scope exactly when the rule asks for it. -/
private theorem dependency?_follow :
    (site.rule.include?.bind fun target => (context.follow target).dependency?) =
      site.asks context.base.grammar.scope := by
  unfold Site.asks
  cases site.rule.include? with
  | none => rfl
  | some target =>
    rw [Option.bind_some]
    cases target with
    | base => rfl
    | self => rfl
    | rule name => rfl
    | grammar text =>
      -- A scope that is not known here is asked for, if the text is the name of one.
      simp only [follow, outside?_eq hscope]
      cases context.local? text with
      | some other => rfl
      | none => cases ScopeName.ofString? text <;> rfl
    | grammarRule text name =>
      simp only [follow, outside?_eq hscope]
      -- The scope of the current grammar is known here without a look at the base.
      split
      · rename_i hcurrent
        rw [if_pos (local?_isSome_iff.2 (Or.inl hcurrent))]
        rfl
      · cases context.local? text with
        | some other => rfl
        | none => cases ScopeName.ofString? text <;> rfl

end

/-! ## Where includes lead -/

/-- The rules of the target belong to the grammar that its context is in. -/
def Target.Sound (base : Definition) (Known : Definition → Prop) : Target → Prop
  | rules sites context => context.Sound base Known ∧ ∀ site ∈ sites, context.current.Owns site
  | scope _ => True

section

variable {base : Definition} {Known : Definition → Prop}

/-- The rules at the top level of a known grammar belong to it. -/
private theorem sound_topLevel {current : Definition} (hknown : Known current) :
    (topLevel (.atTop base current)).Sound base Known :=
  ⟨sound_atTop hknown, fun _ => Definition.owns_of_mem_top⟩

/-- So do those that a name leads to. -/
private theorem sound_lookup {context : Context} (h : context.Sound base Known) (name : String) :
    (Target.rules (context.lookup name) context).Sound base Known :=
  ⟨h, fun _ => h.owns_of_mem_lookup⟩

/-- A scope that is known inside leads to the top level of a known grammar. -/
private theorem Sound.exists_of_local? (hbase : Known base) {context other : Context}
    (h : context.Sound base Known) {text : String} (hlocal : context.local? text = some other) :
    ∃ definition, Known definition ∧ other = .atTop base definition := by
  unfold local? at hlocal
  -- The text names the current grammar or else the base, and both are known.
  rw [h.base_eq] at hlocal
  split at hlocal
  · cases hlocal
    exact ⟨context.current, h.known, rfl⟩
  · split at hlocal
    · cases hlocal
      exact ⟨base, hbase, rfl⟩
    · cases hlocal

/-- Without a scope to ask for there are no rules. -/
private theorem sound_getD {context : Context} (h : context.Sound base Known)
    (scope : Option ScopeName) (dependency : ScopeName → Dependency) :
    ((scope.map fun s => Target.scope (dependency s)).getD (.nothing context)).Sound base
      Known := by
  cases scope with
  | none => exact ⟨h, fun _ hsite => nomatch hsite⟩
  | some other => trivial

/-- Following an include in a sound context leads to sound contexts. -/
theorem Sound.follow (hbase : Known base) {context : Context} (h : context.Sound base Known)
    (target : Include) : (context.follow target).Sound base Known := by
  -- Every include leads to a top level, to a name in the repositories, or to another scope.
  cases target with
  | base =>
    rw [Context.follow, h.base_eq]
    exact sound_topLevel hbase
  | self =>
    rw [Context.follow, h.base_eq]
    exact sound_topLevel h.known
  | rule name => exact sound_lookup h name
  | grammar text =>
    simp only [Context.follow]
    -- A known scope leads to one of the two grammars, another one out of them.
    split
    · rename_i other hlocal
      obtain ⟨definition, hknown, rfl⟩ := h.exists_of_local? hbase hlocal
      exact sound_topLevel hknown
    · exact sound_getD h _ .whole
  | grammarRule text name =>
    simp only [Context.follow]
    split
    · exact sound_lookup h name
    · split
      · rename_i other hlocal
        obtain ⟨definition, hknown, rfl⟩ := h.exists_of_local? hbase hlocal
        exact sound_lookup (sound_atTop hknown) name
      · exact sound_getD h _ fun s => .part s name

end

end Context

/-! ## Tasks in known grammars -/

namespace WalkTask

/-- The task is one in a sound context, to visit a rule of the grammar that the context is in. -/
def Sound (base : Definition) (Known : Definition → Prop) : WalkTask → Prop
  | visit site context => context.Sound base Known ∧ context.current.Owns site
  | follow _ context => context.Sound base Known

/-- What the task itself records. -/
def noted? : WalkTask → Option Dependency
  | visit _ _ => none
  | follow target context => (context.follow target).dependency?

/-- Visits record nothing by themselves. -/
theorem filterMap_noted?_visits (sites : List Site) (context : Context) :
    (visits sites context).filterMap noted? = [] := by
  simp [visits, List.filterMap_map, Function.comp_def, noted?]

/-- What the tasks of a rule record is what the rule asks for. -/
private theorem filterMap_noted?_ofVisit {base : Definition} {Known : Definition → Prop}
    {site : Site} {context : Context} (h : (visit site context).Sound base Known) :
    (ofVisit site context).filterMap noted? = (site.asks base.grammar.scope).toList := by
  obtain ⟨hsound, howns⟩ := h
  -- The rule stands in the grammar in which the walk is.
  have hscope : site.place.scope = (context.inside site).current.grammar.scope := by
    rw [Context.current_inside, howns.scope_eq]
  have hasks := Context.dependency?_follow hscope
  rw [Context.base_inside, hsound.base_eq] at hasks
  rw [ofVisit, List.filterMap_append, filterMap_noted?_visits, List.nil_append, ← hasks]
  -- There is one task more than the visits, to follow the include, if there is one.
  change (site.rule.include?.map _).toList.filterMap noted? = _
  cases site.rule.include? with
  | none => rfl
  | some target =>
    simp only [Option.map_some, Option.toList_some, Option.bind_some, List.filterMap_cons,
      List.filterMap_nil, noted?]
    split <;> simp_all

/-- What a sound task leads to is sound. -/
theorem inherited_sound {base : Definition} {Known : Definition → Prop} (hbase : Known base) :
    Inherited (Sound base Known) where
  ofVisit := by
    rintro site context ⟨hsound, howns⟩ task htask
    have hinside := hsound.inside howns
    -- A rule leads to the rules inside it and to what it includes.
    rcases List.mem_append.1 htask with hvisit | hfollow
    · obtain ⟨inner, hinner, rfl⟩ := List.mem_map.1 hvisit
      exact ⟨hinside, (context.current_inside site).symm ▸ howns.inner hinner⟩
    · obtain ⟨target, -, rfl⟩ := Option.map_eq_some_iff.1 (Option.mem_toList.1 hfollow)
      exact hinside
  visits := by
    intro target context sites inner hsound hfollow task htask
    have htarget := Context.Sound.follow hbase hsound target
    rw [hfollow] at htarget
    obtain ⟨site, hsite, rfl⟩ := List.mem_map.1 htask
    exact ⟨htarget.1, htarget.2 site hsite⟩

end WalkTask

/-! ## The findings of a walk -/

/-- A walk visits fresh places only, and none of them twice. -/
theorem nodup_walk {fresh : List Place} (hfresh : fresh.Nodup) (tasks : List WalkTask) :
    (walk fresh tasks).visited.Nodup ∧ (walk fresh tasks).visited ⊆ fresh := by
  induction fresh, tasks using walk.induct with
  | case1 fresh =>
    rw [walk]
    exact ⟨List.nodup_nil, List.nil_subset _⟩
  | case2 fresh site context tasks hmem _ ih =>
    obtain ⟨hnodup, hsubset⟩ := ih (hfresh.erase _)
    rw [walk, dif_pos hmem]
    refine ⟨List.nodup_cons.2 ⟨fun hvisited => ?_, hnodup⟩, List.cons_subset.2 ⟨hmem, ?_⟩⟩
    · exact hfresh.not_mem_erase (hsubset hvisited)
    · -- What is visited behind the first place is fresh without it.
      exact fun place hplace => List.mem_of_mem_erase (hsubset hplace)
  | case3 fresh site context tasks hmem ih =>
    rw [walk, dif_neg hmem]
    exact ih hfresh
  | case4 fresh target context tasks sites inner hfollow ih =>
    rw [walk, hfollow]
    exact ih hfresh
  | case5 fresh target context tasks dependency hfollow ih =>
    rw [walk, hfollow]
    exact ih hfresh

/-- The findings are those of tasks and rules: the rules were visited, and what was noted is what
the tasks and the rules ask for, once for each of them. -/
structure Findings.Record (findings : Findings) (base : ScopeName) (tasks : List WalkTask)
    (rules : List Site) : Prop where
  visited_eq : findings.visited = rules.map (·.place)
  /-- What was noted, in some order. -/
  perm : findings.dependencies.Perm (tasks.filterMap (·.noted?) ++ rules.filterMap (·.asks base))

/-- What a walk records are the requests of its tasks and of the rules that it visits. -/
theorem records_walk {base : Definition} {Known : Definition → Prop} {Fits : WalkTask → Prop}
    (hinherited : WalkTask.Inherited Fits) (hsound : ∀ task, Fits task → task.Sound base Known)
    (fresh : List Place) (tasks : List WalkTask) (hfits : ∀ task ∈ tasks, Fits task) :
    ∃ rules, (∀ site ∈ rules, ∃ context, Fits (.visit site context)) ∧
      (walk fresh tasks).Record base.grammar.scope tasks rules := by
  induction fresh, tasks using walk.induct with
  | case1 fresh =>
    rw [walk]
    exact ⟨[], List.forall_mem_nil _, rfl, .nil⟩
  | case2 fresh site context tasks hmem _ ih =>
    -- The tasks of the rule record what the rule asks for, and it joins the visited rules.
    have hsite := hfits _ List.mem_cons_self
    have hrest : ∀ task ∈ WalkTask.ofVisit site context ++ tasks, Fits task := by
      intro task htask
      rcases List.mem_append.1 htask with hinner | houter
      · exact hinherited.ofVisit site context hsite task hinner
      · exact hfits task (List.mem_cons_of_mem _ houter)
    obtain ⟨rules, hrules, hrecord⟩ := ih hrest
    have hperm := hrecord.perm
    rw [List.filterMap_append, WalkTask.filterMap_noted?_ofVisit (hsound _ hsite)] at hperm
    rw [walk, dif_pos hmem]
    refine ⟨site :: rules, ?_, ?_, ?_⟩
    · intro other hother
      rcases List.mem_cons.1 hother with rfl | hlater
      · exact ⟨context, hsite⟩
      · exact hrules other hlater
    · exact congrArg (site.place :: ·) hrecord.visited_eq
    · have hcons : (site :: rules).filterMap (·.asks base.grammar.scope) =
          (site.asks base.grammar.scope).toList ++
            rules.filterMap (·.asks base.grammar.scope) := by
        simp only [List.filterMap_eq_flatMap_toList, List.flatMap_cons]
      rw [List.filterMap_cons_none rfl, hcons, ← List.append_assoc]
      exact hperm.trans (List.perm_append_comm.append_right _)
  | case3 fresh site context tasks hmem ih =>
    rw [walk, dif_neg hmem]
    obtain ⟨rules, hrules, hrecord⟩ :=
      ih fun task htask => hfits task (List.mem_cons_of_mem _ htask)
    exact ⟨rules, hrules, hrecord.visited_eq, hrecord.perm⟩
  | case4 fresh target context tasks sites inner hfollow ih =>
    -- Following the include into the grammar records nothing by itself.
    rw [walk, hfollow]
    have hrest : ∀ task ∈ WalkTask.visits sites inner ++ tasks, Fits task := by
      intro task htask
      rcases List.mem_append.1 htask with hvisits | houter
      · exact hinherited.visits target context sites inner (hfits _ List.mem_cons_self) hfollow task
          hvisits
      · exact hfits task (List.mem_cons_of_mem _ houter)
    obtain ⟨rules, hrules, hrecord⟩ := ih hrest
    have hnone : (WalkTask.follow target context).noted? = none := by
      rw [WalkTask.noted?, hfollow]
      rfl
    refine ⟨rules, hrules, hrecord.visited_eq, ?_⟩
    have hperm := hrecord.perm
    rw [List.filterMap_append, WalkTask.filterMap_noted?_visits, List.nil_append] at hperm
    rwa [List.filterMap_cons_none hnone]
  | case5 fresh target context tasks dependency hfollow ih =>
    rw [walk, hfollow]
    obtain ⟨rules, hrules, hrecord⟩ :=
      ih fun task htask => hfits task (List.mem_cons_of_mem _ htask)
    -- The include leads to another scope, which the task itself records.
    have hsome : (WalkTask.follow target context).noted? = some dependency := by
      rw [WalkTask.noted?, hfollow]
      rfl
    refine ⟨rules, hrules, hrecord.visited_eq, ?_⟩
    rw [List.filterMap_cons_some hsome, List.cons_append]
    exact hrecord.perm.cons dependency

end Textmate
