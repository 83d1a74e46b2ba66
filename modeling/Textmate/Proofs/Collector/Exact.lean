import Mathlib.Data.List.Permutation
import Textmate.Proofs.Collector.Closed
import Textmate.Proofs.Collector.Records

/-!
# What a collector finds

In two flat grammars, one of them the base, it does not matter in which order a walk comes to the
rules. A collector visits exactly the rules that are reached from those that it starts with, and for
every one of them it has what the rule asks for, once.

## Key results

- `records_collect`: what a walk finds, whatever rules it starts with
- `collects_exactly`: what is found from a whole grammar and from one of its rules
-/

namespace Textmate

/-! ## Reached rules -/

/-- The grammar of a scope that is reached without asking: that of the including rule, or else the
base. -/
inductive Definition.Local (base owner : Definition) (text : String) : Definition → Prop
  | owner (h : owner.grammar.scope.text = text) : Local base owner text owner
  | base (h : base.grammar.scope.text = text) (hne : owner.grammar.scope.text ≠ text) :
    Local base owner text base

/-- The rules to which an include in the `owner` grammar leads inside that grammar and the base,
each with its grammar. -/
inductive Include.Enters (base owner : Definition) : Include → Definition → Site → Prop
  | base {site : Site} (h : site ∈ base.top) : Enters base owner .base base site
  | self {site : Site} (h : site ∈ owner.top) : Enters base owner .self owner site
  | rule {name : String} {site : Site} (h : Dict.find? name owner.repository = some site) :
    Enters base owner (.rule name) owner site
  | grammar {text : String} {found : Definition} {site : Site}
    (hlocal : Definition.Local base owner text found) (h : site ∈ found.top) :
    Enters base owner (.grammar text) found site
  | grammarRule {text name : String} {found : Definition} {site : Site}
    (hlocal : Definition.Local base owner text found)
    (h : Dict.find? name found.repository = some site) :
    Enters base owner (.grammarRule text name) found site

/-- The rules that are reached from rules of the `current` grammar inside that grammar and the base,
each with its grammar. -/
inductive Reached (base current : Definition) (roots : List Site) : Definition → Site → Prop
  | root {site : Site} (h : site ∈ roots) : Reached base current roots current site
  | inner {owner : Definition} {site inner : Site} (h : Reached base current roots owner site)
    (hinner : inner ∈ site.patterns ++ site.captures) : Reached base current roots owner inner
  | included {owner found : Definition} {site other : Site} {target : Include}
    (h : Reached base current roots owner site) (hinclude : site.rule.include? = some target)
    (henters : target.Enters base owner found other) : Reached base current roots found other

/-! ## Where a walk goes -/

namespace Context

variable {base owner found : Definition}

/-- At the top level of a grammar a scope leads to its own grammar or to the base. -/
private theorem local?_eq_some_iff {text : String} {context : Context} :
    (atTop base owner).local? text = some context ↔
      ∃ found, Definition.Local base owner text found ∧ context = atTop base found := by
  -- The grammar itself is looked at first, and the base if it has another scope.
  rw [local?_atTop]
  constructor
  · intro h
    split at h
    · rename_i howner
      cases h
      exact ⟨owner, .owner howner, rfl⟩
    · rename_i hne
      split at h
      · rename_i hbase
        cases h
        exact ⟨base, .base hbase hne, rfl⟩
      · cases h
  · rintro ⟨found, howner | ⟨hbase, hne⟩, rfl⟩
    · rw [if_pos howner]
    · rw [if_neg hne, if_pos hbase]

/-- A rule of another grammar by its name is looked up where the scope leads. -/
private theorem follow_grammarRule_of_local {text : String}
    (hlocal : Definition.Local base owner text found) (name : String) :
    (atTop base owner).follow (.grammarRule text name) =
      .rules ((atTop base found).lookup name) (atTop base found) := by
  have hother := local?_eq_some_iff.2 ⟨found, hlocal, rfl⟩
  simp only [follow, hother]
  cases hlocal with
  | owner howner => rw [if_pos (by exact howner)]
  | base hbase hne => rw [if_neg (by exact hne)]

/-- What an include leads to a walk comes to when it follows the include. -/
private theorem exists_follow_of_enters {target : Include} {site : Site}
    (h : target.Enters base owner found site) :
    ∃ sites, (atTop base owner).follow target = .rules sites (atTop base found) ∧ site ∈ sites := by
  -- A name leads to the rule that the repository has for it.
  have hnamed {definition : Definition} {name : String}
      (hfind : Dict.find? name definition.repository = some site) :
      site ∈ (atTop base definition).lookup name := by
    rw [lookup_atTop, hfind]
    exact List.mem_singleton_self site
  cases h with
  | base htop => exact ⟨_, rfl, htop⟩
  | self htop => exact ⟨_, rfl, htop⟩
  | rule hfind => exact ⟨_, rfl, hnamed hfind⟩
  | grammar hlocal htop =>
    refine ⟨found.top, ?_, htop⟩
    rw [follow, local?_eq_some_iff.2 ⟨found, hlocal, rfl⟩]
    rfl
  | grammarRule hlocal hfind => exact ⟨_, follow_grammarRule_of_local hlocal _, hnamed hfind⟩

/-- What a walk comes to when it follows an include the include leads to. -/
private theorem enters_of_follow {target : Include} {sites : List Site} {context : Context}
    (h : (atTop base owner).follow target = .rules sites context) {site : Site}
    (hsite : site ∈ sites) : target.Enters base owner context.current site := by
  have hnamed {definition : Definition} {name : String}
      (hlookup : site ∈ (atTop base definition).lookup name) :
      Dict.find? name definition.repository = some site := by
    rwa [lookup_atTop, Option.mem_toList] at hlookup
  -- Without a scope to ask for there are no rules.
  have hnothing {scope : Option ScopeName} {dependency : ScopeName → Dependency}
      (heq : (scope.map fun s => Target.scope (dependency s)).getD (.nothing (atTop base owner)) =
        .rules sites context) : False := by
    cases scope with
    | none =>
      cases heq
      cases hsite
    | some other => cases heq
  cases target with
  | base =>
    cases h
    exact .base hsite
  | self =>
    cases h
    exact .self hsite
  | rule name =>
    cases h
    exact .rule (hnamed hsite)
  | grammar text =>
    -- A scope that is known here leads to the top level of its grammar, another one to no rules.
    cases hcase : (atTop base owner).local? text with
    | some other =>
      obtain ⟨found, hlocal, rfl⟩ := local?_eq_some_iff.1 hcase
      rw [follow, hcase] at h
      cases h
      exact .grammar hlocal hsite
    | none =>
      rw [follow, hcase] at h
      exact (hnothing h).elim
  | grammarRule text name =>
    cases hcase : (atTop base owner).local? text with
    | some other =>
      obtain ⟨found, hlocal, rfl⟩ := local?_eq_some_iff.1 hcase
      rw [follow_grammarRule_of_local hlocal] at h
      cases h
      exact .grammarRule hlocal (hnamed hsite)
    | none =>
      have hne := (local?_eq_none_iff.1 hcase).1
      simp only [follow, hcase] at h
      rw [if_neg (by exact hne)] at h
      exact (hnothing h).elim

end Context

/-! ## What a walk visits -/

/-- A place has one rule in a grammar and the base. -/
private theorem Definition.eq_of_owns {base current first second : Definition}
    (horigin : base.origin = current.origin → base = current)
    (hfirst : first = base ∨ first = current) (hsecond : second = base ∨ second = current)
    {site other : Site} (howns : first.Owns site) (howns' : second.Owns other)
    (hplace : site.place = other.place) : first = second ∧ site = other := by
  -- The place tells the scope and the number of the grammar that has it.
  have heq : first.origin = second.origin := by
    have hscope := howns.scope_eq.symm.trans ((congrArg Place.scope hplace).trans howns'.scope_eq)
    have hserial :=
      howns.serial_eq.symm.trans ((congrArg Place.serial hplace).trans howns'.serial_eq)
    exact congrArg₂ (Place.mk · · []) hscope hserial
  obtain rfl : first = second := by
    rcases hfirst with rfl | rfl
    · rcases hsecond with rfl | rfl
      · rfl
      · exact horigin heq
    · rcases hsecond with rfl | rfl
      · exact (horigin heq.symm).symm
      · rfl
  exact ⟨rfl, howns.eq howns' hplace⟩

namespace WalkTask

/-- The task is to visit a reached rule, or to follow what a reached rule includes. -/
def Reached (base current : Definition) (roots : List Site) : WalkTask → Prop
  | visit site context => ∃ owner, context = .atTop base owner ∧ owner.Owns site ∧
    Textmate.Reached base current roots owner site
  | follow target context => ∃ owner site, context = .atTop base owner ∧
    Textmate.Reached base current roots owner site ∧ site.rule.include? = some target

end WalkTask

section

variable {base current owner : Definition} {roots : List Site} {site : Site}

/-- All that is reached belongs to the grammar or the base. -/
private theorem Reached.owns (hroots : ∀ site ∈ roots, current.Owns site)
    (h : Reached base current roots owner site) :
    (owner = base ∨ owner = current) ∧ owner.Owns site := by
  induction h with
  | root hmem => exact ⟨Or.inr rfl, hroots _ hmem⟩
  | inner _ hinner ih => exact ⟨ih.1, ih.2.inner hinner⟩
  | included _ _ henters ih =>
    -- Following the include at the top level comes to the same rules.
    obtain ⟨sites, hfollow, hsite⟩ := Context.exists_follow_of_enters henters
    obtain ⟨found, hor, heq, howns⟩ := Context.owns_of_follow_atTop hfollow
    cases heq
    refine ⟨?_, howns _ hsite⟩
    rcases hor with rfl | rfl
    · exact Or.inl rfl
    · exact ih.1

/-- Tasks lead to tasks about what is reached. -/
private theorem inherited_reached (hbase : base.grammar.IsFlat) (hcurrent : current.grammar.IsFlat)
    (hroots : ∀ site ∈ roots, current.Owns site) :
    WalkTask.Inherited (WalkTask.Reached base current roots) where
  ofVisit := by
    rintro site context ⟨owner, rfl, howns, hreached⟩ task htask
    -- Without repositories inside rules every context is that of a top level.
    have hflat : owner.grammar.IsFlat := by
      rcases (hreached.owns hroots).1 with rfl | rfl
      · exact hbase
      · exact hcurrent
    rw [WalkTask.ofVisit_atTop hflat howns] at htask
    rcases List.mem_append.1 htask with hvisit | hfollow
    · obtain ⟨inner, hinner, rfl⟩ := List.mem_map.1 hvisit
      exact ⟨owner, rfl, howns.inner hinner, hreached.inner hinner⟩
    · obtain ⟨target, htarget, rfl⟩ := Option.map_eq_some_iff.1 (Option.mem_toList.1 hfollow)
      exact ⟨owner, site, rfl, hreached, htarget⟩
  visits := by
    rintro target context sites inner ⟨owner, site, rfl, hreached, hinclude⟩ hfollow task htask
    obtain ⟨found, -, rfl, howns⟩ := Context.owns_of_follow_atTop hfollow
    obtain ⟨other, hother, rfl⟩ := List.mem_map.1 htask
    have henters := Context.enters_of_follow hfollow hother
    exact ⟨found, rfl, howns other hother, hreached.included hinclude henters⟩

end

namespace Collector

/-- The collector has visited the reached rules, each of them once, and for each of them it has what
the rule asks for, once, and nothing else. -/
def Records (collector : Collector) (base : ScopeName) (Reached : Site → Prop) : Prop :=
  ∃ rules : List Site, (rules.map (·.place)).Nodup ∧ (∀ site, site ∈ rules ↔ Reached site) ∧
    collector.visited = rules.map (·.place) ∧
    collector.dependencies.Perm (rules.filterMap (·.asks base))

section

variable {base current : Definition} {sites : List Site}
  (horigin : base.origin = current.origin → base = current) (hbase : base.grammar.IsFlat)
  (hcurrent : current.grammar.IsFlat) (hsites : ∀ site ∈ sites, current.Owns site)

include horigin hbase hcurrent hsites

/-- A new collector visits all that is reached from the rules that it starts with. -/
private theorem mem_visited_of_reached {owner : Definition} {site : Site}
    (h : Reached base current sites owner site) :
    site.place ∈ (empty.collect base current sites).visited := by
  have hflat : ∀ definition, definition = base ∨ definition = current →
      definition.grammar.IsFlat := by
    rintro definition (rfl | rfl)
    · exact hbase
    · exact hcurrent
  have hclosed :=
    (closed_empty base fun definition => definition = base ∨ definition = current).collect
      horigin hflat (Or.inl rfl) (Or.inr rfl) hsites
  -- The collector has done the tasks of a reached rule that it visited.
  have hcovered {owner : Definition} {site : Site}
      (hreached : Reached base current sites owner site)
      (hvisited : site.place ∈ (empty.collect base current sites).visited) :
      ∀ task ∈ WalkTask.ofVisit site (.atTop base owner),
        task.Covered (· ∈ (empty.collect base current sites).visited)
          (empty.collect base current sites).dependencies := by
    obtain ⟨other, definition, hplace, hdefinition, howns, htasks⟩ := hclosed _ hvisited
    obtain ⟨howner, hsite⟩ := hreached.owns hsites
    obtain ⟨rfl, rfl⟩ :=
      Definition.eq_of_owns horigin hdefinition howner howns hsite hplace
    exact htasks
  induction h with
  | root hmem => exact mem_visited_of_collect horigin hsites _ hmem
  | inner hreached hinner ih =>
    obtain ⟨howner, howns⟩ := hreached.owns hsites
    have htasks := hcovered hreached ih
    rw [WalkTask.ofVisit_atTop (hflat _ howner) howns] at htasks
    -- Visiting the rules inside it is among the tasks of a rule.
    exact htasks (.visit _ _) (List.mem_append_left _ (List.mem_map_of_mem hinner))
  | included hreached hinclude henters ih =>
    rename_i owner found site other target
    obtain ⟨howner, howns⟩ := hreached.owns hsites
    have htasks := hcovered hreached ih
    rw [WalkTask.ofVisit_atTop (hflat _ howner) howns] at htasks
    rw [Rule.include?] at hinclude
    -- So is following what it includes.
    have hfollow := htasks (.follow target (.atTop base owner))
      (List.mem_append_right _ (by rw [hinclude]; simp))
    obtain ⟨entered, heq, hmem⟩ := Context.exists_follow_of_enters henters
    simp only [WalkTask.Covered, heq] at hfollow
    exact hfollow _ hmem

/-- What a new collector finds, whatever rules it starts with. -/
theorem records_collect :
    (empty.collect base current sites).Records base.grammar.scope
      fun site => ∃ owner, Reached base current sites owner site := by
  -- The walk may visit the places of both grammars, which have none in common.
  have hfresh : (empty.fresh base current).Nodup := by
    refine List.Nodup.filter _ ?_
    split
    · exact current.places_nodup
    · rename_i hne
      exact base.places_nodup.append current.places_nodup (Definition.disjoint_places hne)
  -- Reached rules are rules of the two grammars.
  have hsound : ∀ task : WalkTask, task.Reached base current sites →
      task.Sound base fun definition => definition = base ∨ definition = current := by
    rintro (⟨site, context⟩ | ⟨target, context⟩) htask
    · obtain ⟨owner, rfl, howns, hreached⟩ := htask
      exact ⟨Context.sound_atTop (hreached.owns hsites).1, howns⟩
    · obtain ⟨owner, site, rfl, hreached, -⟩ := htask
      exact Context.sound_atTop (hreached.owns hsites).1
  have hfits : ∀ task ∈ WalkTask.visits sites (.atTop base current),
      task.Reached base current sites := by
    intro task htask
    obtain ⟨site, hsite, rfl⟩ := List.mem_map.1 htask
    exact ⟨current, rfl, hsites site hsite, .root hsite⟩
  obtain ⟨rules, hrules, hrecord⟩ := records_walk (inherited_reached hbase hcurrent hsites) hsound
    (empty.fresh base current) _ hfits
  have hnodup := (nodup_walk hfresh (WalkTask.visits sites (.atTop base current))).1
  rw [hrecord.visited_eq] at hnodup
  refine ⟨rules, hnodup, fun site => ⟨fun hsite => ?_, ?_⟩, hrecord.visited_eq, ?_⟩
  · obtain ⟨context, owner, -, -, hreached⟩ := hrules site hsite
    exact ⟨owner, hreached⟩
  · rintro ⟨owner, hreached⟩
    -- The place of the rule was visited, and it has no other reached rule.
    have hvisited := mem_visited_of_reached horigin hbase hcurrent hsites hreached
    rw [collect, hrecord.visited_eq] at hvisited
    obtain ⟨other, hother, hplace⟩ := List.mem_map.1 hvisited
    obtain ⟨context, found, -, -, hfound⟩ := hrules other hother
    obtain ⟨howner, howns⟩ := hreached.owns hsites
    obtain ⟨hdefinition, hother'⟩ := hfound.owns hsites
    obtain ⟨-, rfl⟩ :=
      Definition.eq_of_owns horigin hdefinition howner hother' howns hplace
    exact hother
  · -- The tasks at the start note nothing by themselves.
    have hperm := hrecord.perm
    rwa [WalkTask.filterMap_noted?_visits, List.nil_append] at hperm

end

/-- What a new collector finds in two flat grammars, which are the same one or have different
origins. From the top level of a grammar it visits the rules that are reached from there, and
records what they ask for; from a rule of the repository it visits those that are reached from that
rule, which are none if there is no such rule. -/
theorem collects_exactly (base current : Definition)
    (horigin : base.origin = current.origin → base = current) (hbase : base.grammar.IsFlat)
    (hcurrent : current.grammar.IsFlat) :
    (empty.collectAll base current).Records base.grammar.scope
        (fun site => ∃ owner, Reached base current current.top owner site) ∧
      ∀ name, (empty.collectRule base current name).Records base.grammar.scope
          (fun site => ∃ owner,
            Reached base current (Dict.find? name current.repository).toList owner site) ∧
        (current.grammar.rule? name = none → empty.collectRule base current name = empty) := by
  refine ⟨records_collect horigin hbase hcurrent fun _ => Definition.owns_of_mem_top,
    fun name => ⟨?_, fun hnone => ?_⟩⟩
  · rw [← Context.lookup_atTop base current name]
    exact records_collect horigin hbase hcurrent fun _ => Context.owns_of_mem_lookup
  · -- Without the rule the walk has no tasks.
    have hfind : Dict.find? name current.repository = none := by
      rwa [← Option.map_eq_none_iff, Definition.repository, Site.find?_ofEntries]
    rw [collectRule, Context.lookup_atTop, hfind]
    simp [collect, WalkTask.visits, walk, Findings.empty, empty]

/-! ## Two grammars that include each other -/

namespace Embedded

def page : ScopeName := ⟨"text.page", by decide, by simp, by simp; decide⟩

def script : ScopeName := ⟨"source.script", by decide, by simp, by simp; decide⟩

/-- The base, with a rule for the scripts in it. -/
def base : Definition :=
  ⟨0, (((Grammar.empty page).addPattern (.including "source.script")).addPattern
    (.including "#style")).setRule "style" (.including "source.style#block")⟩

/-- A grammar that goes back to the base in three ways. -/
def current : Definition :=
  ⟨0, ((((Grammar.empty script).addPattern (.including "$base")).addPattern
    (.including "$self")).addPattern (.including "text.page#style")).setRule "unused"
    (.including "source.other")⟩

/-- The two grammars only have rules that include something. -/
private theorem isFlat : base.grammar.IsFlat ∧ current.grammar.IsFlat := by
  -- Rule by rule; a rule that includes something has no rules inside.
  refine ⟨Grammar.isFlat_of_including fun rule hrule => ?_,
    Grammar.isFlat_of_including fun rule hrule => ?_⟩
  · simp only [base, Grammar.topRules, Grammar.addPattern, Grammar.setRule, Grammar.empty,
      Dict.values, Dict.insert, List.map_cons, List.map_nil, List.nil_append, List.cons_append,
      List.mem_cons, List.not_mem_nil, or_false] at hrule
    rcases hrule with rfl | rfl | rfl <;> exact ⟨_, rfl⟩
  · simp only [current, Grammar.topRules, Grammar.addPattern, Grammar.setRule, Grammar.empty,
      Dict.values, Dict.insert, List.map_cons, List.map_nil, List.nil_append, List.cons_append,
      List.mem_cons, List.not_mem_nil, or_false] at hrule
    rcases hrule with rfl | rfl | rfl | rfl <;> exact ⟨_, rfl⟩

end Embedded

open Embedded in
/-- A collector goes round between the two grammars, visits six of their seven rules, and has what
they ask for. -/
theorem collects_exactly_from_script : base.origin ≠ current.origin ∧
    base.grammar.IsFlat ∧ current.grammar.IsFlat ∧
    (empty.collectAll base current).visited.length = 6 ∧
    (empty.collectAll base current).dependencies.map (·.key) =
      ["source.script", "source.style#block"] ∧
    (empty.collectAll base current).Records page
      fun site => ∃ owner, Reached base current current.top owner site := by
  -- Grammars with different scopes are different, so each rule belongs to one of them.
  have horigin : base.origin ≠ current.origin := fun h =>
    absurd (congrArg Place.scope h) (by decide)
  have hrecords := (collects_exactly base current (fun h => absurd h horigin) isFlat.1 isFlat.2).1
  exact ⟨horigin, isFlat.1, isFlat.2, by cbv, by cbv, hrecords⟩

end Collector

end Textmate
