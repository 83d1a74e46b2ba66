import Mathlib.Algebra.BigOperators.Group.List.Basic
import Mathlib.Data.List.Dedup
import Mathlib.Data.List.Perm.Subperm
import Textmate.Proofs.Resolution.History

/-!
# What grammars mention

A grammar mentions the scopes and the rules of scopes that its rules include, wherever in the
grammar the rules are. Besides its initial scope a resolution requests only what the grammars of the
loader mention and the scopes that the loader injects. Each request is made once, so there are no
more layers than that, however the grammars include each other.

## Key results

- `Definition.Owns.mem_mentions`: what a rule asks for is mentioned in its grammar
- `History.requests_subset`: what a resolution requests is mentioned
- `History.length_le`: a resolution has no more layers than there are keys to request
-/

namespace Textmate

/-! ## What a grammar mentions -/

/-- The dependency that an include names, if it names a scope. -/
def Include.dependency? : Include → Option Dependency
  | .grammar text => (ScopeName.ofString? text).map .whole
  | .grammarRule text name => (ScopeName.ofString? text).map (.part · name)
  | _ => none

/-- The dependency that the rule itself includes. -/
def Rule.mentions? (rule : Rule) : Option Dependency :=
  rule.include?.bind (·.dependency?)

/-- What the rules of the grammar include, the inner ones too. -/
def Grammar.mentions (grammar : Grammar) : List Dependency :=
  (Definition.mk 0 grammar).places.filterMap fun place =>
    (grammar.ruleAt? place.steps).bind (·.mentions?)

/-- What a rule asks for is what it includes. -/
private theorem Site.mentions?_of_asks {base : ScopeName} {site : Site} {dependency : Dependency}
    (h : site.asks base = some dependency) : site.rule.mentions? = some dependency := by
  unfold asks outside? at h
  unfold Rule.mentions?
  cases htarget : site.rule.include? with
  | none =>
    rw [htarget] at h
    cases h
  | some target =>
    rw [htarget] at h
    cases target with
    | grammar text =>
      -- The scope that is asked for is the one that the text names, whatever the base is.
      obtain ⟨scope, hscope, rfl⟩ := Option.map_eq_some_iff.1 h
      rw [Option.bind_some, Include.dependency?, (Option.filter_eq_some_iff.1 hscope).1,
        Option.map_some]
    | grammarRule text name =>
      obtain ⟨scope, hscope, rfl⟩ := Option.map_eq_some_iff.1 h
      rw [Option.bind_some, Include.dependency?, (Option.filter_eq_some_iff.1 hscope).1,
        Option.map_some]
    | base => cases h
    | self => cases h
    | rule name => cases h

/-- What a rule asks for is mentioned in the grammar to which the rule belongs. -/
theorem Definition.Owns.mem_mentions {definition : Definition} {site : Site}
    (h : definition.Owns site) {base : ScopeName} {dependency : Dependency}
    (hasks : site.asks base = some dependency) : dependency ∈ definition.grammar.mentions := by
  -- The rule is at the same steps whatever the number of the definition is.
  have howns : (Definition.mk 0 definition.grammar).Owns
      ⟨⟨site.place.scope, 0, site.place.steps⟩, site.rule⟩ :=
    ⟨h.scope_eq, rfl, h.ruleAt?_eq⟩
  refine List.mem_filterMap.2 ⟨_, howns.mem_places, ?_⟩
  rw [h.ruleAt?_eq, Option.bind_some, Site.mentions?_of_asks hasks]

/-! ## What a store mentions -/

/-- The grammars of the store and its lists of injected scopes mention only what is allowed. -/
structure Store.MentionsOnly (store : Store) (allowed : List Dependency) : Prop where
  grammars : ∀ scope definition, store.lookup scope = some definition →
    definition.grammar.mentions ⊆ allowed
  injections : ∀ scope, ∀ other ∈ store.injectionsInto scope, .whole other ∈ allowed

namespace Store

variable {store : Store} {allowed : List Dependency}

/-- An empty store mentions nothing. -/
theorem mentionsOnly_empty (engine : Engine) (allowed : List Dependency) :
    (empty engine).MentionsOnly allowed :=
  ⟨fun _ _ h => (nomatch h), fun _ _ h => nomatch h⟩

/-- What is registered for a grammar is the grammar. -/
@[simp] theorem grammar_define (store : Store) (grammar : Grammar) :
    (store.define grammar).grammar = grammar := by
  unfold define
  split <;> rfl

/-- A store with a further grammar mentions what the grammar mentions and what is injected. -/
private theorem MentionsOnly.register (h : store.MentionsOnly allowed) {grammar : Grammar}
    {injected : List ScopeName} (hgrammar : grammar.mentions ⊆ allowed)
    (hinjected : ∀ other ∈ injected, .whole other ∈ allowed) :
    (store.register grammar injected).MentionsOnly allowed := by
  refine ⟨fun scope definition hlookup => ?_, fun scope other hother => ?_⟩
  · -- Only the scope of the new grammar has another grammar than before.
    rw [lookup_register] at hlookup
    split at hlookup
    · cases hlookup
      rwa [grammar_define]
    · exact h.grammars scope definition hlookup
  · rw [injectionsInto_register] at hother
    split at hother
    · exact hinjected other hother
    · exact h.injections scope other hother

end Store

namespace Layer

/-- What a layer finds is mentioned by its base and its store. -/
private theorem found_subset {layer : Layer} {allowed : List Dependency}
    (hbase : layer.base.grammar.mentions ⊆ allowed) (hstore : layer.store.MentionsOnly allowed) :
    layer.found.dependencies ⊆ allowed := by
  intro dependency hfound
  rcases byRule_or_byInjection hfound with hrule | hinjection
  · obtain ⟨site, definition, hdefinition, howns, -, hasks⟩ := hrule
    -- The rule belongs to the base or to a grammar of the store.
    have hmentioned := howns.mem_mentions hasks
    rcases hdefinition with rfl | ⟨request, -, hlookup⟩
    · exact hbase hmentioned
    · exact hstore.grammars _ definition hlookup hmentioned
  · obtain ⟨request, -, scope, hscope, rfl⟩ := hinjection
    exact hstore.injections request.scope scope hscope

end Layer

/-! ## What a loader mentions -/

namespace Loader

/-- The grammars with which the loader answers and the scopes that it injects then are only what is
allowed. -/
structure MentionsOnly (loader : Loader) (allowed : List Dependency) : Prop where
  grammars : ∀ scope grammar, loader.answer scope = .grammar grammar → grammar.mentions ⊆ allowed
  injections : ∀ scope grammar, loader.answer scope = .grammar grammar →
    ∀ other ∈ loader.injections scope, .whole other ∈ allowed

/-- The loader has grammars for some scopes at most. -/
def ServesOnly (loader : Loader) (served : List ScopeName) : Prop :=
  ∀ scope grammar, loader.answer scope = .grammar grammar → scope ∈ served

/-- What the grammars of scopes mention, and what is injected into these scopes. -/
def mentions (loader : Loader) (served : List ScopeName) : List Dependency :=
  served.flatMap fun scope => match loader.answer scope with
    | .grammar grammar => grammar.mentions ++ (loader.injections scope).map .whole
    | _ => []

/-- What a loader mentions comes from the scopes for which it has grammars. -/
theorem ServesOnly.mentionsOnly {loader : Loader} {served : List ScopeName}
    (h : loader.ServesOnly served) : loader.MentionsOnly (loader.mentions served) := by
  -- A scope with a grammar is among those that are served.
  have hall (scope : ScopeName) (grammar : Grammar)
      (hanswer : loader.answer scope = .grammar grammar) :
      grammar.mentions ++ (loader.injections scope).map .whole ⊆ loader.mentions served := by
    intro dependency hmem
    refine List.mem_flatMap.2 ⟨scope, h scope grammar hanswer, ?_⟩
    rwa [hanswer]
  exact ⟨fun scope grammar hanswer _ hmem =>
      hall scope grammar hanswer (List.mem_append_left _ hmem),
    fun scope grammar hanswer _ hmem =>
      hall scope grammar hanswer (List.mem_append_right _ (List.mem_map_of_mem hmem))⟩

/-- A loader of given grammars has none for other scopes. -/
theorem servesOnly_ofGrammars (grammars : List Grammar)
    (injections : List (ScopeName × List ScopeName)) :
    (ofGrammars grammars injections).ServesOnly (grammars.map (·.scope)) := by
  intro scope grammar h
  simp only [ofGrammars] at h
  split at h
  · rename_i found hfind
    have hscope : found.scope = scope := by simpa using List.find?_some hfind
    exact List.mem_map.2 ⟨found, List.mem_of_find?_eq_some hfind, hscope⟩
  · cases h

end Loader

namespace Library

variable {loader : Loader} {allowed : List Dependency} {library next : Library}

/-- Loads register what the loader answers, so they mention nothing else. -/
private theorem Step.mentionsOnly (hl : loader.MentionsOnly allowed)
    (hm : library.store.MentionsOnly allowed) (h : Step loader library next) :
    next.store.MentionsOnly allowed := by
  rcases h.effect with ⟨hstore, -⟩ | ⟨scope, -, hstore, -⟩
  · rwa [hstore]
  · rw [hstore]
    unfold accept
    split
    · rename_i grammar hanswer
      exact hm.register (hl.grammars scope grammar hanswer) (hl.injections scope grammar hanswer)
    · exact hm
    · exact hm

/-- Nor do any number of steps register something else. -/
theorem Steps.mentionsOnly (hl : loader.MentionsOnly allowed)
    (hm : library.store.MentionsOnly allowed) (h : Steps loader library next) :
    next.store.MentionsOnly allowed :=
  h.keep (·.store.MentionsOnly allowed) hm fun _ _ hstep hm => hstep.mentionsOnly hl hm

end Library

/-! ## What a resolution requests -/

/-- The different keys of dependencies. -/
def Dependency.keys (dependencies : List Dependency) : List String :=
  (dependencies.map (·.key)).dedup

namespace History

variable {loader : Loader} {allowed : List Dependency} {first library : Library}
  {initial : ScopeName} {layers : List Layer} {run : Run}

/-- The base is a grammar of the store. -/
private theorem base_mentions (hl : loader.MentionsOnly allowed)
    (hfirst : first.store.MentionsOnly allowed)
    (h : History loader first initial layers library run) {base : Definition}
    (hbase : run.base.or (library.store.lookup run.initial) = some base) :
    base.grammar.mentions ⊆ allowed := by
  induction h generalizing base with
  | start => exact hfirst.grammars _ base hbase
  | load h hstep ih =>
    rename_i run
    cases hknown : run.base with
    | some known =>
      refine ih ?_
      rw [hknown] at hbase ⊢
      exact hbase
    | none =>
      rw [hknown] at hbase
      exact ((h.load hstep).steps.mentionsOnly hl hfirst).grammars _ base hbase
  | layer h houtcomes hnone hearlier hnext ih =>
    -- A layer hands its base on to the next one.
    obtain ⟨known, collector, report, hknown, -, rfl⟩ := Run.next_eq_ok hnext
    cases hbase
    exact ih hknown

/-- Besides its initial scope a resolution requests only what is mentioned. -/
theorem requests_subset (hl : loader.MentionsOnly allowed)
    (hfirst : first.store.MentionsOnly allowed)
    (h : History loader first initial layers library run) :
    layers.flatMap (·.requests) ++ run.layer ⊆ .whole initial :: allowed := by
  induction h with
  | start => exact List.cons_subset_cons _ (List.nil_subset _)
  | load _ _ ih => exact ih
  | layer h houtcomes hnone hbase hnext ih =>
    rename_i library run after base outcomes
    -- What a layer requests its scans have found.
    have hfound : (run.layerIn library.store base).found.dependencies ⊆ allowed :=
      Layer.found_subset (h.base_mentions hl hfirst hbase) (h.steps.mentionsOnly hl hfirst)
    intro request hrequest
    rw [List.flatMap_append, List.flatMap_cons, List.flatMap_nil, List.append_nil] at hrequest
    rcases List.mem_append.1 hrequest with hbefore | hnow
    · exact ih hbefore
    · exact List.mem_cons_of_mem _ (hfound ((h.selection hbase hnext).subset hnow))

/-- A resolution in which every layer requests something has no more layers than there are keys that
it can request, and one for the initial scope. -/
theorem length_le (hl : loader.MentionsOnly allowed) (hfirst : first.store.MentionsOnly allowed)
    (h : History loader first initial layers library run)
    (hlayers : ∀ layer ∈ layers, layer.requests ≠ []) (hrun : run.layer ≠ []) :
    layers.length + 1 ≤ 1 + (Dependency.keys allowed).length := by
  -- The keys of all requests differ, and each is that of the initial scope or a mentioned one.
  have hnodup : ((layers.flatMap (·.requests) ++ run.layer).map (·.key)).Nodup :=
    h.nodup_requests.map fun _ _ hkey => Dependency.key_inj.1 hkey
  have hsubset : (layers.flatMap (·.requests) ++ run.layer).map (·.key) ⊆
      (Dependency.whole initial).key :: Dependency.keys allowed := by
    intro key hkey
    obtain ⟨request, hrequest, rfl⟩ := List.mem_map.1 hkey
    rcases List.mem_cons.1 (h.requests_subset hl hfirst hrequest) with rfl | hmentioned
    · exact List.mem_cons_self
    · exact List.mem_cons_of_mem _ (List.mem_dedup.2 (List.mem_map_of_mem hmentioned))
  -- So there are no more requests than keys.
  have hcount := (hnodup.subperm hsubset).length_le
  -- Every layer has requested something.
  have hmany : layers.length ≤ (layers.flatMap (·.requests)).length := by
    rw [List.length_flatMap, ← List.length_map (f := fun layer : Layer => layer.requests.length)]
    refine List.length_le_sum_of_one_le _ fun count hmem => ?_
    obtain ⟨layer, hlayer, rfl⟩ := List.mem_map.1 hmem
    exact List.length_pos_iff.2 (hlayers layer hlayer)
  have hlast := List.length_pos_iff.2 hrun
  simp only [List.length_map, List.length_append, List.length_cons] at hcount
  omega

end History

end Textmate
