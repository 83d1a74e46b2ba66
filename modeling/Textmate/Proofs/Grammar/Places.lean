import Textmate.Dependency.Place
import Textmate.Grammar.Include

/-!
# Rules at places

The steps of a place lead to one rule of a grammar. So a site that belongs to a definition is
determined by its place, all sites inside it belong to the definition too, and their places are
among those that the definition lists.

## Key results

- `Definition.Owns.inner`: what is inside a rule of a definition belongs to the definition
- `Definition.Owns.mem_places`: the places of a definition are those of its rules
- `Definition.Owns.eq`: a place has one rule
-/

namespace Textmate

namespace Rule

/-- What the rule includes, if that is an include. -/
def include? (rule : Rule) : Option Include :=
  rule.includes.bind fun text => (Include.parse text).toOption

/-- The rules of one capture table. -/
def captureTable? (rule : Rule) : Fin 4 → Option Repository
  | 0 => rule.captures
  | 1 => rule.beginCaptures
  | 2 => rule.endCaptures
  | 3 => rule.whileCaptures

/-- The rules one step inside the rule, without those of its own repository. -/
def inner (rule : Rule) : List Rule :=
  rule.patterns.getD [] ++ rule.captureTables.flatMap Dict.values

/-- The rule one step further inside. -/
def inside? (rule : Rule) : Step → Option Rule
  | .pattern index => (rule.patterns.getD [])[index]?
  | .injection _ => none
  | .named index => (rule.repository.getD [])[index]?.map (·.2)
  | .capture table index => ((rule.captureTable? table).getD [])[index]?.map (·.2)

end Rule

namespace Grammar

/-- The rules at the top level of the grammar. -/
def topRules (grammar : Grammar) : List Rule :=
  grammar.patterns ++ Dict.values grammar.injections

/-- The rule one step inside the grammar. -/
def inside? (grammar : Grammar) : Step → Option Rule
  | .pattern index => grammar.patterns[index]?
  | .injection index => grammar.injections[index]?.map (·.2)
  | .named index => grammar.repository[index]?.map (·.2)
  | .capture _ _ => none

/-- The rule to which steps lead, the last one of which is given first. -/
def ruleAt? (grammar : Grammar) : List Step → Option Rule
  | [] => none
  | [step] => grammar.inside? step
  | step :: before :: steps => (grammar.ruleAt? (before :: steps)).bind (·.inside? step)

/-- One more step leads inside the rule that the steps before lead to. -/
private theorem ruleAt?_cons {grammar : Grammar} {steps : List Step} {rule : Rule}
    (h : grammar.ruleAt? steps = some rule) (step : Step) :
    grammar.ruleAt? (step :: steps) = rule.inside? step := by
  cases steps with
  | nil => cases h
  | cons before steps => rw [ruleAt?, h, Option.bind_some]

/-- No rule of the grammar has a repository of its own. -/
def IsFlat (grammar : Grammar) : Prop :=
  ∀ steps rule, grammar.ruleAt? steps = some rule → rule.repository = none

end Grammar

/-- There is nothing inside a rule that only includes. -/
private theorem Rule.inside?_including (text : String) (step : Step) :
    (Rule.including text).inside? step = none := by
  cases step with
  | capture table index => match table with
    | 0 | 1 | 2 | 3 => rfl
  | _ => rfl

/-- The rules one step inside the grammar are those at its top level and of its repository. -/
private theorem Grammar.mem_of_inside? {grammar : Grammar} {step : Step} {rule : Rule}
    (h : grammar.inside? step = some rule) :
    rule ∈ grammar.topRules ++ Dict.values grammar.repository := by
  -- Injections and the repository are both tables of rules.
  have hentries {entries : Repository} {index : Nat} (h : entries[index]?.map (·.2) = some rule) :
      rule ∈ Dict.values entries := by
    obtain ⟨entry, hentry, rfl⟩ := Option.map_eq_some_iff.1 h
    exact List.mem_map_of_mem (List.mem_of_getElem? hentry)
  cases step with
  | pattern index =>
    exact List.mem_append_left _ (List.mem_append_left _ (List.mem_of_getElem? h))
  | injection index => exact List.mem_append_left _ (List.mem_append_right _ (hentries h))
  | named index => exact List.mem_append_right _ (hentries h)
  | capture table index => cases h

/-- A grammar is flat when all its rules only include something. -/
theorem Grammar.isFlat_of_including {grammar : Grammar}
    (h : ∀ rule ∈ grammar.topRules ++ Dict.values grammar.repository,
      ∃ text, rule = .including text) : grammar.IsFlat := by
  -- Inside a rule that only includes there is nothing, so no steps lead further than one.
  have hincluding (steps : List Step) (rule : Rule) (hrule : grammar.ruleAt? steps = some rule) :
      ∃ text, rule = .including text := by
    induction steps generalizing rule with
    | nil => cases hrule
    | cons step before ih =>
      cases before with
      | nil => exact h rule (mem_of_inside? hrule)
      | cons last steps =>
        -- The last step leads inside a rule of the kind, where there is nothing.
        obtain ⟨outer, houter, hinside⟩ := Option.bind_eq_some_iff.1 hrule
        obtain ⟨text, rfl⟩ := ih outer houter
        rw [Rule.inside?_including] at hinside
        cases hinside
  intro steps rule hrule
  obtain ⟨text, rfl⟩ := hincluding steps rule hrule
  rfl

/-! ## Lists of sites -/

namespace Site

/-- A site of a list of patterns is one step away, at the number of its rule. -/
private theorem of_mem_ofPatterns {place : Place} {rules : List Rule} {site : Site}
    (h : site ∈ ofPatterns place rules) :
    ∃ index, site.place = place.step (.pattern index) ∧ rules[index]? = some site.rule := by
  obtain ⟨⟨rule, index⟩, hmem, rfl⟩ := List.mem_map.1 h
  exact ⟨index, rfl, List.mem_zipIdx_iff_getElem?.1 hmem⟩

/-- Every pattern of the list has a site. -/
private theorem exists_mem_ofPatterns {rules : List Rule} {rule : Rule} (place : Place)
    (h : rule ∈ rules) : ∃ site ∈ ofPatterns place rules, site.rule = rule := by
  obtain ⟨index, hindex⟩ := List.mem_iff_getElem?.1 h
  have hmem : (rule, index) ∈ rules.zipIdx := List.mem_zipIdx_iff_getElem?.2 hindex
  exact ⟨_, List.mem_map_of_mem hmem, rfl⟩

/-- A site of a table is one step away, at the number of its entry. -/
theorem of_mem_ofEntries {place : Place} {step : Nat → Step} {entries : Repository}
    {name : String} {site : Site} (h : (name, site) ∈ ofEntries place step entries) :
    ∃ index, site.place = place.step (step index) ∧ entries[index]? = some (name, site.rule) := by
  obtain ⟨⟨⟨key, rule⟩, index⟩, hmem, heq⟩ := List.mem_map.1 h
  cases heq
  exact ⟨index, rfl, List.mem_zipIdx_iff_getElem?.1 hmem⟩

/-- Every rule of the table has a site. -/
private theorem exists_mem_ofEntries {entries : Repository} {rule : Rule} (place : Place)
    (step : Nat → Step) (h : rule ∈ Dict.values entries) :
    ∃ site ∈ (ofEntries place step entries).map (·.2), site.rule = rule := by
  obtain ⟨entry, hentry, rfl⟩ := List.mem_map.1 h
  obtain ⟨index, hindex⟩ := List.mem_iff_getElem?.1 hentry
  have hmem : (entry, index) ∈ entries.zipIdx := List.mem_zipIdx_iff_getElem?.2 hindex
  exact ⟨_, List.mem_map_of_mem (List.mem_map_of_mem hmem), rfl⟩

/-- The site of a name has the rule of the name. -/
theorem find?_ofEntries (place : Place) (step : Nat → Step) (entries : Repository)
    (name : String) :
    (Dict.find? name (ofEntries place step entries)).map (·.rule) = Dict.find? name entries := by
  -- The sites are numbered from zero; the induction needs any first number.
  have hall (first : Nat) : (Dict.find? name ((entries.zipIdx first).map fun entry =>
      (entry.1.1, (⟨place.step (step entry.2), entry.1.2⟩ : Site)))).map (·.rule) =
        Dict.find? name entries := by
    induction entries generalizing first with
    | nil => rfl
    | cons entry entries ih =>
      obtain ⟨key, rule⟩ := entry
      by_cases hkey : key = name
      · simp [Dict.find?, hkey]
      · simp only [List.zipIdx_cons, List.map_cons, Dict.find?, if_neg hkey]
        exact ih (first + 1)
  exact hall 0

end Site

/-! ## Sites of a definition -/

namespace Definition

/-- The site is one of the definition: its steps lead to its rule. -/
structure Owns (definition : Definition) (site : Site) : Prop where
  scope_eq : site.place.scope = definition.grammar.scope
  serial_eq : site.place.serial = definition.serial
  /-- The steps lead to the rule. -/
  ruleAt?_eq : definition.grammar.ruleAt? site.place.steps = some site.rule

/-- The rules one step inside the grammar belong to the definition. -/
private theorem owns_of_inside? {definition : Definition} {site : Site} {step : Step}
    (hplace : site.place = definition.origin.step step)
    (h : definition.grammar.inside? step = some site.rule) : definition.Owns site := by
  refine ⟨?_, ?_, ?_⟩
  · rw [hplace]
    rfl
  · rw [hplace]
    rfl
  · rw [hplace]
    exact h

/-- The rules at the top level belong to the definition. -/
theorem owns_of_mem_top {definition : Definition} {site : Site} (h : site ∈ definition.top) :
    definition.Owns site := by
  -- At the top level are the patterns and behind them the injections.
  rcases List.mem_append.1 h with hpattern | hinjection
  · obtain ⟨index, hplace, hrule⟩ := Site.of_mem_ofPatterns hpattern
    exact owns_of_inside? hplace hrule
  · obtain ⟨⟨name, found⟩, hmem, rfl⟩ := List.mem_map.1 hinjection
    obtain ⟨index, hplace, hrule⟩ := Site.of_mem_ofEntries hmem
    refine owns_of_inside? hplace ?_
    rw [Grammar.inside?, hrule, Option.map_some]

/-- The rules of the repository belong to the definition. -/
theorem owns_of_mem_repository {definition : Definition} {name : String} {site : Site}
    (h : (name, site) ∈ definition.repository) : definition.Owns site := by
  obtain ⟨index, hplace, hrule⟩ := Site.of_mem_ofEntries h
  refine owns_of_inside? hplace ?_
  rw [Grammar.inside?, hrule, Option.map_some]

/-- A place has one rule. -/
theorem Owns.eq {definition : Definition} {first second : Site} (hfirst : definition.Owns first)
    (hsecond : definition.Owns second) (hplace : first.place = second.place) : first = second := by
  -- The steps of the common place lead to both rules.
  have hrule := hfirst.ruleAt?_eq
  rw [hplace, hsecond.ruleAt?_eq] at hrule
  cases first
  cases second
  cases hplace
  cases hrule
  rfl

/-- A rule one step inside a rule of the definition belongs to it as well. -/
theorem Owns.of_inside? {definition : Definition} {site inner : Site} {step : Step}
    (h : definition.Owns site) (hplace : inner.place = site.place.step step)
    (hrule : site.rule.inside? step = some inner.rule) : definition.Owns inner := by
  -- A step further inside changes neither the scope nor the number of the place.
  refine ⟨?_, ?_, ?_⟩
  · rw [hplace]
    exact h.scope_eq
  · rw [hplace]
    exact h.serial_eq
  · rw [hplace, ← hrule]
    exact Grammar.ruleAt?_cons h.ruleAt?_eq step

end Definition

namespace Site

/-- What is inside a site is one step further. -/
private theorem inside_of_mem {site inner : Site} (h : inner ∈ site.patterns ++ site.captures) :
    ∃ step, inner.place = site.place.step step ∧ site.rule.inside? step = some inner.rule := by
  -- The site is in one of the five lists of the rule, and the list decides the step.
  have htable (table : Fin 4) (entries : Option Repository)
      (hentries : site.rule.captureTable? table = entries)
      (h : inner ∈ site.captureTable table entries) :
      ∃ step, inner.place = site.place.step step ∧ site.rule.inside? step = some inner.rule := by
    obtain ⟨⟨name, found⟩, hmem, rfl⟩ := List.mem_map.1 h
    obtain ⟨index, hplace, hrule⟩ := of_mem_ofEntries hmem
    refine ⟨.capture table index, hplace, ?_⟩
    rw [Rule.inside?, hentries, hrule, Option.map_some]
  simp only [captures, List.mem_append] at h
  rcases h with hpattern | ((h0 | h1) | h2) | h3
  · obtain ⟨index, hplace, hrule⟩ := of_mem_ofPatterns hpattern
    exact ⟨.pattern index, hplace, hrule⟩
  · exact htable 0 _ rfl h0
  · exact htable 1 _ rfl h1
  · exact htable 2 _ rfl h2
  · exact htable 3 _ rfl h3

/-- Every rule inside has a site. -/
theorem exists_mem_of_inner {site : Site} {inner : Rule} (h : inner ∈ site.rule.inner) :
    ∃ found ∈ site.patterns ++ site.captures, found.rule = inner := by
  have htable (table : Fin 4) {entries : Option Repository}
      (hentries : site.captureTable table entries ⊆ site.captures) {found : Repository}
      (hfound : entries = some found) (h : inner ∈ Dict.values found) :
      ∃ found ∈ site.captures, found.rule = inner := by
    subst hfound
    obtain ⟨found, hmem, hrule⟩ := exists_mem_ofEntries site.place (.capture table) h
    exact ⟨found, hentries hmem, hrule⟩
  -- A rule inside is one of the patterns or stands in one of the four capture tables.
  rcases List.mem_append.1 h with hpattern | hcapture
  · obtain ⟨found, hmem, hrule⟩ := exists_mem_ofPatterns site.place hpattern
    exact ⟨found, List.mem_append_left _ hmem, hrule⟩
  · obtain ⟨entries, hentries, hinner⟩ := List.mem_flatMap.1 hcapture
    have hfound : ∃ found ∈ site.captures, found.rule = inner := by
      simp only [Rule.captureTables, List.mem_filterMap, id_eq, List.mem_cons, List.not_mem_nil,
        or_false] at hentries
      obtain ⟨_, rfl | rfl | rfl | rfl, hsome⟩ := hentries
      · exact htable 0 (fun _ h => by simp [captures, h]) hsome hinner
      · exact htable 1 (fun _ h => by simp [captures, h]) hsome hinner
      · exact htable 2 (fun _ h => by simp [captures, h]) hsome hinner
      · exact htable 3 (fun _ h => by simp [captures, h]) hsome hinner
    obtain ⟨found, hmem, hrule⟩ := hfound
    exact ⟨found, List.mem_append_right _ hmem, hrule⟩

end Site

namespace Definition

/-- Every rule at the top level has a site. -/
theorem exists_mem_top {definition : Definition} {rule : Rule}
    (h : rule ∈ definition.grammar.topRules) : ∃ site ∈ definition.top, site.rule = rule := by
  rcases List.mem_append.1 h with hpattern | hinjection
  · obtain ⟨site, hmem, hrule⟩ := Site.exists_mem_ofPatterns definition.origin hpattern
    exact ⟨site, List.mem_append_left _ hmem, hrule⟩
  · obtain ⟨site, hmem, hrule⟩ := Site.exists_mem_ofEntries definition.origin .injection hinjection
    exact ⟨site, List.mem_append_right _ hmem, hrule⟩

/-- The named rule has a site. -/
theorem exists_find?_repository {definition : Definition} {name : String} {rule : Rule}
    (h : definition.grammar.rule? name = some rule) :
    ∃ site, Dict.find? name definition.repository = some site ∧ site.rule = rule := by
  rw [Grammar.rule?, ← Site.find?_ofEntries definition.origin .named] at h
  exact Option.map_eq_some_iff.1 h

/-- What is inside a rule of a definition belongs to the definition. -/
theorem Owns.inner {definition : Definition} {site inner : Site} (h : definition.Owns site)
    (hinner : inner ∈ site.patterns ++ site.captures) : definition.Owns inner := by
  obtain ⟨step, hplace, hrule⟩ := Site.inside_of_mem hinner
  exact h.of_inside? hplace hrule

/-- In a flat grammar no site has a repository of its own. -/
theorem Owns.repository?_eq_none {definition : Definition} {site : Site}
    (h : definition.Owns site) (hflat : definition.grammar.IsFlat) : site.repository? = none := by
  rw [Site.repository?, hflat _ _ h.ruleAt?_eq, Option.map_none]

end Definition

/-! ## The places that a definition lists -/

namespace Rule

/-- The places of a rule start with its own. -/
theorem mem_places (rule : Rule) (place : Place) : place ∈ rule.places place := by
  cases rule
  simp only [places]
  exact List.mem_cons_self

/-- The places of one pattern are among those of the list. -/
private theorem places_subset_patternPlaces {rules : List Rule} {rule : Rule} {index : Nat}
    (place : Place) (first : Nat) (h : rules[index]? = some rule) :
    rule.places (place.step (.pattern (first + index))) ⊆ patternPlaces place first rules := by
  -- The number of the first rule grows as the list is walked.
  induction rules generalizing first index with
  | nil => cases h
  | cons head rest ih =>
    rw [patternPlaces]
    cases index with
    | zero =>
      cases h
      exact List.subset_append_left _ _
    | succ index =>
      have hrest := ih (first + 1) (by simpa using h)
      rw [show first + 1 + index = first + (index + 1) by omega] at hrest
      exact List.subset_append_of_subset_right _ hrest

/-- The places of one entry are among those of the table. -/
private theorem places_subset_entryPlaces {entries : Repository} {rule : Rule} {index : Nat}
    (place : Place) (step : Nat → Step) (first : Nat)
    (h : entries[index]?.map (·.2) = some rule) :
    rule.places (place.step (step (first + index))) ⊆ entryPlaces place step first entries := by
  induction entries generalizing first index with
  | nil => cases h
  | cons head rest ih =>
    obtain ⟨name, inner⟩ := head
    rw [entryPlaces]
    cases index with
    | zero =>
      cases h
      exact List.subset_append_left _ _
    | succ index =>
      -- The entries behind the first one are counted from the next number on.
      have hrest := ih (first + 1) (by simpa using h)
      rw [show first + 1 + index = first + (index + 1) by omega] at hrest
      exact List.subset_append_of_subset_right _ hrest

/-- The same holds of a table that may be missing. -/
private theorem places_subset_optionalEntryPlaces {entries : Option Repository} {rule : Rule}
    {index : Nat} (place : Place) (step : Nat → Step)
    (h : (entries.getD [])[index]?.map (·.2) = some rule) :
    rule.places (place.step (step index)) ⊆ optionalEntryPlaces place step entries := by
  cases entries with
  | none => cases h
  | some entries =>
    have hsubset := places_subset_entryPlaces place step 0 h
    rwa [Nat.zero_add] at hsubset

/-- The same holds of a list of patterns that may be missing. -/
private theorem places_subset_optionalPatternPlaces {rules : Option (List Rule)} {rule : Rule}
    {index : Nat} (place : Place) (h : (rules.getD [])[index]? = some rule) :
    rule.places (place.step (.pattern index)) ⊆ optionalPatternPlaces place rules := by
  cases rules with
  | none => cases h
  | some rules =>
    have hsubset := places_subset_patternPlaces place 0 h
    rwa [Nat.zero_add] at hsubset

/-- The places in each of the four capture tables are among those of the rule. -/
private theorem capturePlaces_subset (rule : Rule) (place : Place) (table : Fin 4) :
    optionalEntryPlaces place (.capture table) (rule.captureTable? table) ⊆ rule.places place := by
  intro other h
  cases rule
  simp only [places, List.mem_cons, List.mem_append]
  -- The member is the same in all four cases, but each has a number of its own.
  match table, h with
  | 0, h =>
    simp only [captureTable?] at h
    simp [h]
  | 1, h =>
    simp only [captureTable?] at h
    simp [h]
  | 2, h =>
    simp only [captureTable?] at h
    simp [h]
  | 3, h =>
    simp only [captureTable?] at h
    simp [h]

/-- The places inside a rule include those inside the rules one step further. -/
private theorem places_subset_of_inside? {rule inner : Rule} {step : Step} (place : Place)
    (h : rule.inside? step = some inner) :
    inner.places (place.step step) ⊆ rule.places place := by
  -- The places of a rule are listed by its members, one part of the list for each kind of step.
  cases step with
  | pattern index =>
    intro other hother
    have hpattern := places_subset_optionalPatternPlaces place h hother
    cases rule
    simp only [places, List.mem_cons, List.mem_append]
    simp [hpattern]
  | injection index => cases h
  | named index =>
    intro other hother
    have hnamed := places_subset_optionalEntryPlaces place .named h hother
    cases rule
    simp only [places, List.mem_cons, List.mem_append]
    simp [hnamed]
  | capture table index =>
    intro other hother
    have hcapture := places_subset_optionalEntryPlaces place (.capture table) h hother
    exact rule.capturePlaces_subset place table hcapture

end Rule

namespace Definition

/-- The places of a rule one step inside the grammar are among those of the definition. -/
private theorem places_subset_of_inside?_grammar {definition : Definition} {rule : Rule}
    {step : Step} (h : definition.grammar.inside? step = some rule) :
    rule.places (definition.origin.step step) ⊆ definition.places := by
  intro other hother
  -- The list has three parts: patterns, injections and the repository.
  simp only [places, List.mem_append]
  cases step with
  | pattern index =>
    have := Rule.places_subset_patternPlaces definition.origin 0 h
    rw [Nat.zero_add] at this
    exact Or.inl (Or.inl (this hother))
  | injection index =>
    have := Rule.places_subset_entryPlaces definition.origin .injection 0 h
    rw [Nat.zero_add] at this
    exact Or.inl (Or.inr (this hother))
  | named index =>
    have := Rule.places_subset_entryPlaces definition.origin .named 0 h
    rw [Nat.zero_add] at this
    exact Or.inr (this hother)
  | capture table index => cases h

/-- The places of every rule that steps lead to are among those of the definition. -/
private theorem places_subset_of_ruleAt? {definition : Definition} {steps : List Step} {rule : Rule}
    (h : definition.grammar.ruleAt? steps = some rule) :
    rule.places ⟨definition.grammar.scope, definition.serial, steps⟩ ⊆ definition.places := by
  induction steps generalizing rule with
  | nil => cases h
  | cons step before ih =>
    cases before with
    | nil => exact places_subset_of_inside?_grammar h
    | cons last steps =>
      -- The last step leads inside a rule whose places are in the list.
      obtain ⟨outer, houter, hinside⟩ := Option.bind_eq_some_iff.1 h
      intro other hother
      exact ih houter (Rule.places_subset_of_inside? _ hinside hother)

/-- The places of a definition are those of its rules. -/
theorem Owns.mem_places {definition : Definition} {site : Site} (h : definition.Owns site) :
    site.place ∈ definition.places := by
  have hsubset := places_subset_of_ruleAt? h.ruleAt?_eq
  rw [← h.scope_eq, ← h.serial_eq] at hsubset
  exact hsubset (site.rule.mem_places site.place)

end Definition

end Textmate
