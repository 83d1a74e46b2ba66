import Textmate.Attributes
import Textmate.Proofs.Dict
import Textmate.Proofs.Json.Members

/-!
# Selectors that set token types

A configuration sets token types by lists of selectors. Of all selectors that match a path the last
one counts, in the order of the texts of the lists, and inside one list in the order in which it has
them.

## Key results

- `Configuration.sorted_of_ofDocument?`: a configuration that is read has its texts in order
- `Classifier.override?_spec`: the type that is set for a path is that of the last selector for it
-/

namespace Textmate

/-- The texts of a configuration that was read are in order. -/
theorem Configuration.sorted_of_ofDocument? {document : Document} {configuration : Configuration}
    (h : ofDocument? document = some configuration) : Dict.Sorted configuration.tokenTypes := by
  obtain ⟨members, -, h⟩ := Option.bind_eq_some_iff.1 h
  obtain ⟨languages, -, h⟩ := Option.bind_eq_some_iff.1 h
  obtain ⟨named, -, h⟩ := Option.bind_eq_some_iff.1 h
  obtain ⟨types, htypes, h⟩ := Option.bind_eq_some_iff.1 h
  obtain rfl := Option.some.inj h
  rcases Document.Members.withDefault_eq_some_iff.1 htypes with ⟨-, rfl⟩ | ⟨found, -, hread⟩
  · -- Without the member there are no texts.
    exact Dict.sorted_nil
  · -- The entries are sorted when the object is read.
    unfold Document.dict? at hread
    split at hread
    · obtain ⟨entries, -, rfl⟩ := Option.map_eq_some_iff.1 hread
      exact Dict.sorted_ofList entries
    · cases hread

/-- A selector that sets a type, with its place among the selectors of a configuration. -/
structure Override where
  /-- The text of the list of selectors. -/
  text : String
  /-- Where the selector stands in the list. -/
  position : Nat
  selector : Selector
  type : TokenType

namespace Override

/-- The selector is one of a configuration. -/
structure Of (configuration : Configuration) (o : Override) : Prop where
  entry : (o.text, o.type) ∈ configuration.tokenTypes
  selector_eq : (Selector.parseList o.text)[o.position]? = some o.selector

/-- The order of the texts, and inside one text that of the positions. -/
def Before (a b : Override) : Prop :=
  a.text < b.text ∨ (a.text = b.text ∧ a.position < b.position)

/-- The selector is the last one of a configuration that matches a path. -/
structure IsLastFor (configuration : Configuration) (path : List ScopeName) (o : Override) :
    Prop where
  of : o.Of configuration
  selects : o.selector.selects path = true
  last : ∀ other : Override, other.Of configuration → other.selector.selects path = true →
    other = o ∨ other.Before o

/-- The selectors of a configuration, in the order of its entries. -/
private def all (configuration : Configuration) : List Override :=
  configuration.tokenTypes.flatMap fun (text, type) =>
    (Selector.parseList text).zipIdx.map fun (selector, position) =>
      ⟨text, position, selector, type⟩

/-- The list has the selectors of the configuration and no other ones. -/
private theorem mem_all {configuration : Configuration} {o : Override} :
    o ∈ all configuration ↔ o.Of configuration := by
  obtain ⟨text, position, selector, type⟩ := o
  -- An entry of the list is a selector of a text of the table, with its number in the text.
  simp only [all, List.mem_flatMap, List.mem_map, List.mem_zipIdx_iff_getElem?, Prod.exists,
    Override.mk.injEq]
  constructor
  · rintro ⟨_, _, hentry, _, _, hselector, rfl, rfl, rfl, rfl⟩
    exact ⟨hentry, hselector⟩
  · intro h
    exact ⟨text, type, h.entry, selector, position, h.selector_eq, rfl, rfl, rfl, rfl⟩

/-- Where the entries of a configuration are in order, its selectors are. -/
private theorem pairwise_all {configuration : Configuration}
    (hsorted : Dict.Sorted configuration.tokenTypes) : (all configuration).Pairwise Before := by
  refine List.pairwise_flatMap.2 ⟨fun entry _ => ?_, ?_⟩
  · -- Inside one text the positions increase.
    have hpositions : ((Selector.parseList entry.1).zipIdx.map (·.2)).Pairwise (· < ·) := by
      rw [List.zipIdx_map_snd]
      exact List.pairwise_lt_range'
    rw [List.pairwise_map]
    exact (List.pairwise_map.1 hpositions).imp fun hlt => .inr ⟨rfl, hlt⟩
  · have htexts := List.pairwise_map.1 hsorted
    refine htexts.imp fun {first second} hlt a ha b hb => ?_
    obtain ⟨_, -, rfl⟩ := List.mem_map.1 ha
    obtain ⟨_, -, rfl⟩ := List.mem_map.1 hb
    exact .inl hlt

/-- The last of the selectors that match a path is the last one for it. -/
private theorem isLastFor_of_getLast? {configuration : Configuration} {path : List ScopeName}
    {o : Override} (hsorted : Dict.Sorted configuration.tokenTypes)
    (hlast : ((all configuration).filter (·.selector.selects path)).getLast? = some o) :
    o.IsLastFor configuration path := by
  obtain ⟨earlier, hsplit⟩ := List.getLast?_eq_some_iff.1 hlast
  -- The list has the selectors that match, with the last one at its end.
  have hmem (other : Override) : other ∈ earlier ++ [o] ↔
      other.Of configuration ∧ other.selector.selects path = true := by
    rw [← hsplit, List.mem_filter, mem_all]
  have horder : (earlier ++ [o]).Pairwise Before := by
    rw [← hsplit]
    exact (pairwise_all hsorted).filter _
  obtain ⟨hof, hselects⟩ := (hmem o).1 (by simp)
  refine ⟨hof, hselects, fun other hother hmatches => ?_⟩
  rcases List.mem_append.1 ((hmem other).2 ⟨hother, hmatches⟩) with hearlier | heq
  · right
    exact (List.pairwise_append.1 horder).2.2 other hearlier o (by simp)
  · left
    exact List.mem_singleton.1 heq

end Override

namespace Classifier

/-- The type that is set for a path is that of the last selector for it, and none is set if no
selector matches. -/
theorem override?_spec {initial : Nat} {configuration : Configuration} {classifier : Classifier}
    (hmade : ofConfiguration initial configuration = .ok classifier)
    (hsorted : Dict.Sorted configuration.tokenTypes) (path : List ScopeName) :
    (∃ o : Override, o.IsLastFor configuration path ∧ classifier.override? path = some o.type) ∨
    ((∀ o : Override, o.Of configuration → o.selector.selects path = false) ∧
      classifier.override? path = none) := by
  have hoverrides : classifier.overrides =
      (Override.all configuration).map fun o => (o.selector, o.type) := by
    obtain ⟨-, rfl⟩ := ofConfiguration_eq_ok_iff.1 hmade
    rw [Override.all, List.map_flatMap]
    refine congrArg configuration.tokenTypes.flatMap (funext fun entry => ?_)
    -- The types of one text are those of its selectors, whatever their positions.
    have hselectors := List.zipIdx_map_fst 0 (Selector.parseList entry.1)
    dsimp only
    rw [List.map_map, ← hselectors, List.map_map, hselectors]
    rfl
  -- Matching asks for the selectors only, so the last of them that matches gives its type.
  have hfilter : classifier.override? path =
      (((Override.all configuration).filter (·.selector.selects path)).getLast?).map (·.type) := by
    rw [override?, hoverrides, List.filter_map, List.getLast?_map, Option.map_map]
    rfl
  cases hlast : ((Override.all configuration).filter (·.selector.selects path)).getLast? with
  | some o =>
    left
    rw [hlast] at hfilter
    exact ⟨o, Override.isLastFor_of_getLast? hsorted hlast, hfilter⟩
  | none =>
    right
    rw [hlast] at hfilter
    refine ⟨fun o hof => ?_, hfilter⟩
    have hempty := List.getLast?_eq_none_iff.1 hlast
    have hnot := List.filter_eq_nil_iff.1 hempty o (Override.mem_all.2 hof)
    simpa using hnot

end Classifier

end Textmate
