import Mathlib.Data.List.Forall2
import Textmate.Proofs.List
import Textmate.Scope.Selector

/-!
# Where a selector matches a path

A selector matches a path when its segments start scopes of the path one behind the other, the last
one the innermost scope. Other scopes may stand between them, so there can be many ways to place the
segments. Each segment takes the first scope that it starts, and this loses nothing: what another
placement finds behind a later scope stands behind the first one as well.

## Key results

- `ScopeName.startsWith_iff_beginsWith`: when a scope starts with a segment
- `Selector.findsAll_iff_exists_foundAt`: taking first scopes finds a placement if there is one
- `Selector.selects_iff_exists_positions`: a selector matches when some placement ends at the
  innermost scope
-/

namespace Textmate

/-- The scope is the segment, or goes on with a dot behind it. -/
def ScopeName.BeginsWith (scope : ScopeName) (segment : String) : Prop :=
  scope.text = segment ∨ ∃ rest, scope.text = segment ++ "." ++ rest

/-- Comparing characters finds the scopes that are the segment or go on with a dot. -/
theorem ScopeName.startsWith_iff_beginsWith {scope : ScopeName} {segment : String} :
    scope.startsWith segment = true ↔ scope.BeginsWith segment := by
  have hdot (rest : String) : scope.text = segment ++ "." ++ rest ↔
      scope.text.toList = segment.toList ++ '.' :: rest.toList := by
    rw [← String.toList_inj]
    simp
  -- Both sides are about the characters of the scope from here on.
  rw [startsWith_iff_toList, BeginsWith, String.toList_inj]
  simp only [hdot]
  constructor
  · rintro (hequal | ⟨rest, hrest⟩)
    · exact .inl hequal
    · exact .inr ⟨String.ofList rest, by simpa using hrest⟩
  · rintro (hequal | ⟨rest, hrest⟩)
    · exact .inl hequal
    · exact .inr ⟨rest.toList, hrest⟩

namespace Selector

/-! ## Placing segments -/

/-- The segments start the scopes of a path at the positions, which count from the outermost scope
and go up. -/
structure FoundAt (segments : List String) (path : List ScopeName) (positions : List Nat) :
    Prop where
  increasing : positions.Pairwise (· < ·)
  begins : List.Forall₂ (fun segment i => ∃ scope, path[i]? = some scope ∧ scope.BeginsWith segment)
    segments positions

namespace FoundAt

variable {segment : String} {segments : List String} {scope : ScopeName} {path : List ScopeName}
variable {i : Nat} {positions : List Nat}

/-- One more scope outside moves all positions. -/
private theorem outside_iff :
    FoundAt segments (scope :: path) (positions.map (· + 1)) ↔ FoundAt segments path positions := by
  constructor
  · intro h
    have hincreasing := h.increasing
    have hbegins := h.begins
    rw [List.pairwise_map] at hincreasing
    rw [List.forall₂_map_right_iff] at hbegins
    exact ⟨by simpa using hincreasing, by simpa using hbegins⟩
  · intro h
    constructor
    · simpa [List.pairwise_map] using h.increasing
    · simpa [List.forall₂_map_right_iff] using h.begins

/-- A segment that the outermost scope begins with may be found there, in front of the others. -/
private theorem cons (h : FoundAt segments path positions) (hbegins : scope.BeginsWith segment) :
    FoundAt (segment :: segments) (scope :: path) (0 :: positions.map (· + 1)) := by
  have houtside : FoundAt segments (scope :: path) (positions.map (· + 1)) := outside_iff.2 h
  constructor
  · simp [houtside.increasing]
  · exact .cons ⟨scope, rfl, hbegins⟩ houtside.begins

/-- Segments that are not found at the outermost scope are found further inside. -/
private theorem inside (h : FoundAt segments (scope :: path) positions)
    (hpos : ∀ i ∈ positions, 0 < i) :
    ∃ further, FoundAt segments path further := by
  -- No position is that of the outermost scope, so each of them can be one less.
  have hmoved : positions = (positions.map (· - 1)).map (· + 1) := by
    rw [List.map_map]
    conv_lhs => rw [← List.map_id positions]
    refine List.map_congr_left fun i hi => ?_
    have := hpos i hi
    show i = i - 1 + 1
    omega
  rw [hmoved] at h
  exact ⟨_, outside_iff.1 h⟩

/-- All positions behind the first one have scopes in front of them. -/
private theorem tail (h : FoundAt (segment :: segments) path (i :: positions)) :
    FoundAt segments path positions ∧ ∀ later ∈ positions, i < later := by
  obtain ⟨hlt, hincreasing⟩ := List.pairwise_cons.1 h.increasing
  exact ⟨⟨hincreasing, (List.forall₂_cons.1 h.begins).2⟩, hlt⟩

/-- Positions are those of scopes in the path. -/
private theorem lt_length (h : FoundAt segments path positions) (hi : i ∈ positions) :
    i < path.length := by
  obtain ⟨segment, _, scope, hscope, _⟩ := h.begins.flip.exists_of_mem hi
  exact (List.getElem?_eq_some_iff.1 hscope).1

/-- One more segment may be found at one more scope inside. -/
private theorem concat {target : String} {innermost : ScopeName}
    (h : FoundAt segments path positions) (hbegins : innermost.BeginsWith target) :
    FoundAt (segments ++ [target]) (path ++ [innermost]) (positions ++ [path.length]) := by
  constructor
  · have hlt : ∀ i ∈ positions, i < path.length := fun i hi => h.lt_length hi
    simpa [List.pairwise_append, h.increasing] using hlt
  · refine List.rel_append (h.begins.imp ?_) (.cons ⟨innermost, by simp, hbegins⟩ .nil)
    -- The positions in the old path are the same in the longer one.
    intro segment i ⟨scope, hscope, hsegment⟩
    have hi := (List.getElem?_eq_some_iff.1 hscope).1
    exact ⟨scope, by rw [List.getElem?_append_left hi, hscope], hsegment⟩

/-- What was found at the innermost scope was the last segment. -/
private theorem of_concat {target : String} {innermost : ScopeName}
    (h : FoundAt (segments ++ [target]) (path ++ [innermost]) (positions ++ [path.length])) :
    FoundAt segments path positions ∧ innermost.BeginsWith target := by
  obtain ⟨hincreasing, _, hlt⟩ := List.pairwise_append.1 h.increasing
  have hreversed := List.forall₂_reverse_iff.2 h.begins
  simp only [List.reverse_append, List.reverse_singleton, List.singleton_append,
    List.forall₂_cons, List.forall₂_reverse_iff] at hreversed
  obtain ⟨⟨scope, hscope, hbegins⟩, houter⟩ := hreversed
  have hinnermost : innermost = scope := by simpa using hscope
  subst hinnermost
  refine ⟨⟨hincreasing, ?_⟩, hbegins⟩
  -- The other positions are smaller than the last one, so they point into the path without it.
  have hinside (i : Nat) (hi : i ∈ positions) : (path ++ [innermost])[i]? = path[i]? :=
    List.getElem?_append_left (hlt i hi path.length (by simp))
  rw [List.forall₂_iff_zip] at houter ⊢
  refine ⟨houter.1, fun hpair => ?_⟩
  obtain ⟨scope, hscope, hsegment⟩ := houter.2 hpair
  rw [hinside _ (List.of_mem_zip hpair).2] at hscope
  exact ⟨scope, hscope, hsegment⟩

end FoundAt

/-- Taking the first scope for each segment finds all segments if they can be found at all. -/
theorem findsAll_iff_exists_foundAt (segments : List String) (path : List ScopeName) :
    findsAll segments path = true ↔ ∃ positions, FoundAt segments path positions := by
  fun_induction findsAll segments path with
  | case1 path => exact iff_of_true rfl ⟨[], .nil, .nil⟩
  | case2 segment segments =>
    -- Without a scope there is no position for the segment.
    refine iff_of_false Bool.false_ne_true fun ⟨positions, h⟩ => ?_
    obtain ⟨i, _, ⟨scope, hscope, _⟩, _, rfl⟩ := List.forall₂_cons_left_iff.1 h.begins
    simp at hscope
  | case3 segment segments scope path hstarts ih =>
    have hbegins := ScopeName.startsWith_iff_beginsWith.1 hstarts
    rw [ih]
    constructor
    · intro ⟨positions, h⟩
      exact ⟨_, h.cons hbegins⟩
    · -- The segment may stand further inside, but the others stand behind the outermost scope.
      intro ⟨positions, h⟩
      obtain ⟨i, others, _, _, rfl⟩ := List.forall₂_cons_left_iff.1 h.begins
      obtain ⟨hothers, hlt⟩ := h.tail
      have hpos : ∀ later ∈ others, 0 < later := by
        intro later hlater
        have := hlt later hlater
        omega
      exact hothers.inside hpos
  | case4 segment segments scope path hstarts ih =>
    rw [ih]
    constructor
    · intro ⟨positions, h⟩
      exact ⟨_, FoundAt.outside_iff.2 h⟩
    · -- The outermost scope is not the one for the first segment, and the others stand behind it.
      intro ⟨positions, h⟩
      obtain ⟨i, others, ⟨found, hfound, hbegins⟩, _, rfl⟩ := List.forall₂_cons_left_iff.1 h.begins
      have hi : 0 < i := by
        cases i with
        | succ i => omega
        | zero =>
          have hscope : scope = found := by simpa using hfound
          subst hscope
          exact absurd (ScopeName.startsWith_iff_beginsWith.2 hbegins) hstarts
      have hpos : ∀ later ∈ i :: others, 0 < later := by
        intro later hlater
        cases List.mem_cons.1 hlater with
        | inl heq => omega
        | inr hmem =>
          have := h.tail.2 later hmem
          omega
      exact h.inside hpos

/-! ## Selectors -/

/-- The segments of a selector start scopes of a path at the positions, the last one the innermost
scope. -/
structure MatchesAt (selector : Selector) (path : List ScopeName) (positions : List Nat) : Prop
    extends FoundAt selector.segments path positions where
  innermost : ∃ last, positions.getLast? = some last ∧ last + 1 = path.length

/-- A selector matches a path exactly when its segments can be placed at scopes of the path, one
behind the other and the last one at the innermost scope. -/
theorem selects_iff_exists_positions (selector : Selector) (path : List ScopeName) :
    selector.selects path = true ↔ ∃ positions, selector.MatchesAt path positions := by
  cases hpath : path.getLast? with
  | none =>
    -- Without scopes there is no innermost one.
    have hempty := List.getLast?_eq_none_iff.1 hpath
    subst hempty
    refine iff_of_false Bool.false_ne_true fun ⟨positions, h⟩ => ?_
    obtain ⟨last, _, hlast⟩ := h.innermost
    simp at hlast
  | some innermost =>
    obtain ⟨outer, rfl⟩ := List.getLast?_eq_some_iff.1 hpath
    simp only [selects, hpath, List.dropLast_concat, Bool.and_eq_true]
    rw [findsAll_iff_exists_foundAt, ScopeName.startsWith_iff_beginsWith]
    constructor
    · intro ⟨hbegins, positions, h⟩
      exact ⟨positions ++ [outer.length], h.concat hbegins, outer.length, by simp, by simp⟩
    · intro ⟨positions, h⟩
      obtain ⟨last, hlast, hlength⟩ := h.innermost
      obtain ⟨front, rfl⟩ := List.getLast?_eq_some_iff.1 hlast
      have hinnermost : last = outer.length := by simpa using hlength
      subst hinnermost
      obtain ⟨hfound, hbegins⟩ := h.toFoundAt.of_concat
      exact ⟨hbegins, front, hfound⟩

end Selector

end Textmate
