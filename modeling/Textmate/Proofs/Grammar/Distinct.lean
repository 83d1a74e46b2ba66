import Mathlib.Data.List.Nodup
import Textmate.Proofs.Grammar.Places

/-!
# Places are distinct

A rule and the rules inside it lie at different places, since each step from a place leads to a
branch of its own. So a definition lists each of its places once, and two definitions that were
registered apart have no place in common.

## Key results

- `Definition.places_nodup`: a definition lists each of its places once
- `Definition.disjoint_places`: definitions that were registered apart have no common place
-/

namespace Textmate

namespace Place

/-- The steps to the outer place lead on to the place. -/
structure Within (place outer : Place) : Prop where
  scope_eq : place.scope = outer.scope
  serial_eq : place.serial = outer.serial
  steps_suffix : outer.steps <:+ place.steps

/-- A place lies within itself. -/
private theorem Within.refl (place : Place) : place.Within place :=
  ⟨rfl, rfl, List.suffix_rfl⟩

/-- What lies in a branch lies within the place at which the branch begins. -/
private theorem Within.of_step {place outer : Place} {step : Step}
    (h : place.Within (outer.step step)) :
    place.Within outer :=
  ⟨h.scope_eq, h.serial_eq, (List.suffix_cons step outer.steps).trans h.steps_suffix⟩

/-- A place lies in one branch only. -/
private theorem Within.step_eq {place outer : Place} {first second : Step}
    (hfirst : place.Within (outer.step first)) (hsecond : place.Within (outer.step second)) :
    first = second := by
  -- Both branches are as many steps long, so one being the end of the other they are the same.
  have hsuffix : first :: outer.steps <:+ second :: outer.steps :=
    List.suffix_of_suffix_length_le hfirst.steps_suffix hsecond.steps_suffix (Nat.le_refl _)
  have heq := hsuffix.eq_of_length rfl
  exact (List.cons.inj heq).1

/-- A place does not lie in a branch that begins at it. -/
private theorem not_within_step (place : Place) (step : Step) :
    ¬ place.Within (place.step step) := by
  intro h
  have hlength : place.steps.length + 1 ≤ place.steps.length := h.steps_suffix.length_le
  omega

/-- The places are different from each other, and each lies in the branch of one of the steps. -/
structure Spread (outer : Place) (steps : Step → Prop) (places : List Place) : Prop where
  nodup : places.Nodup
  /-- Each place lies in a branch. -/
  exists_within : ∀ place ∈ places, ∃ step, steps step ∧ place.Within (outer.step step)

namespace Spread

variable {outer : Place} {steps more : Step → Prop} {places others : List Place}

/-- No places are spread over any branches. -/
private theorem nil : outer.Spread steps [] :=
  ⟨List.nodup_nil, fun _ h => nomatch h⟩

/-- Places that lie in some branches lie in more branches too. -/
private theorem mono (h : outer.Spread steps places) (hsteps : ∀ step, steps step → more step) :
    outer.Spread more places := by
  refine ⟨h.nodup, fun place hplace => ?_⟩
  obtain ⟨step, hstep, hwithin⟩ := h.exists_within place hplace
  exact ⟨step, hsteps step hstep, hwithin⟩

/-- Places in different branches are different. -/
private theorem append (h : outer.Spread steps places) (h' : outer.Spread more others)
    (hapart : ∀ step, steps step → ¬ more step) :
    outer.Spread (fun step => steps step ∨ more step) (places ++ others) := by
  refine ⟨List.Nodup.append h.nodup h'.nodup ?_, fun place hplace => ?_⟩
  · intro place hfirst hsecond
    obtain ⟨step, hstep, hwithin⟩ := h.exists_within place hfirst
    obtain ⟨other, hother, hwithin'⟩ := h'.exists_within place hsecond
    -- A place in two branches would have the same step in both.
    obtain rfl := hwithin.step_eq hwithin'
    exact hapart step hstep hother
  · rcases List.mem_append.1 hplace with hfirst | hsecond
    · obtain ⟨step, hstep, hwithin⟩ := h.exists_within place hfirst
      exact ⟨step, Or.inl hstep, hwithin⟩
    · obtain ⟨step, hstep, hwithin⟩ := h'.exists_within place hsecond
      exact ⟨step, Or.inr hstep, hwithin⟩

/-- The places of one branch and those of branches of later steps. -/
private theorem append_branch {step : Step} {branch : List Place}
    (hbranch : branch.Nodup ∧ ∀ place ∈ branch, place.Within (outer.step step))
    (h : outer.Spread steps places) (hstep : ¬ steps step) :
    outer.Spread (fun other => other = step ∨ steps other) (branch ++ places) := by
  have hone : outer.Spread (fun other => other = step) branch :=
    ⟨hbranch.1, fun place hplace => ⟨step, rfl, hbranch.2 place hplace⟩⟩
  exact hone.append h fun other heq => heq ▸ hstep

/-- The outer place and the places of its branches. -/
private theorem cons (h : outer.Spread steps places) :
    (outer :: places).Nodup ∧ ∀ place ∈ outer :: places, place.Within outer := by
  -- A place is not within one of its own branches.
  refine ⟨List.nodup_cons.2 ⟨fun houter => ?_, h.nodup⟩, fun place hplace => ?_⟩
  · obtain ⟨step, -, hwithin⟩ := h.exists_within outer houter
    exact outer.not_within_step step hwithin
  · rcases List.mem_cons.1 hplace with rfl | hinner
    · exact .refl place
    · obtain ⟨step, -, hwithin⟩ := h.exists_within place hinner
      exact hwithin.of_step

end Spread

end Place

namespace Rule

/-! The lemmas follow the functions that list the places, from a rule to the rules inside it. -/

mutual

/-- A rule and the rules inside it are at different places. -/
private theorem places_nodup_within (place : Place) :
    (rule : Rule) → (rule.places place).Nodup ∧ ∀ other ∈ rule.places place, other.Within place
  | ⟨_, _, _, _, _, _, _, captures, beginCaptures, endCaptures, whileCaptures, patterns,
      repository, _⟩ => by
    have hpatterns := optionalPatternPlaces_spread place patterns
    have h0 := optionalEntryPlaces_spread place (.capture 0) (fun _ _ h => by cases h; rfl) captures
    have h1 :=
      optionalEntryPlaces_spread place (.capture 1) (fun _ _ h => by cases h; rfl) beginCaptures
    have h2 :=
      optionalEntryPlaces_spread place (.capture 2) (fun _ _ h => by cases h; rfl) endCaptures
    have h3 :=
      optionalEntryPlaces_spread place (.capture 3) (fun _ _ h => by cases h; rfl) whileCaptures
    have hnamed :=
      optionalEntryPlaces_spread place .named (fun _ _ h => by cases h; rfl) repository
    -- The six lists take different kinds of steps.
    have hall := ((((hpatterns.append h0 (by grind)).append h1 (by grind)).append h2
      (by grind)).append h3 (by grind)).append hnamed (by grind)
    rw [places]
    exact hall.cons

/-- Patterns that may be missing lie in the branches of their indices. -/
private theorem optionalPatternPlaces_spread (place : Place) : (rules : Option (List Rule)) →
    place.Spread (fun step => ∃ index, step = .pattern index) (optionalPatternPlaces place rules)
  | none => .nil
  | some rules =>
    (patternPlaces_spread place 0 rules).mono fun _ ⟨index, _, heq⟩ => ⟨index, heq⟩

/-- So do the rules of a table that may be missing. -/
private theorem optionalEntryPlaces_spread (place : Place) (step : Nat → Step)
    (hstep : step.Injective) :
    (entries : Option (List (String × Rule))) →
      place.Spread (fun other => ∃ index, other = step index)
        (optionalEntryPlaces place step entries)
  | none => .nil
  | some entries =>
    (entryPlaces_spread place step hstep 0 entries).mono fun _ ⟨index, _, heq⟩ => ⟨index, heq⟩

/-- Patterns lie in the branches of their indices. -/
private theorem patternPlaces_spread (place : Place) (first : Nat) : (rules : List Rule) →
    place.Spread (fun step => ∃ index, first ≤ index ∧ step = .pattern index)
      (patternPlaces place first rules)
  | [] => .nil
  | rule :: rules => by
    have hrule := places_nodup_within (place.step (.pattern first)) rule
    have hrest := patternPlaces_spread place (first + 1) rules
    -- The branches of the rest come later, so the first one is not among them.
    refine (hrest.append_branch hrule ?_).mono ?_
    · rintro ⟨index, hle, heq⟩
      cases heq
      omega
    · rintro other (rfl | ⟨index, hle, rfl⟩)
      · exact ⟨first, Nat.le_refl _, rfl⟩
      · exact ⟨index, by omega, rfl⟩

/-- The rules of a table lie in the branches of their indices. -/
private theorem entryPlaces_spread (place : Place) (step : Nat → Step) (hstep : step.Injective)
    (first : Nat) : (entries : List (String × Rule)) →
      place.Spread (fun other => ∃ index, first ≤ index ∧ other = step index)
        (entryPlaces place step first entries)
  | [] => .nil
  | (_, rule) :: entries => by
    have hrule := places_nodup_within (place.step (step first)) rule
    have hrest := entryPlaces_spread place step hstep (first + 1) entries
    -- The branch of the first entry comes before those of the other ones.
    refine (hrest.append_branch hrule ?_).mono ?_
    · rintro ⟨index, hle, heq⟩
      have := hstep heq
      omega
    · rintro other (rfl | ⟨index, hle, rfl⟩)
      · exact ⟨first, Nat.le_refl _, rfl⟩
      · exact ⟨index, by omega, rfl⟩

end

end Rule

namespace Definition

/-- The patterns, the injections and the repository take different kinds of steps. -/
private theorem places_spread (definition : Definition) :
    definition.origin.Spread (fun _ => True) definition.places := by
  have hpatterns := Rule.patternPlaces_spread definition.origin 0 definition.grammar.patterns
  have hinjections := Rule.entryPlaces_spread definition.origin .injection
    (fun _ _ h => by cases h; rfl) 0 definition.grammar.injections
  have hnamed := Rule.entryPlaces_spread definition.origin .named
    (fun _ _ h => by cases h; rfl) 0 definition.grammar.repository
  exact ((hpatterns.append hinjections (by grind)).append hnamed (by grind)).mono fun _ _ => trivial

/-- A definition lists each of its places once. -/
theorem places_nodup (definition : Definition) : definition.places.Nodup :=
  definition.places_spread.nodup

/-- Definitions that were registered apart have no common place. -/
theorem disjoint_places {first second : Definition} (h : first.origin ≠ second.origin) :
    first.places.Disjoint second.places := by
  intro place hfirst hsecond
  -- The place tells the scope and the number of the definition that it belongs to.
  obtain ⟨step, -, hwithin⟩ := first.places_spread.exists_within place hfirst
  obtain ⟨other, -, hwithin'⟩ := second.places_spread.exists_within place hsecond
  have hscope := hwithin.scope_eq.symm.trans hwithin'.scope_eq
  have hserial := hwithin.serial_eq.symm.trans hwithin'.serial_eq
  exact h (congrArg₂ (Place.mk · · []) hscope hserial)

end Definition

end Textmate
