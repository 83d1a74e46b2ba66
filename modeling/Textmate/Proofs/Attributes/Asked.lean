import Textmate.Attributes

/-!
# What a classifier remembers

A classifier remembers its answers, and an answer that it remembers is not found out again. As the
name of a scope alone decides what is found out about it, the answers are the same whatever was
asked before.

## Key results

- `Remembers.ask`: one question gets the plain answer, and a classifier goes on remembering such
  answers only
- `Remembers.askAll`: the same for any number of questions
-/

namespace Textmate.Classifier

/-- A classifier with the rules of a plain one, which remembers answers of the plain one only. -/
structure Remembers (plain asked : Classifier) : Prop where
  initial_eq : asked.initial = plain.initial
  embedded_eq : asked.embedded = plain.embedded
  overrides_eq : asked.overrides = plain.overrides
  known : ∀ scope attributes, Dict.find? scope asked.known = some attributes →
    attributes = plain.classify scope

namespace Remembers

variable {plain asked : Classifier}

/-- Overrides do not depend on what was asked. -/
theorem override?_eq (h : Remembers plain asked) (path : List ScopeName) :
    asked.override? path = plain.override? path := by
  rw [override?, override?, h.overrides_eq]

/-- Nor does what is found out about a scope. -/
private theorem classify_eq (h : Remembers plain asked) (scope : ScopeName) :
    asked.classify scope = plain.classify scope := by
  rw [classify, classify, h.embedded_eq]

/-- A question gets the plain answer, whether or not it was asked before. -/
theorem ask (h : Remembers plain asked) (scope : ScopeName) :
    (asked.ask scope).1 = plain.classify scope ∧ Remembers plain (asked.ask scope).2 := by
  unfold Classifier.ask
  cases hfind : Dict.find? scope asked.known with
  | some attributes => exact ⟨h.known scope attributes hfind, h⟩
  | none =>
    have hanswer := h.classify_eq scope
    refine ⟨hanswer, h.initial_eq, h.embedded_eq, h.overrides_eq, ?_⟩
    intro other attributes hother
    rw [Dict.find?_insert] at hother
    split at hother
    · -- The new entry is the answer that was just given.
      rename_i heq
      cases hother
      rw [← heq]
      exact hanswer
    · exact h.known other attributes hother

/-- So the attributes of a scope are the plain ones. -/
theorem attributes_eq (h : Remembers plain asked) (scope : ScopeName) :
    asked.attributes scope = plain.classify scope :=
  (h.ask scope).1

/-- Any number of questions get the plain answers. -/
theorem askAll (h : Remembers plain asked) (scopes : List ScopeName) :
    (asked.askAll scopes).1 = scopes.map plain.classify ∧
      Remembers plain (asked.askAll scopes).2 := by
  induction scopes generalizing asked with
  | nil => exact ⟨rfl, h⟩
  | cons scope scopes ih =>
    obtain ⟨hanswer, hasked⟩ := h.ask scope
    obtain ⟨hanswers, hlast⟩ := ih hasked
    simp only [Classifier.askAll, List.map_cons]
    exact ⟨by rw [hanswer, hanswers], hlast⟩

end Remembers

/-- A new classifier remembers nothing. -/
theorem remembers_ofConfiguration {initial : Nat} {configuration : Configuration}
    {classifier : Classifier} (h : ofConfiguration initial configuration = .ok classifier) :
    Remembers classifier classifier := by
  obtain ⟨-, rfl⟩ := ofConfiguration_eq_ok_iff.1 h
  exact ⟨rfl, rfl, rfl, fun scope attributes hfind => nomatch hfind⟩

end Textmate.Classifier
