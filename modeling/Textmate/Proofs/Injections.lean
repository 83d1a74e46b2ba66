import Mathlib.Data.List.Induction
import Textmate.Injections
import Textmate.Proofs.Dict
import Textmate.Proofs.List

/-!
# Adding injections to a table

Pairs of a target and a scope that is injected into it are added to a table one after another. A
list that the table has stays in front as it is, and behind it come the scopes that the pairs give
for the target, each where it occurs first. The pairs of other targets in between do not matter.

A scope that is listed is not added again, and no later pair takes it from its list. So pairs that
were added may be added again without any effect.

## Key results

- `InjectionTable.injectedInto_merge`: the list of a target after some pairs
- `InjectionTable.kept_add`: what is listed stays listed
- `InjectionTable.merge_extends`: the entries of a table after some pairs, and the same pairs again
-/

namespace Textmate

/-! ## The order of scopes -/

namespace ScopeName

instance : Std.Irrefl fun a b : ScopeName => a < b := ⟨fun a => String.lt_irrefl a.text⟩

instance : Trans (fun a b : ScopeName => a < b) (fun a b : ScopeName => a < b)
    fun a b : ScopeName => a < b :=
  ⟨fun h h' => String.lt_trans h h'⟩

instance : Std.Trichotomous fun a b : ScopeName => a < b :=
  ⟨fun _ _ h h' => ext (String.le_antisymm h' h)⟩

/-- A scope does not stand before itself. -/
theorem ne_of_lt {a b : ScopeName} (h : a < b) : a ≠ b := by
  rintro rfl
  exact String.lt_irrefl a.text h

/-- Different scopes whose texts are in order are in order. -/
theorem lt_of_le_of_ne {a b : ScopeName} (hle : a.text ≤ b.text) (hne : a ≠ b) : a < b :=
  Decidable.byContradiction fun hge => hne (ext (String.le_antisymm hle hge))

end ScopeName

namespace InjectionTable

variable {table : InjectionTable} {target injected : ScopeName}

/-! ## The list of one target -/

/-- The scopes that pairs give for a target, in order. -/
def givenFor (target : ScopeName) (pairs : List (ScopeName × ScopeName)) : List ScopeName :=
  (pairs.filter (·.1 = target)).map (·.2)

/-- A last pair for the target gives its scope at the end. -/
private theorem givenFor_concat_self (target injected : ScopeName)
    (pairs : List (ScopeName × ScopeName)) :
    givenFor target (pairs ++ [(target, injected)]) = givenFor target pairs ++ [injected] := by
  simp [givenFor]

/-- A last pair for another target gives nothing. -/
private theorem givenFor_concat_of_ne {other : ScopeName} (h : other ≠ target)
    (injected : ScopeName) (pairs : List (ScopeName × ScopeName)) :
    givenFor target (pairs ++ [(other, injected)]) = givenFor target pairs := by
  simp [givenFor, h]

/-- The last pair is added to what the others have made of the table. -/
private theorem merge_concat (table : InjectionTable) (pairs : List (ScopeName × ScopeName))
    (pair : ScopeName × ScopeName) :
    table.merge (pairs ++ [pair]) = (table.merge pairs).add pair.1 pair.2 := by
  simp [merge]

/-- The list of a target goes on with the scopes that are given for it, each where it occurs first,
unless it was listed before. -/
theorem injectedInto_merge (table : InjectionTable) (pairs : List (ScopeName × ScopeName))
    (target : ScopeName) :
    (table.merge pairs).injectedInto target = table.injectedInto target ++
      (givenFor target pairs).eraseDups.filter (· ∉ table.injectedInto target) := by
  -- By induction on the pairs from the end: the last one finds the lists as the others left them.
  induction pairs using List.reverseRecOn with
  | nil => simp [merge, givenFor]
  | append_singleton pairs pair ih =>
    obtain ⟨other, injected⟩ := pair
    rw [merge_concat, injectedInto_add]
    by_cases htarget : other = target
    · subst htarget
      rw [if_pos rfl, ih, givenFor_concat_self, List.eraseDups_concat]
      by_cases hgiven : injected ∈ givenFor other pairs
      · -- The scope was given before, so it was listed then or added then.
        have hlisted : injected ∈ table.injectedInto other ++
            (givenFor other pairs).eraseDups.filter (· ∉ table.injectedInto other) := by
          by_cases hold : injected ∈ table.injectedInto other <;> simp [hold, hgiven]
        rw [if_pos hlisted, if_pos hgiven]
      · by_cases hold : injected ∈ table.injectedInto other <;> simp [hold, hgiven]
    · rw [if_neg htarget, ih, givenFor_concat_of_ne htarget]

/-! ## Entries of the table -/

/-- Adding to the list of a target changes its entry and no other. -/
private theorem find?_add (table : InjectionTable) (target injected other : ScopeName) :
    Dict.find? other (table.add target injected) =
      if target = other then some ((table.add target injected).injectedInto target)
      else Dict.find? other table := by
  by_cases h : target = other
  · subst h
    rw [if_pos rfl, injectedInto, add, Dict.find?_insert, if_pos rfl, Option.getD_some]
  · rw [add, Dict.find?_insert, if_neg h, if_neg h]

/-- A target has an entry if it had one or was given a scope. -/
private theorem find?_merge (table : InjectionTable) (pairs : List (ScopeName × ScopeName))
    (target : ScopeName) :
    Dict.find? target (table.merge pairs) =
      if target ∈ pairs.map (·.1) then some ((table.merge pairs).injectedInto target)
      else Dict.find? target table := by
  induction pairs using List.reverseRecOn with
  | nil => rfl
  | append_singleton pairs pair ih =>
    rw [merge_concat, find?_add]
    by_cases htarget : pair.1 = target
    · have hmentioned : target ∈ (pairs ++ [pair]).map (·.1) := by simp [htarget]
      rw [if_pos htarget, if_pos hmentioned, htarget]
    · -- The last pair does not mention the target.
      have hmentioned : target ∈ (pairs ++ [pair]).map (·.1) ↔ target ∈ pairs.map (·.1) := by
        simp [Ne.symm htarget]
      rw [if_neg htarget, ih, injectedInto_add, if_neg htarget]
      simp only [hmentioned]

/-! ## The same pairs again -/

/-- A scope that was added is listed. -/
private theorem mem_injectedInto_add (table : InjectionTable) (target injected : ScopeName) :
    injected ∈ (table.add target injected).injectedInto target := by
  rw [injectedInto_add, if_pos rfl]
  split
  · assumption
  · simp

/-- A scope is not added to the list that was changed last if it stands there. -/
private theorem add_add_of_mem {last : ScopeName}
    (h : injected ∈ (table.add target last).injectedInto target) :
    (table.add target last).add target injected = table.add target last := by
  -- The entry is written again as it is.
  have hlist : (table.add target last).injectedInto target =
      if last ∈ table.injectedInto target then table.injectedInto target
      else table.injectedInto target ++ [last] := by
    rw [injectedInto_add, if_pos rfl]
  rw [add, if_pos h, hlist, add, Dict.insert_insert]

/-- It does not matter in which order scopes are added to different lists. -/
private theorem add_comm {first second : ScopeName} (h : first ≠ second) (table : InjectionTable)
    (injected other : ScopeName) :
    (table.add first injected).add second other = (table.add second other).add first injected := by
  -- Neither list changes when a scope is added to the other one.
  have hsecond : (table.add first injected).injectedInto second = table.injectedInto second := by
    rw [injectedInto_add, if_neg h]
  have hfirst : (table.add second other).injectedInto first = table.injectedInto first := by
    rw [injectedInto_add, if_neg h.symm]
  rw [add, hsecond, add, Dict.insert_comm h.symm, add, hfirst, add]

/-- A scope whose adding changes nothing is not added after another one either. -/
theorem kept_add (h : table.add target injected = table) (other last : ScopeName) :
    (table.add other last).add target injected = table.add other last := by
  by_cases htarget : other = target
  · subst htarget
    -- The scope is listed for its target, and the list only grows.
    apply add_add_of_mem
    have hlisted : injected ∈ table.injectedInto other := by
      have hmem := mem_injectedInto_add table other injected
      rwa [h] at hmem
    rw [injectedInto_add, if_pos rfl]
    split
    · exact hlisted
    · exact List.mem_append_left _ hlisted
  · rw [add_comm htarget, h]

/-- Pairs that were added are not added again. -/
private theorem add_merge_of_mem {pairs : List (ScopeName × ScopeName)}
    {pair : ScopeName × ScopeName}
    (h : pair ∈ pairs) : (table.merge pairs).add pair.1 pair.2 = table.merge pairs := by
  induction pairs using List.reverseRecOn with
  | nil => cases h
  | append_singleton pairs last ih =>
    rw [merge_concat]
    cases List.mem_append.1 h with
    -- The pair was added before the last one, which does not take it away.
    | inl hmem => exact kept_add (ih hmem) last.1 last.2
    | inr hlast =>
      rw [List.mem_singleton.1 hlast]
      exact add_add_of_mem (mem_injectedInto_add _ _ _)

/-- Pairs of which none changes the table do not change it together. -/
private theorem merge_eq_self {pairs : List (ScopeName × ScopeName)}
    (h : ∀ pair ∈ pairs, table.add pair.1 pair.2 = table) : table.merge pairs = table := by
  induction pairs with
  | nil => rfl
  | cons pair pairs ih =>
    -- The first pair leaves the table as it is, and so do the others.
    have hfirst : table.merge (pair :: pairs) = (table.add pair.1 pair.2).merge pairs := rfl
    rw [hfirst, h pair List.mem_cons_self]
    exact ih fun other hother => h other (List.mem_cons_of_mem _ hother)

/-- After adding pairs, a target that they mention has its old list with the scopes that they give
for it behind, each where it occurs first and without those of the old list. Another target has the
entry that it had, or none. Adding the same pairs again changes nothing. -/
theorem merge_extends (table : InjectionTable) (pairs : List (ScopeName × ScopeName)) :
    (∀ target, Dict.find? target (table.merge pairs) =
      if target ∈ pairs.map (·.1) then
        some (table.injectedInto target ++
          (givenFor target pairs).eraseDups.filter (· ∉ table.injectedInto target))
      else Dict.find? target table) ∧
    (table.merge pairs).merge pairs = table.merge pairs := by
  constructor
  · intro target
    rw [find?_merge, injectedInto_merge]
  · exact merge_eq_self fun pair hpair => add_merge_of_mem hpair

end InjectionTable

end Textmate
