import Mathlib.Data.List.Induction
import Textmate.Proofs.Resolution.Accounts

/-!
# Rules and their whole grammars in one layer

What a layer has found is gone through in the order in which it was found, and what is requested on
the way counts for what comes behind it. So a rule is left out when its whole grammar was requested
before the layer or was found before the rule. A rule that was found before its whole grammar is
requested, and the whole grammar is requested beside it in the same layer.

## Key results

- `Requested.mem_select_iff`: what is selected is what the part of the list before it does not cover
- `Requested.part_mem_select_iff`: which rules are selected
- `Requested.supersedes_iff`: when no rule is requested beside its whole grammar
-/

namespace Textmate

namespace Requested

variable {requested : Requested} {found : List Dependency}

/-- The second part of a list is selected from behind what the first part requests. -/
private theorem select_append (requested : Requested) (before after : List Dependency) :
    requested.select (before ++ after) =
      ((requested.select before).1 ++ ((requested.select before).2.select after).1,
        ((requested.select before).2.select after).2) := by
  induction before generalizing requested with
  | nil => rfl
  | cons first rest ih =>
    -- The first dependency is requested or passed over, whatever comes behind it.
    rw [List.cons_append, select, select]
    split
    · rw [ih]
      rfl
    · exact ih requested

/-- What is selected is what the part of the list before it does not cover. -/
theorem mem_select_iff {dependency : Dependency} :
    dependency ∈ (requested.select found).1 ↔
      ∃ before after, found = before ++ dependency :: after ∧
        ¬ (requested.select before).2.Covers dependency := by
  constructor
  · -- The induction takes the list apart at its end, as the condition is on what stands before.
    induction found using List.reverseRecOn with
    | nil => exact fun h => nomatch h
    | append_singleton init last ih =>
      intro h
      rw [select_append] at h
      rcases List.mem_append.1 h with hinit | hlast
      · obtain ⟨before, after, rfl, hcovers⟩ := ih hinit
        exact ⟨before, after ++ [last], by simp, hcovers⟩
      · have hselection := (requested.select init).2.selection_select [last]
        obtain rfl := List.mem_singleton.1 (hselection.subset hlast)
        exact ⟨init, [], rfl, hselection.fresh _ hlast⟩
  · rintro ⟨before, after, rfl, hcovers⟩
    have hadmits : (requested.select before).2.admits dependency = true := by
      rwa [← Bool.not_eq_false, ← covers_iff]
    rw [select_append, select, if_pos hadmits]
    exact List.mem_append_right _ List.mem_cons_self

/-- The whole grammars that are requested behind a list were requested before or are in it. -/
private theorem mem_whole_select_iff {scope : ScopeName} :
    scope ∈ (requested.select found).2.whole ↔
      scope ∈ requested.whole ∨ .whole scope ∈ found := by
  obtain ⟨hextends, hcovers, hwhole, -⟩ := requested.select_spec found
  constructor
  · intro h
    exact (hwhole scope h).imp_right fun hmem => (requested.selection_select found).subset hmem
  · rintro (hbefore | hfound)
    · exact hextends.whole_subset hbefore
    · exact hcovers _ hfound

/-- A rule is selected when it was not requested before, and its whole grammar neither was requested
before nor stands before the rule in the list. -/
theorem part_mem_select_iff {scope : ScopeName} {name : String} :
    .part scope name ∈ (requested.select found).1 ↔
      scope ∉ requested.whole ∧ (Dependency.part scope name).key ∉ requested.parts ∧
        ∃ before after, found = before ++ .part scope name :: after ∧
          .whole scope ∉ before := by
  constructor
  · intro h
    obtain ⟨before, after, rfl, hcovers⟩ := mem_select_iff.1 h
    obtain ⟨hextends, -⟩ := requested.select_spec before
    refine ⟨fun hwhole => ?_, fun hpart => ?_, before, after, rfl, fun hwhole => ?_⟩
    · exact hcovers (Or.inl (hextends.whole_subset hwhole))
    · exact hcovers (Or.inr (hextends.parts_subset hpart))
    · exact hcovers (Or.inl (mem_whole_select_iff.2 (Or.inr hwhole)))
  · rintro ⟨hwhole, hpart, before, after, rfl, hbefore⟩
    by_cases hselected : .part scope name ∈ (requested.select before).1
    · -- The rule stands twice in the list and is selected for the first time.
      rw [select_append]
      exact List.mem_append_left _ hselected
    · refine mem_select_iff.2 ⟨before, after, rfl, ?_⟩
      rintro (hcovered | hcovered)
      · exact (mem_whole_select_iff.1 hcovered).elim hwhole hbefore
      · obtain ⟨-, -, -, hparts⟩ := requested.select_spec before
        exact (hparts scope name hcovered).elim hpart hselected

/-! ## Whole grammars before their rules -/

/-- No rule is selected whose whole grammar is requested, before or in the same selection. -/
def Supersedes (requested : Requested) (found : List Dependency) : Prop :=
  ∀ scope name, .part scope name ∈ (requested.select found).1 →
    scope ∉ requested.whole ∧ .whole scope ∉ (requested.select found).1

/-- No rule is selected beside its whole grammar exactly when, for every rule that stands before its
whole grammar in the list, the rule or the whole grammar was requested before, or the whole grammar
stands before the rule as well. -/
theorem supersedes_iff (requested : Requested) (found : List Dependency) :
    requested.Supersedes found ↔
      ∀ before scope name after, found = before ++ .part scope name :: after →
        .whole scope ∈ after →
        scope ∈ requested.whole ∨ (Dependency.part scope name).key ∈ requested.parts ∨
          .whole scope ∈ before := by
  constructor
  · rintro h before scope name after rfl hafter
    by_contra hnot
    obtain ⟨hwhole, hpart, hbefore⟩ : scope ∉ requested.whole ∧
        (Dependency.part scope name).key ∉ requested.parts ∧ .whole scope ∉ before :=
      ⟨fun hw => hnot (Or.inl hw), fun hp => hnot (Or.inr (Or.inl hp)),
        fun hb => hnot (Or.inr (Or.inr hb))⟩
    -- The rule is selected, and so is its whole grammar behind it.
    have hselected := part_mem_select_iff.2 ⟨hwhole, hpart, before, after, rfl, hbefore⟩
    obtain ⟨-, -, hall, -⟩ :=
      requested.select_spec (before ++ .part scope name :: after)
    have hlater : scope ∈ (requested.select (before ++ .part scope name :: after)).2.whole :=
      mem_whole_select_iff.2 (Or.inr (List.mem_append_right _ (List.mem_cons_of_mem _ hafter)))
    exact (h scope name hselected).2 ((hall scope hlater).resolve_left hwhole)
  · intro h scope name hselected
    obtain ⟨hwhole, hpart, before, after, rfl, hbefore⟩ := part_mem_select_iff.1 hselected
    refine ⟨hwhole, fun hmem => ?_⟩
    -- The whole grammar is neither before the rule nor the rule itself, so it is behind it.
    have hfound := (requested.selection_select _).subset hmem
    rcases List.mem_append.1 hfound with hearly | hlate
    · exact hbefore hearly
    · have hafter : .whole scope ∈ after := (List.mem_cons.1 hlate).resolve_left (by simp)
      rcases h before scope name after rfl hafter with hold | hold | hold
      · exact hwhole hold
      · exact hpart hold
      · exact hbefore hold

/-- A resolution that has requested only its initial scope requests a rule of another grammar and
the whole grammar in one layer, when the rule was found first. -/
theorem requests_rule_beside_whole_grammar :
    let a : ScopeName := ⟨"source.a", by decide, by simp, by simp; decide⟩
    let b : ScopeName := ⟨"source.b", by decide, by simp, by simp; decide⟩
    ((Run.start a).requested.select [.part b "rule", .whole b]).1 = [.part b "rule", .whole b] ∧
      ¬ (Run.start a).requested.Supersedes [.part b "rule", .whole b] := by
  intro a b
  -- When the rule is looked at, its whole grammar has not been requested.
  have hselected : ((Run.start a).requested.select [.part b "rule", .whole b]).1 =
      [.part b "rule", .whole b] := by decide
  refine ⟨hselected, fun h => ?_⟩
  unfold Supersedes at h
  rw [hselected] at h
  exact (h b "rule" (by simp)).2 (by simp)

end Requested

end Textmate
