import Textmate.Dependency.Collector
import Textmate.Proofs.Grammar.Places

/-!
# What a walk reaches

A walk visits every rule to which its tasks lead, directly or through other rules, unless the place
of the rule was no longer fresh, and notes every other scope that these rules include.

## Key results

- `covered_walk`: a walk does its tasks
- `exists_of_mem_visited`: it does the tasks of every rule that it visits, too
-/

namespace Textmate

namespace WalkTask

/-- Where the task leads was seen or noted. -/
def Covered (seen : Place → Prop) (dependencies : List Dependency) : WalkTask → Prop
  | visit site _ => seen site.place
  | follow target context =>
    match context.follow target with
    | .rules sites _ => ∀ site ∈ sites, seen site.place
    | .scope dependency => dependency ∈ dependencies

/-- A task that leads to something seen does so later too. -/
theorem Covered.mono {seen later : Place → Prop} {before after : List Dependency} {task : WalkTask}
    (h : task.Covered seen before) (hseen : ∀ place, seen place → later place)
    (hnoted : before ⊆ after) : task.Covered later after := by
  cases task with
  | visit site context => exact hseen _ h
  | follow target context =>
    -- An include leads to rules, which have to be seen, or to what has to be noted.
    simp only [Covered] at h ⊢
    split
    · rename_i sites _ hfollow
      rw [hfollow] at h
      exact fun site hsite => hseen _ (h site hsite)
    · rename_i dependency hfollow
      rw [hfollow] at h
      exact hnoted h

end WalkTask

/-- The place was visited in a walk, or was not fresh before. -/
def Findings.Seen (findings : Findings) (fresh : List Place) (place : Place) : Prop :=
  place ∈ findings.visited ∨ place ∉ fresh

/-- What was seen without a place was seen with the place visited. -/
private theorem seen_of_erase {findings : Findings} {fresh : List Place} {place other : Place}
    (h : findings.Seen (fresh.erase place) other) : (findings.visit place).Seen fresh other := by
  by_cases hplace : other = place
  · subst hplace
    exact Or.inl List.mem_cons_self
  · rcases h with hvisited | hfresh
    · exact Or.inl (List.mem_cons_of_mem _ hvisited)
    · exact Or.inr fun hother => hfresh ((List.mem_erase_of_ne hplace).2 hother)

/-- A walk does its tasks. -/
theorem covered_walk (fresh : List Place) (tasks : List WalkTask) :
    ∀ task ∈ tasks,
      task.Covered ((walk fresh tasks).Seen fresh) (walk fresh tasks).dependencies := by
  induction fresh, tasks using walk.induct with
  | case1 fresh => exact fun _ h => nomatch h
  | case2 fresh site context tasks hfresh _ ih =>
    -- The rest of the walk runs without the place, which is visited now.
    intro task htask
    rw [walk, dif_pos hfresh]
    rcases List.mem_cons.1 htask with rfl | hrest
    · exact Or.inl List.mem_cons_self
    · exact (ih task (List.mem_append_right _ hrest)).mono (fun _ => seen_of_erase) fun _ h => h
  | case3 fresh site context tasks hfresh ih =>
    intro task htask
    rw [walk, dif_neg hfresh]
    rcases List.mem_cons.1 htask with rfl | hrest
    · -- A rule that is not fresh was seen before the walk.
      exact Or.inr hfresh
    · exact ih task hrest
  | case4 fresh target context tasks sites inner hfollow ih =>
    intro task htask
    rw [walk, hfollow]
    rcases List.mem_cons.1 htask with rfl | hrest
    · -- The rules of the include come first in the rest of the walk.
      simp only [WalkTask.Covered, hfollow]
      intro site hsite
      exact ih (.visit site inner) (List.mem_append_left _ (List.mem_map_of_mem hsite))
    · exact ih task (List.mem_append_right _ hrest)
  | case5 fresh target context tasks dependency hfollow ih =>
    intro task htask
    rw [walk, hfollow]
    rcases List.mem_cons.1 htask with rfl | hrest
    · simp only [WalkTask.Covered, hfollow]
      exact List.mem_cons_self
    · exact (ih task hrest).mono (fun _ h => h) (List.subset_cons_self _ _)

/-- A property of tasks that goes over from a task to those to which it leads. -/
structure WalkTask.Inherited (Fits : WalkTask → Prop) : Prop where
  /-- From a rule to what is inside and to what it includes. -/
  ofVisit : ∀ site context, Fits (.visit site context) → ∀ task ∈ ofVisit site context, Fits task
  /-- From an include to the rules to which it leads. -/
  visits : ∀ target context sites inner, Fits (.follow target context) →
    context.follow target = .rules sites inner → ∀ task ∈ visits sites inner, Fits task

/-- A walk does the tasks of every rule that it visits, too. -/
theorem exists_of_mem_visited {Fits : WalkTask → Prop} (hinherited : WalkTask.Inherited Fits)
    (fresh : List Place) (tasks : List WalkTask) (hfits : ∀ task ∈ tasks, Fits task) :
    ∀ place ∈ (walk fresh tasks).visited, ∃ site context, site.place = place ∧
      Fits (.visit site context) ∧ ∀ task ∈ WalkTask.ofVisit site context,
        task.Covered ((walk fresh tasks).Seen fresh) (walk fresh tasks).dependencies := by
  induction fresh, tasks using walk.induct with
  | case1 fresh =>
    intro place hplace
    rw [walk] at hplace
    cases hplace
  | case2 fresh site context tasks hfresh _ ih =>
    -- The tasks of the rule come first in the rest of the walk, so the rest does them.
    have hsite := hfits _ List.mem_cons_self
    have hrest : ∀ task ∈ WalkTask.ofVisit site context ++ tasks, Fits task := by
      intro task htask
      rcases List.mem_append.1 htask with hinner | houter
      · exact hinherited.ofVisit site context hsite task hinner
      · exact hfits task (List.mem_cons_of_mem _ houter)
    have hcovered :=
      covered_walk (fresh.erase site.place) (WalkTask.ofVisit site context ++ tasks)
    intro place hplace
    rw [walk, dif_pos hfresh] at hplace ⊢
    rcases List.mem_cons.1 hplace with rfl | hlater
    · refine ⟨site, context, rfl, hsite, fun task htask => ?_⟩
      have hdone := hcovered task (List.mem_append_left _ htask)
      exact hdone.mono (fun _ => seen_of_erase) fun _ h => h
    · obtain ⟨found, around, hfound, hfit, htasks⟩ := ih hrest place hlater
      refine ⟨found, around, hfound, hfit, fun task htask => ?_⟩
      exact (htasks task htask).mono (fun _ => seen_of_erase) fun _ h => h
  | case3 fresh site context tasks hfresh ih =>
    rw [walk, dif_neg hfresh]
    exact ih fun task htask => hfits task (List.mem_cons_of_mem _ htask)
  | case4 fresh target context tasks sites inner hfollow ih =>
    rw [walk, hfollow]
    -- Following an include visits no rule by itself.
    refine ih fun task htask => ?_
    rcases List.mem_append.1 htask with hvisits | hrest
    · exact hinherited.visits target context sites inner (hfits _ List.mem_cons_self) hfollow task
        hvisits
    · exact hfits task (List.mem_cons_of_mem _ hrest)
  | case5 fresh target context tasks dependency hfollow ih =>
    intro place hplace
    rw [walk, hfollow] at hplace ⊢
    obtain ⟨found, around, hfound, hfit, htasks⟩ :=
      ih (fun task htask => hfits task (List.mem_cons_of_mem _ htask)) place hplace
    refine ⟨found, around, hfound, hfit, fun task htask => ?_⟩
    exact (htasks task htask).mono (fun _ h => h) (List.subset_cons_self _ _)

end Textmate
