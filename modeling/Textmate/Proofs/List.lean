import Mathlib.Data.List.Forall2

/-!
# Results and lists

Generic lemmas about functions that may fail, one after another or on all elements of a list, and
about lists whose elements are related or repeated.
-/

namespace Except

/-- What has succeeded is handed to the next step. -/
theorem ok_bind {ε α β : Type} (a : α) (f : α → Except ε β) : (Except.ok a >>= f) = f a := rfl

/-- Two steps succeed one after another when both of them do. -/
theorem bind_eq_ok_iff {ε α β : Type} {first : Except ε α} {second : α → Except ε β} {b : β} :
    first >>= second = .ok b ↔ ∃ a, first = .ok a ∧ second a = .ok b := by
  cases first with
  | error e => exact ⟨fun h => (nomatch h), fun ⟨_, h, _⟩ => nomatch h⟩
  | ok a => exact ⟨fun h => ⟨a, rfl, h⟩, fun ⟨_, h, h'⟩ => by cases h; exact h'⟩

/-- A result of which something can be computed to be true is a success. -/
theorem exists_ok_of_any {ε α : Type} {result : Except ε α} {p : α → Bool}
    (h : result.toOption.any p = true) : ∃ a, result = .ok a ∧ p a = true := by
  cases result with
  | error e => cases h
  | ok a => exact ⟨a, rfl, h⟩

end Except

namespace List

variable {α β γ : Type}

/-- A function has results for a list when it has one for each element. -/
theorem mapM_eq_some_iff {f : α → Option β} {xs : List α} {ys : List β} :
    xs.mapM f = some ys ↔ Forall₂ (fun x y => f x = some y) xs ys := by
  induction xs generalizing ys with
  | nil =>
    rw [mapM_nil, forall₂_nil_left_iff, Option.pure_def, Option.some.injEq]
    exact eq_comm
  | cons x xs ih =>
    rw [mapM_cons, forall₂_cons_left_iff]
    -- The first result and those of the rest, in the two orders in which both sides name them.
    simp only [Option.bind_eq_bind, Option.bind_eq_some_iff, Option.pure_def, Option.some.injEq]
    constructor
    · rintro ⟨y, hy, rest, hrest, rfl⟩
      exact ⟨y, rest, hy, ih.1 hrest, rfl⟩
    · rintro ⟨y, rest, hy, hrest, rfl⟩
      exact ⟨y, hy, rest, ih.2 hrest, rfl⟩

/-- A function has results for a list when it has some result for each element. -/
theorem exists_mapM_eq_some {f : α → Option β} {xs : List α}
    (h : ∀ x ∈ xs, ∃ y, f x = some y) : ∃ ys, xs.mapM f = some ys := by
  induction xs with
  | nil => exact ⟨[], rfl⟩
  | cons x xs ih =>
    obtain ⟨y, hy⟩ := h x mem_cons_self
    obtain ⟨ys, hys⟩ := ih fun other hother => h other (mem_cons_of_mem _ hother)
    exact ⟨y :: ys, mapM_eq_some_iff.2 (.cons hy (mapM_eq_some_iff.1 hys))⟩

/-- Lists that are related by a function are images of each other. -/
theorem eq_map_of_forall₂ {f : α → β} {xs : List α} {ys : List β}
    (h : Forall₂ (fun x y => y = f x) xs ys) : ys = xs.map f := by
  induction h with
  | nil => rfl
  | cons heq _ ih => rw [map_cons, heq, ih]

/-- When a function has results for all elements, the last result is that of the last element. -/
theorem getLast?_filterMap_of_isSome {f : α → Option β} {xs : List α}
    (h : ∀ x ∈ xs, (f x).isSome) : (xs.filterMap f).getLast? = xs.getLast?.bind f := by
  cases hlast : xs.getLast? with
  | none =>
    rw [getLast?_eq_none_iff.1 hlast]
    rfl
  | some x =>
    -- The last element has a result, which is then the last one.
    obtain ⟨others, rfl⟩ := getLast?_eq_some_iff.1 hlast
    obtain ⟨y, hy⟩ := Option.isSome_iff_exists.1 (h x (mem_append_right _ (mem_singleton_self x)))
    rw [filterMap_append, filterMap_cons_some hy, filterMap_nil, getLast?_concat, Option.bind_some,
      hy]

/-- A relation between lists relates every element of the first one. -/
theorem Forall₂.exists_of_mem {R : α → β → Prop} {xs : List α} {ys : List β}
    (h : Forall₂ R xs ys) {x : α} (hx : x ∈ xs) : ∃ y ∈ ys, R x y := by
  induction h with
  | nil => cases hx
  | cons hR _ ih =>
    rcases mem_cons.1 hx with rfl | hrest
    · exact ⟨_, mem_cons_self, hR⟩
    · obtain ⟨y, hy, hxy⟩ := ih hrest
      exact ⟨y, mem_cons_of_mem _ hy, hxy⟩

/-- Relations between lists compose. -/
theorem Forall₂.comp {R : α → β → Prop} {S : β → γ → Prop} {T : α → γ → Prop}
    (hT : ∀ a b c, R a b → S b c → T a c) {xs : List α} {ys : List β} {zs : List γ}
    (h : Forall₂ R xs ys) (h' : Forall₂ S ys zs) : Forall₂ T xs zs := by
  induction h generalizing zs with
  | nil =>
    cases h'
    exact .nil
  | cons hR _ ih =>
    cases h' with
    | cons hS hrest => exact .cons (hT _ _ _ hR hS) (ih hrest)

/-- One more element at the end of a list is left out if it occurred before. -/
theorem eraseDups_concat [DecidableEq α] (xs : List α) (x : α) :
    (xs ++ [x]).eraseDups = if x ∈ xs then xs.eraseDups else xs.eraseDups ++ [x] := by
  rw [eraseDups_append]
  by_cases h : x ∈ xs <;> simp [removeAll, h, eraseDups_cons]

end List
