import Textmate.Proofs.Cache.Loads
import Textmate.Proofs.List

/-!
# How long loads take

A load that was requested comes one turn closer to its end with every turn of the cache, and a
loader without delay still needs one turn. So how many turns remain of a load is a number that a
turn lowers by one, and that is bounded by what the loader says about the scope.

## Key results

- `remaining_turn`: with every turn of the cache one turn less remains of a load
- `Timely.remaining_le`: what remains of a load is at most the delay of its scope and one turn
-/

namespace Textmate

namespace Library

/-- How many turns remain until the load of a scope has ended, counted from its request. -/
def remaining (loader : Loader) (library : Library) (scope : ScopeName) : Nat :=
  match library.cache.phase? scope with
  | none => loader.delay scope + 1
  | some .queued => loader.delay scope + 1
  | some (.running turns) => max turns 1
  | some (.finished _) => 0
  | some (.settled _) => 0

/-- No load takes longer than the loader says. -/
def Timely (library : Library) (loader : Loader) : Prop :=
  ∀ scope turns, library.cache.phase? scope = some (.running turns) → turns ≤ loader.delay scope

/-! ## A load without remaining turns -/

/-- No turn remains exactly when the load has an outcome. -/
private theorem remaining_eq_zero_iff (loader : Loader) (library : Library) (scope : ScopeName) :
    remaining loader library scope = 0 ↔ ∃ outcome, library.outcome? scope = some outcome := by
  unfold remaining outcome?
  cases library.cache.phase? scope with
  | none => simp
  | some phase => cases phase <;> simp [Phase.outcome?]

/-- Loads without remaining turns have their outcomes. -/
theorem outcomes?_of_remaining {loader : Loader} {library : Library} {scopes : List ScopeName}
    (h : ∀ scope ∈ scopes, remaining loader library scope = 0) :
    ∃ outcomes, library.outcomes? scopes = some outcomes :=
  List.exists_mapM_eq_some fun scope hscope =>
    (remaining_eq_zero_iff loader library scope).1 (h scope hscope)

/-! ## What waiting for a load changes -/

/-- A request leaves the turns that remain as they were, as they were counted from it. -/
private theorem remaining_request (loader : Loader) (library : Library) (scope other : ScopeName) :
    remaining loader (library.request scope) other = remaining loader library other := by
  unfold request
  split
  · -- A load that was requested before stays where it is.
    rfl
  · rename_i hnone
    have hfind : (⟨library.cache.loads ++ [(scope, Phase.queued)], library.cache.fetched⟩ :
        Cache).phase? other =
          (library.cache.phase? other).or (if scope = other then some .queued else none) :=
      Dict.find?_append_singleton scope other _ _
    simp only [remaining, hfind]
    cases hother : library.cache.phase? other with
    | some phase => rfl
    | none => split <;> simp_all

/-- Nor does a look at a load take a turn. -/
private theorem remaining_observe (loader : Loader) (library : Library) (scope other : ScopeName) :
    remaining loader (library.observe scope) other = remaining loader library other := by
  unfold observe
  split
  · rename_i outcome h
    simp only [remaining, Cache.find?_setPhase]
    by_cases hs : other = scope
    · -- A finished load is settled by the look, and no turn remains before or after.
      rw [if_pos hs, hs, h]
      rfl
    · rw [if_neg hs]
  · rfl

/-- So waiting for loads takes no turn. -/
theorem remaining_awaitAll (loader : Loader) (library : Library) (scopes : List ScopeName)
    (other : ScopeName) :
    remaining loader (scopes.foldl await library) other = remaining loader library other := by
  induction scopes generalizing library with
  | nil => rfl
  | cons scope scopes ih =>
    rw [List.foldl_cons, ih, await, remaining_observe, remaining_request]

/-- Waiting for scopes requests them. -/
theorem mem_keys_awaitAll_iff {library : Library} {scopes : List ScopeName} {scope : ScopeName} :
    scope ∈ Dict.keys (scopes.foldl await library).cache.loads ↔
      scope ∈ scopes ∨ scope ∈ Dict.keys library.cache.loads := by
  induction scopes generalizing library with
  | nil => simp
  | cons first rest ih =>
    rw [List.foldl_cons, ih, mem_keys_await_iff, List.mem_cons, or_comm (b := scope = first),
      ← or_assoc, or_comm (a := scope ∈ rest)]

/-! ## What a turn changes -/

/-- A load that advances is not a new one. -/
@[simp] theorem keys_advance (library : Library) (loader : Loader) (scope : ScopeName) :
    Dict.keys (advance loader library scope).cache.loads = Dict.keys library.cache.loads := by
  -- Whatever a load does in a turn, its entry stays.
  unfold advance
  split
  · dsimp only
    split
    · rw [keys_finish, keys_start]
    · exact keys_start library loader scope
  · split
    · exact keys_finish library loader scope
    · exact keys_wait library scope
  · rfl

/-- A load that advances comes one turn closer to its end. -/
private theorem remaining_advance {loader : Loader} {library : Library} {scope : ScopeName}
    (h : scope ∈ Dict.keys library.cache.loads) (other : ScopeName) :
    remaining loader (advance loader library scope) other =
      if other = scope then remaining loader library other - 1
      else remaining loader library other := by
  obtain ⟨phase, hphase⟩ := (Dict.mem_keys_iff_find? _ _).1 h
  have hfind : library.cache.phase? scope = some phase := hphase
  cases phase with
  | queued =>
    -- A load without delay starts and finishes within the same turn.
    have hstart := phase?_start loader hfind
    simp only [advance, hfind]
    split
    · rename_i hdelay
      have hrunning := (hstart scope).trans (if_pos rfl)
      simp only [remaining, phase?_finish loader hrunning, hstart]
      by_cases hs : other = scope
      · simp [hs, hfind, hdelay]
      · simp [hs]
    · rename_i hdelay
      simp only [remaining, hstart]
      by_cases hs : other = scope
      · simp only [hs, hfind, if_true]
        omega
      · simp [hs]
  | running turns =>
    simp only [advance, hfind]
    split
    · rename_i hturns
      simp only [remaining, phase?_finish loader hfind]
      by_cases hs : other = scope
      · simp only [hs, hfind, if_true]
        omega
      · simp [hs]
    · rename_i hturns
      -- A load before its last turn waits for one turn.
      obtain ⟨before, rfl⟩ : ∃ before, turns = before + 1 := ⟨turns - 1, by omega⟩
      simp only [remaining, phase?_wait hfind]
      by_cases hs : other = scope
      · simp only [hs, hfind, if_true]
        omega
      · simp [hs]
  | finished outcome =>
    -- A load that has ended has no turns left.
    simp only [advance, hfind]
    by_cases hs : other = scope
    · simp [hs, remaining, hfind]
    · simp [hs]
  | settled outcome =>
    simp only [advance, hfind]
    by_cases hs : other = scope
    · simp [hs, remaining, hfind]
    · simp [hs]

/-- A turn begins no new load. -/
theorem keys_turn (library : Library) (loader : Loader) :
    Dict.keys (library.turn loader).cache.loads = Dict.keys library.cache.loads := by
  -- A turn advances one load after another.
  have hall (scopes : List ScopeName) (library : Library) :
      Dict.keys (scopes.foldl (advance loader) library).cache.loads =
        Dict.keys library.cache.loads := by
    induction scopes generalizing library with
    | nil => rfl
    | cons scope scopes ih => rw [List.foldl_cons, ih, keys_advance]
  exact hall _ library

/-- With every turn of the cache one turn less remains of a load. -/
theorem remaining_turn {loader : Loader} {library : Library} (hc : library.Coherent)
    {scope : ScopeName} (h : scope ∈ Dict.keys library.cache.loads) :
    remaining loader (library.turn loader) scope = remaining loader library scope - 1 := by
  -- A turn advances every load once, so the induction is over scopes without repetition.
  have hall (scopes : List ScopeName) (library : Library) (hnodup : scopes.Nodup)
      (hkeys : ∀ other ∈ scopes, other ∈ Dict.keys library.cache.loads) :
      remaining loader (scopes.foldl (advance loader) library) scope =
        if scope ∈ scopes then remaining loader library scope - 1
        else remaining loader library scope := by
    induction scopes generalizing library with
    | nil => rfl
    | cons first rest ih =>
      have hnew : first ∉ rest := (List.nodup_cons.1 hnodup).1
      have hkeys' : ∀ other ∈ rest,
          other ∈ Dict.keys (advance loader library first).cache.loads := by
        intro other hother
        rw [keys_advance]
        exact hkeys other (List.mem_cons_of_mem _ hother)
      rw [List.foldl_cons, ih _ (List.nodup_cons.1 hnodup).2 hkeys',
        remaining_advance (hkeys first List.mem_cons_self)]
      by_cases hs : scope = first
      · simp [hs, hnew]
      · simp [hs]
  rw [turn, hall _ library hc.keys_nodup fun _ h => h, if_pos h]

/-- No turn of the cache delays a load. -/
theorem remaining_turn_le {loader : Loader} {library : Library} (hc : library.Coherent)
    (scope : ScopeName) :
    remaining loader (library.turn loader) scope ≤ remaining loader library scope := by
  by_cases h : scope ∈ Dict.keys library.cache.loads
  · rw [remaining_turn hc h]
    exact Nat.sub_le _ _
  · -- A load that was not requested does not come closer to its end.
    have hbefore : library.cache.phase? scope = none := (Dict.find?_eq_none_iff _ _).2 h
    have hafter : (library.turn loader).cache.phase? scope = none :=
      (Dict.find?_eq_none_iff _ _).2 (by rwa [keys_turn])
    refine Nat.le_of_eq ?_
    rw [remaining, remaining, hbefore, hafter]

/-! ## What remains at most -/

/-- Without loads none takes too long. -/
theorem timely_empty (engine : Engine) (loader : Loader) : (empty engine).Timely loader :=
  fun _ _ h => nomatch h

/-- A load may go to any phase that does not take longer than the loader says. -/
private theorem Timely.setPhase {library next : Library} {loader : Loader}
    (ht : library.Timely loader) {scope : ScopeName} {old new : Phase}
    (h : library.cache.phase? scope = some old)
    (hnext : ∀ other, next.cache.phase? other = (library.cache.setPhase scope new).phase? other)
    (hnew : ∀ turns, new = .running turns → turns ≤ loader.delay scope) :
    next.Timely loader := by
  intro other turns hrunning
  rw [phase?_setPhase h hnext] at hrunning
  split at hrunning
  · -- The load itself is in the new phase, and all others stay.
    rename_i hs
    rw [hs]
    exact hnew turns (Option.some.inj hrunning)
  · exact ht other turns hrunning

/-- A step of a load keeps to what the loader says. -/
private theorem Step.timely {loader : Loader} {library next : Library} (ht : library.Timely loader)
    (h : Step loader library next) : next.Timely loader := by
  cases h with
  | request scope h =>
    -- The new load is queued, so a running one was there before.
    intro other turns hrunning
    have hfind : Dict.find? other (library.cache.loads ++ [(scope, Phase.queued)]) =
        some (.running turns) := hrunning
    rw [Dict.find?_append_singleton] at hfind
    refine ht other turns ?_
    cases hphase : Dict.find? other library.cache.loads with
    | some phase =>
      rw [hphase] at hfind
      rw [Cache.phase?, hphase]
      exact hfind
    | none =>
      rw [hphase, Option.none_or] at hfind
      split at hfind <;> cases hfind
  | start scope h =>
    refine ht.setPhase h (fun _ => rfl) fun turns hturns => ?_
    cases hturns
    exact Nat.le_refl _
  | wait scope before h =>
    refine ht.setPhase h (fun _ => rfl) fun turns hturns => ?_
    cases hturns
    -- A turn less is within the delay as well.
    exact Nat.le_of_succ_le (ht scope _ h)
  | finish scope before h =>
    refine ht.setPhase h (fun _ => rfl) fun turns hturns => ?_
    cases hturns
  | observe scope outcome h =>
    refine ht.setPhase h (fun _ => rfl) fun turns hturns => ?_
    cases hturns

/-- So do any number of steps. -/
theorem Steps.timely {loader : Loader} {library next : Library} (ht : library.Timely loader)
    (h : Steps loader library next) : next.Timely loader :=
  h.keep (·.Timely loader) ht fun _ _ hstep ht => hstep.timely ht

/-- What remains of a load is at most the delay of its scope and one turn. -/
theorem Timely.remaining_le {library : Library} {loader : Loader} (ht : library.Timely loader)
    (scope : ScopeName) : remaining loader library scope ≤ loader.delay scope + 1 := by
  unfold remaining
  split
  · exact Nat.le_refl _
  · exact Nat.le_refl _
  · -- A running load has at most the turns that the loader takes.
    rename_i turns h
    have := ht scope turns h
    omega
  · exact Nat.zero_le _
  · exact Nat.zero_le _

end Library

end Textmate
