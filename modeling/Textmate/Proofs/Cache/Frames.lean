import Mathlib.Logic.Relation
import Textmate.Proofs.Cache.Observed
import Textmate.Proofs.Cache.Remaining

/-!
# What waiting for a scope leaves alone

While a caller waits for a scope, the load of the scope ends, and other loads that are under way may
end. Each of them registers the grammar that the loader answers with under the scope of that
grammar, be it the scope that was asked for or another one. All other scopes stay as they are.

## Key results

- `Step.keeps`: one event leaves all scopes alone but one that a load registers at its end
- `Steps.keeps`: any number of events leave alone what no load registers that has ended meanwhile
- `ensure_keeps`: what a caller that waits for a scope finds unchanged
- `ensure_replaces_other`: a loader can answer for one scope with a grammar of another one
-/

namespace Textmate

namespace Store.Keeps

/-- A store keeps what it has. -/
private theorem refl (store : Store) (scope : ScopeName) : store.Keeps store scope := ⟨rfl, rfl⟩

/-- What is kept twice in a row is kept. -/
private theorem trans {store middle next : Store} {scope : ScopeName} (h : store.Keeps middle scope)
    (h' : middle.Keeps next scope) : store.Keeps next scope :=
  ⟨h'.lookup_eq.trans h.lookup_eq, h'.injectionsInto_eq.trans h.injectionsInto_eq⟩

end Store.Keeps

namespace Library

/-! ## Events -/

/-- A scope whose load has ended was requested. -/
private theorem mem_keys_of_outcome? {library : Library} {scope : ScopeName} {outcome : Outcome}
    (h : library.outcome? scope = some outcome) : scope ∈ Dict.keys library.cache.loads := by
  obtain ⟨phase, hphase, -⟩ := Option.bind_eq_some_iff.1 h
  exact (Dict.mem_keys_iff_find? _ _).2 ⟨phase, hphase⟩

/-- An event leaves a scope alone, unless with it a load ends that registers the scope. -/
theorem Step.keeps {loader : Loader} {library next : Library} (h : Step loader library next)
    {other : ScopeName}
    (hends : ∀ ended ∈ Dict.keys next.cache.loads, library.outcome? ended = none →
      loader.registers? ended ≠ some other) : library.store.Keeps next.store other := by
  rcases h.effect with ⟨hstore, -⟩ | ⟨ended, hnone, hstore, hend⟩
  · rw [hstore]
    exact .refl library.store other
  · -- The load that ends is one of those after the event.
    have hmem : ended ∈ Dict.keys next.cache.loads :=
      mem_keys_of_outcome? ((hend ended).trans (if_pos rfl))
    rw [hstore]
    exact keeps_accept library.store (hends ended hmem hnone)

/-- Events leave a scope alone, unless a load registers it that had not ended before them. -/
theorem Steps.keeps {loader : Loader} {library next : Library} (h : Steps loader library next)
    {other : ScopeName}
    (hends : ∀ ended ∈ Dict.keys next.cache.loads, library.outcome? ended = none →
      loader.registers? ended ≠ some other) : library.store.Keeps next.store other := by
  induction h with
  | refl => exact .refl library.store other
  | tail hsteps hlast ih =>
    rename_i middle next
    have hearlier := ih fun ended hended => hends ended (hlast.mem_keys hended)
    refine hearlier.trans (hlast.keeps fun ended hended hnone => hends ended hended ?_)
    -- A load without an outcome in the middle had none at the start.
    cases hbefore : library.outcome? ended with
    | none => rfl
    | some outcome =>
      have hkept := Steps.outcome_eq hsteps hbefore
      rw [hnone] at hkept
      cases hkept

/-! ## Waiting -/

/-- What requests and turns keep holds after waiting. -/
private theorem keep_ensure {loader : Loader} {scopes : List ScopeName} (Kept : Library → Prop)
    (hawait : ∀ library, Kept library → Kept (scopes.foldl await library))
    (hturn : ∀ library, Kept library → Kept (library.turn loader)) (limit : Nat)
    {library : Library} (h : Kept library) : Kept (ensure loader scopes limit library).2 := by
  -- A caller requests its scopes, and takes a turn unless all outcomes are there.
  induction limit generalizing library with
  | zero =>
    unfold ensure
    dsimp only
    split
    · exact hawait library h
    · exact hawait library h
    · contradiction
  | succ limit ih =>
    unfold ensure
    dsimp only
    split
    · exact hawait library h
    · contradiction
    · rename_i hlimit
      obtain rfl := Nat.succ.inj hlimit
      exact ih (hturn _ (hawait library h))

/-- While a caller waits, the library changes by loads alone. -/
private theorem steps_ensure (loader : Loader) (scopes : List ScopeName) (limit : Nat)
    (library : Library) : Steps loader library (ensure loader scopes limit library).2 :=
  keep_ensure (Steps loader library) (fun _ h => h.trans (steps_awaitAll loader _ scopes))
    (fun _ h => h.trans (steps_turn loader _)) limit .refl

/-- A caller that waits requests the scopes that it waits for, and no other ones. -/
private theorem mem_keys_ensure {loader : Loader} {scopes : List ScopeName} {limit : Nat}
    {library : Library} {scope : ScopeName}
    (h : scope ∈ Dict.keys (ensure loader scopes limit library).2.cache.loads) :
    scope ∈ scopes ∨ scope ∈ Dict.keys library.cache.loads := by
  refine keep_ensure (fun next => scope ∈ Dict.keys next.cache.loads →
    scope ∈ scopes ∨ scope ∈ Dict.keys library.cache.loads) ?_ ?_ limit .inr h
  · intro next hnext hmem
    rcases mem_keys_awaitAll_iff.1 hmem with hscopes | hbefore
    · exact .inl hscopes
    · exact hnext hbefore
  · -- A turn of the executor makes no new load.
    intro next hnext hmem
    rw [keys_turn] at hmem
    exact hnext hmem

/-- The load may end while a caller waits for a scope: its own one or one that is under way, unless
the caller need not wait. -/
structure MayEnd (library : Library) (awaited ended : ScopeName) : Prop where
  waits : library.outcome? awaited = none
  under_way : library.outcome? ended = none
  requested : ended = awaited ∨ ended ∈ Dict.keys library.cache.loads

/-- A caller does not wait for a scope whose load has ended. -/
private theorem ensure_of_outcome? {loader : Loader} {limit : Nat} {library : Library}
    {scope : ScopeName} {outcome : Outcome} (h : library.outcome? scope = some outcome) :
    ensure loader [scope] limit library = (some [outcome], library.await scope) := by
  -- Asking once more does not change the outcome, so the first look finds it.
  have houtcome := Steps.outcome_eq (steps_await loader library scope) h
  have houtcomes : ([scope].foldl await library).outcomes? [scope] = some [outcome] := by
    simp [outcomes?, houtcome]
  unfold ensure
  dsimp only
  rw [houtcomes]
  rfl

/-- A caller that waits for a scope finds all other scopes unchanged but those that a load registers
which may end meanwhile. With an honest loader these are scopes whose own loads are under way. -/
theorem ensure_keeps (loader : Loader) (limit : Nat) (library : Library) (scope : ScopeName) :
    (∀ other, (∀ ended, library.MayEnd scope ended → loader.registers? ended ≠ some other) →
      library.store.Keeps (ensure loader [scope] limit library).2.store other) ∧
    (loader.Honest → ∀ other, other ≠ scope →
      (other ∈ Dict.keys library.cache.loads → ∃ outcome, library.outcome? other = some outcome) →
      library.store.Keeps (ensure loader [scope] limit library).2.store other) := by
  have hkeeps (other : ScopeName)
      (hother : ∀ ended, library.MayEnd scope ended → loader.registers? ended ≠ some other) :
      library.store.Keeps (ensure loader [scope] limit library).2.store other := by
    -- Without a known outcome loads are awaited, and whatever ends then was under way.
    cases hscope : library.outcome? scope with
    | some outcome =>
      rw [ensure_of_outcome? hscope, store_await]
      exact .refl library.store other
    | none =>
      refine (steps_ensure loader [scope] limit library).keeps fun ended hended hnone => ?_
      have hrequested := mem_keys_ensure hended
      rw [List.mem_singleton] at hrequested
      exact hother ended ⟨hscope, hnone, hrequested⟩
  refine ⟨hkeeps, fun hl other hne hsettled => hkeeps other fun ended hended hregisters => ?_⟩
  -- An honest loader registers the scope itself, so its own load would have to be under way.
  obtain rfl := hl.eq_of_registers? hregisters
  rcases hended.requested with heq | hmem
  · exact hne heq
  · obtain ⟨outcome, houtcome⟩ := hsettled hmem
    have hnone := hended.under_way
    rw [houtcome] at hnone
    cases hnone

/-! ### A loader with a grammar of another scope -/

def asked : ScopeName := ⟨"source.asked", by decide, by simp, by simp; decide⟩

def answered : ScopeName := ⟨"source.answered", by decide, by simp, by simp; decide⟩

/-- A loader that has two grammars of one scope: one for the scope, and another one for all other
scopes. -/
def misleading : Loader :=
  ⟨fun scope => .grammar (if scope = answered then .empty answered
      else (Grammar.empty answered).addPattern (.including "$self")),
    fun scope => [scope], fun _ => 0⟩

/-- The scope with the two grammars was loaded. -/
def loadedOnce : Library :=
  (ensure misleading [answered] 1 (empty .none)).2

/-- An honest loader with a grammar of the same scope. -/
def honest : Loader := .ofGrammars [.empty answered] []

/-- A scope stays as it is that no answer is registered under, and one that was loaded by an honest
loader. -/
theorem ensure_keeps_asked_and_loaded :
    loadedOnce.store.Keeps (ensure misleading [asked] 1 loadedOnce).2.store asked ∧
      honest.Honest ∧
      loadedOnce.store.Keeps (ensure honest [asked] 1 loadedOnce).2.store answered := by
  have hhonest : honest.Honest := Loader.honest_ofGrammars _ _
  refine ⟨(ensure_keeps misleading 1 loadedOnce asked).1 asked fun ended _ hregisters => ?_,
    hhonest, (ensure_keeps honest 1 loadedOnce asked).2 hhonest answered (by decide) fun _ => ?_⟩
  · -- The loader answers every scope with the same grammar.
    have hscope : misleading.registers? ended = some answered := by
      unfold Loader.registers? misleading
      dsimp only
      split_ifs <;> rfl
    rw [hscope] at hregisters
    exact absurd (Option.some.inj hregisters) (by decide)
  · exact ⟨.ok (), by decide +kernel⟩

/-- A caller has requested a scope and does not wait for it. -/
def requestedOnce : Library :=
  (empty .none).request answered

/-- Waiting for one scope replaces the grammar of another one and its list of injected scopes when
the loader answers with a grammar of the other one. With an honest loader it lets a load end that
was under way. -/
theorem ensure_replaces_other :
    answered ≠ asked ∧
      ((ensure misleading [asked] 1 loadedOnce).1 = some [.ok ()] ∧
        (ensure misleading [asked] 1 loadedOnce).2.store.lookup answered ≠
          loadedOnce.store.lookup answered ∧
        (ensure misleading [asked] 1 loadedOnce).2.store.injectionsInto answered ≠
          loadedOnce.store.injectionsInto answered) ∧
      ((ensure honest [asked] 1 requestedOnce).1 = some [.ok ()] ∧
        (ensure honest [asked] 1 requestedOnce).2.store.lookup answered ≠
          requestedOnce.store.lookup answered) := by
  refine ⟨by decide, ⟨by decide +kernel, fun hlookup => ?_, fun hinjected => ?_⟩,
    by decide +kernel, fun hlookup => ?_⟩
  · -- The first grammar has no patterns, and the second one has some.
    have hbefore : (loadedOnce.store.lookup answered).any (·.grammar.patterns.isEmpty) = true := by
      decide +kernel
    have hafter : ((ensure misleading [asked] 1 loadedOnce).2.store.lookup answered).any
        (·.grammar.patterns.isEmpty) = false := by decide +kernel
    rw [hlookup, hbefore] at hafter
    cases hafter
  · -- The list of injected scopes comes from the scope that was asked for.
    have hbefore : loadedOnce.store.injectionsInto answered = [answered] := by decide +kernel
    have hafter : (ensure misleading [asked] 1 loadedOnce).2.store.injectionsInto answered =
        [asked] := by decide +kernel
    rw [hafter, hbefore] at hinjected
    exact absurd hinjected (by decide)
  · -- The load of the other scope ends while the caller waits.
    have hafter : ((ensure honest [asked] 1
        requestedOnce).2.store.lookup answered).isSome = true := by decide +kernel
    rw [hlookup] at hafter
    cases hafter

end Library

end Textmate
