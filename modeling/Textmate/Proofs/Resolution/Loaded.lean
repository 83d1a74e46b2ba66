import Textmate.Proofs.Resolution.Executor

/-!
# What a resolution has loaded

A scope that a resolution reports as loaded is registered in the store when the executor comes back,
whatever the loader answers: the scan found it there, and no load takes a grammar out of a store.

## Key results

- `Library.Steps.extends`: loads register grammars and compile none
- `Library.lookup_isSome_of_resolve`: what a resolution reports as loaded is registered
-/

namespace Textmate

/-! ## What loads do to a store -/

namespace Store

/-- A store with more registered grammars and the same compiled ones, under the same theme. -/
structure Extends (store next : Store) : Prop where
  lookup_isSome : ∀ scope, (store.lookup scope).isSome → (next.lookup scope).isSome
  /-- The compiled grammars are the same. -/
  compiled_eq : next.compiled = store.compiled
  calls_eq : next.calls = store.calls
  theme_eq : next.theme = store.theme
  engine_eq : next.engine = store.engine

/-- A store extends itself. -/
theorem Extends.refl (store : Store) : store.Extends store := ⟨fun _ h => h, rfl, rfl, rfl, rfl⟩

/-- An extension of an extension is one. -/
private theorem Extends.trans {store middle next : Store} (h : store.Extends middle)
    (h' : middle.Extends next) : store.Extends next :=
  ⟨fun scope hs => h'.lookup_isSome scope (h.lookup_isSome scope hs),
    h'.compiled_eq.trans h.compiled_eq, h'.calls_eq.trans h.calls_eq,
    h'.theme_eq.trans h.theme_eq, h'.engine_eq.trans h.engine_eq⟩

/-- Registering a grammar extends the store. -/
theorem register_extends (store : Store) (grammar : Grammar) (injected : List ScopeName) :
    store.Extends (store.register grammar injected) := by
  refine ⟨fun scope hs => ?_, rfl, rfl, rfl, rfl⟩
  rw [lookup_register]
  split
  · rfl
  · -- A scope other than the grammar's has what it had.
    exact hs

end Store

namespace Library

/-- A step of a load extends the store. -/
theorem Step.extends {loader : Loader} {library next : Library} (h : Step loader library next) :
    library.store.Extends next.store := by
  rcases h.effect with ⟨hstore, -⟩ | ⟨ended, -, hstore, -⟩
  · rw [hstore]
    exact .refl library.store
  · -- The answer that ends a load registers a grammar or nothing.
    rw [hstore]
    unfold accept
    split
    · exact Store.register_extends _ _ _
    · exact .refl library.store
    · exact .refl library.store

/-- Loads register grammars and compile none. -/
theorem Steps.extends {loader : Loader} {library next : Library}
    (h : Steps loader library next) : library.store.Extends next.store :=
  h.keep (fun later => library.store.Extends later.store) (.refl library.store)
    fun _ _ hstep hextends => hextends.trans hstep.extends

end Library

/-! ## One layer -/

namespace Run

/-- A scan reports a scope as loaded whose grammar it has found. -/
private theorem lookup_isSome_of_scan {store : Store} {initial : ScopeName} {base : Definition}
    {collector : Collector} {report : Resolution} {dependency : Dependency}
    {found : Collector × Resolution}
    (h : scan store initial base collector report dependency = .ok found) {scope : ScopeName}
    (hs : scope ∈ found.2.loaded) : scope ∈ report.loaded ∨ (store.lookup scope).isSome := by
  simp only [scan] at h
  split at h
  · split at h
    · cases h
    · cases h
      exact Or.inl hs
  · rename_i definition hlookup
    cases h
    -- Both kinds of dependencies are reported as loaded in the same way.
    have hloaded : scope ∈ addNew report.loaded dependency.scope := by
      cases dependency <;> exact hs
    rcases mem_addNew.1 hloaded with hold | rfl
    · exact Or.inl hold
    · rw [hlookup]
      exact Or.inr rfl

/-- So do all scans of a layer. -/
private theorem lookup_isSome_of_scanAll {store : Store} {initial : ScopeName} {base : Definition}
    {layer : List Dependency} {start found : Collector × Resolution}
    (h : scanAll store initial base layer start = .ok found) {scope : ScopeName}
    (hs : scope ∈ found.2.loaded) : scope ∈ start.2.loaded ∨ (store.lookup scope).isSome := by
  induction layer generalizing start with
  | nil =>
    cases h
    exact Or.inl hs
  | cons dependency rest ih =>
    obtain ⟨collector, report⟩ := start
    simp only [scanAll] at h
    split at h
    · cases h
    · rename_i after hscan
      -- It was loaded after the first scan, or a later scan has found it in the store.
      rcases ih h with hafter | hstore
      · exact lookup_isSome_of_scan hscan hafter
      · exact Or.inr hstore

end Run

namespace Progress

/-- The scopes that a resolution reports as loaded so far. -/
def loaded : Progress → List ScopeName
  | waiting run => run.report.loaded
  | done (.ok report) => report.loaded
  | done (.error _) => []

/-- What a resolution reports as loaded is registered. -/
def Registered (progress : Progress) (store : Store) : Prop :=
  ∀ scope ∈ progress.loaded, (store.lookup scope).isSome

/-- What the next layer reports as loaded is registered. -/
private theorem registered_afterLoads {store : Store} {run : Run}
    (h : (waiting run).Registered store)
    (outcomes : List Outcome) : (afterLoads store run outcomes).Registered store := by
  -- The report was right before the layer, and the scans looked into the same store.
  have hnext (after : Run) (hafter : run.next store = .ok after) (scope : ScopeName)
      (hs : scope ∈ after.report.loaded) : (store.lookup scope).isSome := by
    obtain ⟨base, collector, report, -, hscan, rfl⟩ := Run.next_eq_ok hafter
    rcases Run.lookup_isSome_of_scanAll hscan hs with hold | hnew
    · exact h scope hold
    · exact hnew
  rcases afterLoads_cases store run outcomes with
    ⟨e, he⟩ | ⟨-, after, hafter, ⟨-, hdone⟩ | ⟨-, hwaiting⟩⟩
  · -- A resolution that failed reports nothing.
    rw [he]
    exact fun _ hs => nomatch hs
  · rw [hdone]
    exact hnext after hafter
  · rw [hwaiting]
    exact hnext after hafter

end Progress

/-! ## The executor -/

/-- Loads and layers keep what is reported as loaded registered. -/
private theorem keeps_registered (loader : Loader) :
    Keeps loader fun library progress => progress.Registered library.store where
  load := fun _ _ _ hstep h scope hs => hstep.extends.lookup_isSome scope (h scope hs)
  layer := fun _ _ outcomes h _ => Progress.registered_afterLoads h outcomes

namespace Library

/-- What a resolution reports as loaded is registered. -/
theorem lookup_isSome_of_resolve {loader : Loader} {limit : Nat} {library : Library}
    {initial : ScopeName} {resolution : Resolution}
    (h : (library.resolve loader limit initial).1 = some (.ok resolution)) {scope : ScopeName}
    (hs : scope ∈ resolution.loaded) :
    ((library.resolve loader limit initial).2.store.lookup scope).isSome :=
  kept_of_resolve (keeps_registered loader) (fun _ h => nomatch h) limit h scope hs

/-- A resolution changes a library by steps of loads. -/
theorem steps_resolve (loader : Loader) (limit : Nat) (library : Library) (scope : ScopeName) :
    Steps loader library (library.resolve loader limit scope).2 :=
  steps_runAll loader limit limit library _

end Library

end Textmate
