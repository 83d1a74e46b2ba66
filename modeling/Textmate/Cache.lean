import Textmate.Loader
import Textmate.Store

/-!
# The load cache

A cache remembers for every scope how far its load has come, so that a loader is asked for each
scope only once, however many callers wait for it and whether or not they go on waiting.

A load is *queued* when a caller requests its scope, *running* once the loader was asked, and
*finished* when the loader has answered and its grammar is registered. When a caller sees a finished
load, the load is *settled*. The four events of a load are the functions `request`, `start`,
`finish` and `observe` on a `Library`, a store with the cache that fills it; they leave the loads of
other scopes as they are.

Main statement: what an event changes in the cache it changes for its own scope alone
(`find?_setPhase`).
-/

namespace Textmate

/-- How a load ended. A loader without a grammar for the scope is no error. -/
abbrev Outcome := Except Error Unit

/-- How far a load has come. -/
inductive Phase where
  /-- A caller requested the scope, and the loader was not yet asked. -/
  | queued
  /-- The loader was asked, and its answer takes some more turns. -/
  | running (turns : Nat)
  /-- The loader answered, and no caller has seen the outcome. -/
  | finished (outcome : Outcome)
  /-- A caller has seen the outcome. -/
  | settled (outcome : Outcome)

namespace Phase

/-- The outcome that a caller sees. -/
def outcome? : Phase → Option Outcome
  | queued => none
  | running _ => none
  | finished outcome => some outcome
  | settled outcome => some outcome

def isSettled : Phase → Bool
  | settled _ => true
  | _ => false

end Phase

/-- The loads of all scopes that were requested. -/
structure Cache where
  /-- How far each load has come, in the order of the first requests. -/
  loads : List (ScopeName × Phase)
  /-- The scopes for which the loader was asked, in that order. -/
  fetched : List ScopeName

namespace Cache

def empty : Cache := ⟨[], []⟩

/-- How far the load of a scope has come, if it was requested. -/
def phase? (cache : Cache) (scope : ScopeName) : Option Phase :=
  Dict.find? scope cache.loads

/-- Whether a caller has seen the outcome for a scope. -/
def isSettled (cache : Cache) (scope : ScopeName) : Bool :=
  (cache.phase? scope).any (·.isSettled)

/-- The scopes whose outcome was seen, in the order of their names. -/
def settledScopes (cache : Cache) : List ScopeName :=
  Dict.keys (Dict.ofList ((cache.loads.filter (·.2.isSettled)).map fun (scope, _) => (scope, ())))

/-- How often the loader was asked. -/
def fetchCount (cache : Cache) : Nat :=
  cache.fetched.length

/-- The cache with another phase of a load that was requested before. -/
def setPhase (cache : Cache) (scope : ScopeName) (phase : Phase) : Cache :=
  { cache with
    -- The order of the first requests stays, as the loads advance in it.
    loads := cache.loads.map fun (other, p) => (other, if other = scope then phase else p) }

/-- The numbers of requested scopes and of questions to the loader. -/
def describe (cache : Cache) : String :=
  "GrammarLoadCache \x7b entries: " ++ Text.decimal cache.loads.length ++
    ", fetches: " ++ Text.decimal cache.fetchCount ++ " \x7d"

/-- Another phase of one load changes nothing for other scopes. -/
theorem find?_setPhase (cache : Cache) (scope other : ScopeName) (phase : Phase) :
    (cache.setPhase scope phase).phase? other =
      if other = scope then (cache.phase? other).map fun _ => phase else cache.phase? other := by
  unfold phase? setPhase
  dsimp only
  induction cache.loads with
  | nil => simp [Dict.find?]
  | cons entry rest ih =>
    obtain ⟨s, p⟩ := entry
    -- The keys stay, so the entry is found where it was found before.
    by_cases h : s = other
    · by_cases hs : other = scope <;> simp [Dict.find?, h, hs]
    · simp only [List.map_cons, Dict.find?, h, if_false]
      exact ih

end Cache

/-- A store and the cache of the loads that fill it. -/
structure Library where
  store : Store
  cache : Cache

namespace Library

def empty (engine : Engine) : Library :=
  ⟨.empty engine, .empty⟩

/-- A caller requests a scope; a load that was requested before stays as it is. -/
def request (library : Library) (scope : ScopeName) : Library :=
  match library.cache.phase? scope with
  | some _ => library
  | none =>
    { library with
      cache := { library.cache with loads := library.cache.loads ++ [(scope, .queued)] } }

/-- The loader is asked for a queued scope. -/
def start (loader : Loader) (library : Library) (scope : ScopeName) : Library :=
  match library.cache.phase? scope with
  | some .queued =>
    let cache := library.cache.setPhase scope (.running (loader.delay scope))
    -- The one place where the loader is asked.
    { library with cache := { cache with fetched := cache.fetched ++ [scope] } }
  | _ => library

/-- A turn passes while the loader is busy with a scope. -/
def wait (library : Library) (scope : ScopeName) : Library :=
  match library.cache.phase? scope with
  | some (.running (turns + 1)) =>
    { library with cache := library.cache.setPhase scope (.running turns) }
  | _ => library

/-- What the answer of a loader does to a store, and how the load ends. -/
def accept (loader : Loader) (store : Store) (scope : ScopeName) : Store × Outcome :=
  match loader.answer scope with
  | .grammar grammar => (store.register grammar (loader.injections scope), .ok ())
  -- A scope without a grammar stays absent from the store, and its load has not failed.
  | .nothing => (store, .ok ())
  | .failure cause => (store, .error (.loader scope cause))

/-- The loader answers for a scope for which it was asked. -/
def finish (loader : Loader) (library : Library) (scope : ScopeName) : Library :=
  match library.cache.phase? scope with
  | some (.running _) =>
    let (store, outcome) := accept loader library.store scope
    ⟨store, library.cache.setPhase scope (.finished outcome)⟩
  | _ => library

/-- A caller looks at the load of a scope; if it is finished, it is settled from now on. -/
def observe (library : Library) (scope : ScopeName) : Library :=
  match library.cache.phase? scope with
  | some (.finished outcome) =>
    { library with cache := library.cache.setPhase scope (.settled outcome) }
  | _ => library

/-- The outcome for a scope, once it was seen. -/
def outcome? (library : Library) (scope : ScopeName) : Option Outcome :=
  (library.cache.phase? scope).bind (·.outcome?)

/-- A caller that waits for a scope requests it and looks at its load. -/
def await (library : Library) (scope : ScopeName) : Library :=
  (library.request scope).observe scope

/-- What happens to one load within a turn: a queued load starts, and a running one comes a turn
closer to its end. A load without delay ends in the turn in which it starts. -/
def advance (loader : Loader) (library : Library) (scope : ScopeName) : Library :=
  match library.cache.phase? scope with
  | some .queued =>
    let started := library.start loader scope
    if loader.delay scope = 0 then started.finish loader scope else started
  | some (.running turns) =>
    -- The last turn of a load is the one in which it ends.
    if turns ≤ 1 then library.finish loader scope else library.wait scope
  | _ => library

/-- A turn of all loads, in the order in which they were requested. -/
def turn (loader : Loader) (library : Library) : Library :=
  (Dict.keys library.cache.loads).foldl (advance loader) library

/-- Whether a load has yet to end. -/
def isBusy (library : Library) : Bool :=
  library.cache.loads.any (·.2.outcome?.isNone)

/-- Lets all loads end, within a number of turns. -/
def drain (loader : Loader) : Nat → Library → Library
  | 0, library => library
  | limit + 1, library =>
    if library.isBusy then drain loader limit (library.turn loader) else library

/-- The outcomes for all of a list of scopes, once all are known. -/
def outcomes? (library : Library) (scopes : List ScopeName) : Option (List Outcome) :=
  scopes.mapM library.outcome?

/-- Waits for all of a list of scopes at once: the outcomes, or nothing if they take more than a
number of turns. -/
def ensure (loader : Loader) (scopes : List ScopeName) :
    Nat → Library → Option (List Outcome) × Library
  | limit, library =>
    let library := scopes.foldl await library
    -- All of the loads have to end, also when one of them has failed.
    match library.outcomes? scopes, limit with
    | some outcomes, _ => (some outcomes, library)
    | none, 0 => (none, library)
    | none, limit + 1 => ensure loader scopes limit (library.turn loader)

end Library

end Textmate
