import Textmate.Resolution

/-!
# The registry

A registry is a library together with the loader that fills it. The grammars that it hands out after
a load have had everything they depend on loaded before.

A loader may have ever new grammars, so waiting has a limit of turns; what takes longer has no
result.
-/

namespace Textmate

/-- A registry. -/
structure Registry where
  /-- Where grammars come from. -/
  loader : Loader
  /-- How many turns a resolution may take. -/
  limit : Nat
  library : Library

namespace Registry

def empty (loader : Loader) (limit : Nat) (engine : Engine) : Registry :=
  ⟨loader, limit, .empty engine⟩

def store (registry : Registry) : Store :=
  registry.library.store

def cache (registry : Registry) : Cache :=
  registry.library.cache

def withStore (registry : Registry) (store : Store) : Registry :=
  { registry with library := { registry.library with store := store } }

/-- Loads all that several scopes depend on, at once. -/
def resolveAll (registry : Registry) (scopes : List ScopeName) :
    Option (List (Except Error Resolution)) × Registry :=
  let (results, library) := registry.library.resolveAll registry.loader registry.limit scopes
  (results, { registry with library := library })

/-- Loads all that a scope depends on. -/
def resolve (registry : Registry) (scope : ScopeName) :
    Option (Except Error Resolution) × Registry :=
  let (result, library) := registry.library.resolve registry.loader registry.limit scope
  (result, { registry with library := library })

/-- The compiled grammar of a registered scope. -/
def grammarFor (registry : Registry) (scope : ScopeName) (language : Nat)
    (configuration : Configuration) : Except Error Handle × Registry :=
  let (result, store) := registry.store.compile scope language configuration
  let registry := registry.withStore store
  match result with
  | .error e => (.error e, registry)
  -- The store has no error for a scope that is not registered.
  | .ok none => (.error (.missingGrammar scope), registry)
  | .ok (some handle) => (.ok handle, registry)

/-- The compiled grammar of a scope, after all that it depends on is loaded. -/
def load (registry : Registry) (scope : ScopeName) (language : Nat)
    (configuration : Configuration) : Option (Except Error Handle) × Registry :=
  match registry.resolve scope with
  | (none, registry) => (none, registry)
  | (some (.error e), registry) => (some (.error e), registry)
  | (some (.ok _), registry) =>
    let (result, registry) := registry.grammarFor scope language configuration
    (some result, registry)

/-- Registers a grammar without asking the loader, and compiles it. -/
def add (registry : Registry) (grammar : Grammar) (injected : List ScopeName) (language : Nat)
    (embedded : List (ScopeName × Nat)) : Except Error Handle × Registry :=
  -- The grammar is compiled at once, whatever it includes and without asking the loader.
  (registry.withStore (registry.store.register grammar injected)).grammarFor grammar.scope language
    ⟨embedded, []⟩

/-- The registry with another theme. If a table of colors is given, the theme has to keep to it. -/
def setTheme (registry : Registry) (source : ThemeSource) (table : Option (List String)) :
    Except Error Registry :=
  (registry.store.setTheme source table).map registry.withStore

def describe (registry : Registry) : String :=
  "Registry \x7b store: " ++ registry.store.describe ++ ", cache: " ++ registry.cache.describe ++
    " \x7d"

end Registry

end Textmate
