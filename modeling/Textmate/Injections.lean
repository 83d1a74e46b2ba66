import Textmate.Dict
import Textmate.Scope.Name

/-!
# Injection tables

An injection table lists for each scope the scopes that are injected into it. Single injections are
added at the end of a list, each once.

Main statement: a single injection changes the list of its own target and no other
(`injectedInto_add`).
-/

namespace Textmate

/-- The scopes that are injected into each scope. -/
abbrev InjectionTable := List (ScopeName × List ScopeName)

namespace InjectionTable

/-- The scopes that are injected into a scope. -/
def injectedInto (table : InjectionTable) (target : ScopeName) : List ScopeName :=
  (Dict.find? target table).getD []

/-- The table with a scope injected into another one, if it was not there. -/
def add (table : InjectionTable) (target injected : ScopeName) : InjectionTable :=
  let list := table.injectedInto target
  Dict.insert target (if injected ∈ list then list else list ++ [injected]) table

/-- The table with pairs of a scope and what is injected into it, one after another. -/
def merge (table : InjectionTable) (pairs : List (ScopeName × ScopeName)) : InjectionTable :=
  pairs.foldl (fun table (target, injected) => table.add target injected) table

/-- A single injection changes the list of its own target, and no other list. -/
theorem injectedInto_add (table : InjectionTable) (target injected other : ScopeName) :
    (table.add target injected).injectedInto other =
      if target = other then
        (if injected ∈ table.injectedInto target then table.injectedInto target
          else table.injectedInto target ++ [injected])
      else table.injectedInto other := by
  unfold add injectedInto
  -- The target is inserted in both cases, once with the list that it had.
  rw [Dict.find?_insert]
  split <;> simp_all

end InjectionTable

end Textmate
