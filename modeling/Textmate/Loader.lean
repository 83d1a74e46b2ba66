import Textmate.Dependency.Place
import Textmate.Error

/-!
# Loaders

A loader answers, for a scope, with the grammar of the scope and the scopes that are injected into
it. It is asked for each scope at most once. An answer may take several *turns*, in which other
loads go on.
-/

namespace Textmate

/-- What a loader answers. -/
inductive Answer where
  | grammar (grammar : Grammar)
  /-- There is no grammar for the scope. -/
  | nothing
  /-- Looking for the grammar failed. A loader that panics fails as well. -/
  | failure (cause : Error)

/-- A source of grammars. -/
structure Loader where
  answer : ScopeName → Answer
  /-- The scopes that are injected into a scope. -/
  injections : ScopeName → List ScopeName
  /-- How many turns the answer for a scope takes. -/
  delay : ScopeName → Nat

namespace Loader

/-- The loader that has no grammars. -/
def empty : Loader :=
  ⟨fun _ => .nothing, fun _ => [], fun _ => 0⟩

/-- How many turns a resolution can take at most over grammars, lists of injected scopes and a
greatest delay: a layer for each dependency that a rule or an injection asks for, and one for the
initial scope, each as long as its slowest load. -/
def turnLimit (grammars : List Grammar) (injections : List (List ScopeName)) (delay : Nat) : Nat :=
  let rules := (grammars.flatMap fun grammar => (Definition.mk 0 grammar).places).length
  let injected := injections.flatten.length
  (rules + injected + 2) * (delay + 2)

end Loader

end Textmate
