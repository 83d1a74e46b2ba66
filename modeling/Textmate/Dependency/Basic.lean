import Textmate.Grammar.Json

/-!
# Dependencies

What a grammar needs from another scope: the whole grammar, or one rule of its repository. The key
of a dependency is the text of the include that asks for it; since scope names hold no `#`,
different dependencies have different keys.

Main statement: the key tells dependencies apart (`key_inj`).
-/

namespace Textmate

/-- A dependency on another scope. -/
inductive Dependency where
  /-- The whole grammar of the scope. -/
  | whole (scope : ScopeName)
  /-- A rule of the repository of the scope's grammar. -/
  | part (scope : ScopeName) (rule : String)
  deriving DecidableEq

namespace Dependency

def scope : Dependency → ScopeName
  | whole scope => scope
  | part scope _ => scope

def rule? : Dependency → Option String
  | whole _ => none
  | part _ rule => some rule

def isWhole : Dependency → Bool
  | whole _ => true
  | part _ _ => false

/-- The text of the include that asks for the dependency. -/
def key : Dependency → String
  | whole scope => scope.text
  | part scope rule => scope.text ++ "#" ++ rule

/-- The word for the kind of the dependency. -/
def kind : Dependency → String
  | whole _ => "full"
  | part _ _ => "partial"

def display (dependency : Dependency) : String :=
  dependency.kind ++ ":" ++ dependency.key

def toJson (dependency : Dependency) : Json :=
  .ofMembers ([("kind", .string dependency.kind), ("scope", .string dependency.scope.text)] ++
    Rule.member "rule" .string dependency.rule?)

/-- The dependency with the given kind and members; keys that belong to no member are left out. -/
def ofMembers? (kind : String) (members : Document.Members) : Option Dependency := do
  let scope ← members.required "scope" Grammar.scope?
  match kind with
  | "full" => pure (.whole scope)
  | "partial" => pure (.part scope (← members.required "rule" Document.string?))
  | _ => none

/-- The dependency that a document stands for: an object with its kind, or an array of the kind and
the members in order. All parts need a value. -/
def ofDocument? (document : Document) : Option Dependency := do
  guard (document.depth ≤ Grammar.maxDepth)
  -- Members that are not looked at need a value as well.
  let _ ← document.value?
  match document with
  | .object members =>
    let members : Document.Members := members
    ofMembers? (← members.required "kind" Document.string?) members
  | .array [.string (some "full"), scope] => ofMembers? "full" [(some "scope", scope)]
  | .array [.string (some "partial"), scope, rule] =>
    ofMembers? "partial" [(some "scope", scope), (some "rule", rule)]
  | _ => none

/-- The key tells dependencies apart. -/
theorem key_inj {a b : Dependency} : a.key = b.key ↔ a = b := by
  constructor
  · intro h
    have hlist : a.key.toList = b.key.toList := by rw [h]
    cases a with
    | whole s =>
      cases b with
      | whole t => exact congrArg whole (ScopeName.ext h)
      | part t r =>
        -- The key of a rule has the separator in it, which no scope name has.
        exact absurd (by simp only [key] at hlist; simp [hlist]) s.hash_not_mem
    | part s r =>
      cases b with
      | whole t =>
        exact absurd (by simp only [key] at hlist; simp [← hlist]) t.hash_not_mem
      | part t q =>
        -- The first separator of the key stands behind the scope.
        have hs : Text.splitOnce '#' (s.text.toList ++ '#' :: r.toList) =
            some (s.text.toList, r.toList) :=
          Text.splitOnce_eq_some_iff.2 ⟨rfl, s.hash_not_mem⟩
        have ht : Text.splitOnce '#' (t.text.toList ++ '#' :: q.toList) =
            some (t.text.toList, q.toList) :=
          Text.splitOnce_eq_some_iff.2 ⟨rfl, t.hash_not_mem⟩
        have heq : s.text.toList ++ '#' :: r.toList = t.text.toList ++ '#' :: q.toList := by
          simpa [key] using hlist
        rw [heq, ht] at hs
        simp only [Option.some.injEq, Prod.mk.injEq, String.toList_inj] at hs
        rw [ScopeName.ext hs.1.symm, hs.2]
  · rintro rfl
    rfl

end Dependency

end Textmate
