import Textmate.Text.Split

/-!
# Includes

A rule of a grammar can include another rule or a whole grammar. The text of an include is `$base`,
`$self`, a rule after `#`, a scope, or a scope and a rule with a `#` between them; the first `#`
counts, so a rule may hold further ones.

Main statement: an include that was read is written back as the same text (`display_of_parse`).
-/

namespace Textmate

/-- What a rule includes. -/
inductive Include where
  /-- The top level of the grammar where tokenizing started. -/
  | base
  /-- The top level of the grammar that the rule belongs to. -/
  | self
  /-- A rule of the repositories around the rule. -/
  | rule (name : String)
  /-- The top level of the grammar of a scope. -/
  | grammar (scope : String)
  /-- A rule of the repository of the grammar of a scope. -/
  | grammarRule (scope name : String)
  deriving Repr, DecidableEq

/-- Why a text is no include. -/
inductive Include.Problem where
  | empty
  | noRule (text : String)
  deriving Repr, DecidableEq

namespace Include

def Problem.message : Problem → String
  | .empty => "empty include"
  | .noRule text => text

/-- Reads the text of an include. -/
def parse (text : String) : Except Problem Include :=
  if text = "" then .error .empty
  else if text = "$base" then .ok .base
  else if text = "$self" then .ok .self
  else
    -- The first `#` counts, so that names of rules may have further ones.
    match Text.splitOnce '#' text.toList with
    | none => .ok (.grammar text)
    | some (_, []) => .error (.noRule text)
    | some ([], name) => .ok (.rule (String.ofList name))
    | some (scope, name) => .ok (.grammarRule (String.ofList scope) (String.ofList name))

/-- The text of an include. -/
def display : Include → String
  | .base => "$base"
  | .self => "$self"
  | .rule name => "#" ++ name
  | .grammar scope => scope
  | .grammarRule scope name => scope ++ "#" ++ name

/-- An include that was read is written back as the same text. -/
theorem display_of_parse {text : String} {target : Include} (h : parse text = .ok target) :
    target.display = text := by
  unfold parse at h
  split at h
  · cases h
  · split at h
    · rename_i hb; cases h; exact hb.symm
    · split at h
      · rename_i hs; cases h; exact hs.symm
      · split at h
        · cases h; rfl
        · cases h
        · -- The text is cut at its first separator, and shown with one between the parts.
          rename_i name _ hsplit
          cases h
          have := (Text.splitOnce_eq_some_iff.1 hsplit).1
          rw [← String.toList_inj]
          simp [display, this]
        · rename_i scope name _ _ hsplit
          cases h
          have := (Text.splitOnce_eq_some_iff.1 hsplit).1
          rw [← String.toList_inj]
          simp [display, this]

end Include

end Textmate
