import Textmate.Text.Blank

/-!
# Scope names

A scope name such as `string.quoted.double` names a grammar or a place in the taxonomy of scopes. It
consists of segments between dots. It is not empty, holds no blank, and holds no `#`, which
separates a scope from a rule in an include; the type carries these three properties.

Main statement: `ofString` accepts exactly the texts with these properties (`ofString_eq_ok_iff`).
-/

namespace Textmate

/-- A scope name. -/
structure ScopeName where
  /-- The name as it is written. -/
  text : String
  ne_empty : text ≠ ""
  /-- The separator of scope and rule does not occur. -/
  hash_not_mem : '#' ∉ text.toList
  not_blank : ∀ c ∈ text.toList, Text.isBlank c = false
  deriving DecidableEq

/-- Why a text is no scope name. -/
inductive ScopeName.Problem where
  | empty
  | hash (text : String)
  | blank (text : String)
  deriving Repr, DecidableEq

namespace ScopeName

/-- The wording of the problem. -/
def Problem.message : Problem → String
  | .empty => "scope name is empty"
  | .hash text => "`" ++ text ++ "` contains `#`"
  | .blank text => "`" ++ text ++ "` contains whitespace"

/-- The scope name that a text spells. -/
def ofString (text : String) : Except Problem ScopeName :=
  if h1 : text = "" then .error .empty
  else if h2 : '#' ∈ text.toList then .error (.hash text)
  else if h3 : text.toList.any Text.isBlank = false then .ok ⟨text, h1, h2, by simpa using h3⟩
  else .error (.blank text)

/-- The scope name that a text spells, without a reason if it spells none. -/
def ofString? (text : String) : Option ScopeName :=
  (ofString text).toOption

instance : LT ScopeName := ⟨fun a b => a.text < b.text⟩

instance : DecidableLT ScopeName := fun a b => inferInstanceAs (Decidable (a.text < b.text))

instance : ToString ScopeName := ⟨text⟩

def segments (scope : ScopeName) : List String :=
  Text.splitString '.' scope.text

/-- Whether the name is a given text, or goes on with a dot after it. So `source.js` starts
`source.js.embedded` and does not start `source.jsx`. -/
def startsWith (scope : ScopeName) (start : String) : Bool :=
  match Text.afterStart? start.toList scope.text.toList with
  | none => false
  | some [] => true
  | some (c :: _) => c == '.'

/-- The name as it is shown inside other values. -/
def describe (scope : ScopeName) : String :=
  "ScopeName(" ++ scope.text ++ ")"

/-- Scope names with the same text are equal. -/
@[ext] theorem ext {a b : ScopeName} (h : a.text = b.text) : a = b := by
  cases a; cases b; simp_all

/-- A name starts with a text in front of its end or of a dot. -/
theorem startsWith_iff_toList {scope : ScopeName} {start : String} :
    scope.startsWith start = true ↔ scope.text.toList = start.toList ∨
      ∃ rest, scope.text.toList = start.toList ++ '.' :: rest := by
  rw [startsWith]
  cases hafter : Text.afterStart? start.toList scope.text.toList with
  | none =>
    -- The text is no start at all, be it in front of a dot or of the end.
    have hnone (rest : List Char) : scope.text.toList ≠ start.toList ++ rest := by
      intro h
      simp [Text.afterStart?_eq_some_iff.2 h] at hafter
    simpa [hnone] using hnone []
  | some rest =>
    rw [Text.afterStart?_eq_some_iff.1 hafter]
    cases rest <;> simp

/-- A text is read as a scope name exactly when it is the text of the name. -/
theorem ofString_eq_ok_iff {text : String} {scope : ScopeName} :
    ofString text = .ok scope ↔ scope.text = text := by
  constructor
  · intro h
    unfold ofString at h
    split at h
    · cases h
    · split at h
      · cases h
      · split at h
        · cases h; rfl
        · cases h
  · rintro rfl
    have h := scope.hash_not_mem
    unfold ofString
    rw [dif_neg scope.ne_empty, dif_neg h, dif_pos (by simpa using scope.not_blank)]

/-- A text is read as the name with this text. -/
theorem ofString?_eq_some_iff {text : String} {scope : ScopeName} :
    ofString? text = some scope ↔ scope.text = text := by
  rw [← ofString_eq_ok_iff, ofString?]
  cases ofString text <;> simp [Except.toOption]

end ScopeName

end Textmate
