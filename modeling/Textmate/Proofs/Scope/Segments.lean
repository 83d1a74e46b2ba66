import Textmate.Proofs.Text.Split
import Textmate.Scope.Name

/-!
# Segments that start a scope

A text starts a scope name when its segments are the first segments of the name. Texts with empty
segments, at their ends or between two dots, are no exception. So names are ordered by what starts
them, and of two texts that start one name the segments of one are the first segments of the other.

## Key results

- `startsWith_iff_isPrefix`: starting a name in terms of segments
- `startsWith_orders`: names are ordered by what starts them
-/

namespace Textmate.ScopeName

variable {scope a b c : ScopeName} {start : String}

/-- A text starts a name exactly when its segments are the first segments of the name. -/
theorem startsWith_iff_isPrefix :
    scope.startsWith start = true ↔ Text.splitString '.' start <+: scope.segments :=
  startsWith_iff_toList.trans Text.splitString_isPrefix_iff.symm

/-- Names with the same segments are equal. -/
theorem segments_injective : Function.Injective segments :=
  fun _ _ h => ext (Text.splitString_injective '.' h)

/-- A name starts itself. -/
theorem startsWith_self (scope : ScopeName) : scope.startsWith scope.text = true :=
  startsWith_iff_isPrefix.2 (List.prefix_refl _)

/-- The start of a start is a start. -/
theorem startsWith_trans (hab : b.startsWith a.text = true) (hbc : c.startsWith b.text = true) :
    c.startsWith a.text = true :=
  startsWith_iff_isPrefix.2
    ((startsWith_iff_isPrefix.1 hab).trans (startsWith_iff_isPrefix.1 hbc))

/-- Two names that start each other are equal. -/
theorem eq_of_startsWith (hab : b.startsWith a.text = true) (hba : a.startsWith b.text = true) :
    a = b := by
  -- Of the same length, one list of segments starts another only as its equal.
  have hle : a.segments <+: b.segments := startsWith_iff_isPrefix.1 hab
  have hge : b.segments <+: a.segments := startsWith_iff_isPrefix.1 hba
  exact segments_injective (hle.eq_of_length (Nat.le_antisymm hle.length_le hge.length_le))

/-- A text starts a name exactly when its segments are the first segments of the name. So names are
ordered by what starts them: a name starts itself, a start of a start is a start, and two names that
start each other are equal. The texts that start one name, and the names among them, are in line. -/
theorem startsWith_orders :
    (∀ (scope : ScopeName) (start : String),
      scope.startsWith start = true ↔ Text.splitString '.' start <+: scope.segments) ∧
    (∀ a : ScopeName, a.startsWith a.text = true) ∧
    (∀ a b c : ScopeName, b.startsWith a.text = true → c.startsWith b.text = true →
      c.startsWith a.text = true) ∧
    (∀ a b : ScopeName, b.startsWith a.text = true → a.startsWith b.text = true → a = b) ∧
    (∀ (scope : ScopeName) (first second : String), scope.startsWith first = true →
      scope.startsWith second = true →
        Text.splitString '.' first <+: Text.splitString '.' second ∨
          Text.splitString '.' second <+: Text.splitString '.' first) ∧
    ∀ scope a b : ScopeName, scope.startsWith a.text = true → scope.startsWith b.text = true →
      b.startsWith a.text = true ∨ a.startsWith b.text = true := by
  -- First segments of one name are of different length at most.
  have hcomparable (scope : ScopeName) (first second : String)
      (hfirst : scope.startsWith first = true) (hsecond : scope.startsWith second = true) :
      Text.splitString '.' first <+: Text.splitString '.' second ∨
        Text.splitString '.' second <+: Text.splitString '.' first :=
    List.prefix_or_prefix_of_prefix (startsWith_iff_isPrefix.1 hfirst)
      (startsWith_iff_isPrefix.1 hsecond)
  refine ⟨fun _ _ => startsWith_iff_isPrefix, startsWith_self, fun _ _ _ => startsWith_trans,
    fun _ _ => eq_of_startsWith, hcomparable, fun scope a b ha hb => ?_⟩
  exact (hcomparable scope a.text b.text ha hb).imp startsWith_iff_isPrefix.2
    startsWith_iff_isPrefix.2

/-- The empty text and names with a dot at their ends start a name with empty segments. -/
theorem startsWith_orders_of_empty_segments :
    let inner : ScopeName := ⟨".a", by decide, by simp, by simp; decide⟩
    let middle : ScopeName := ⟨".a.", by decide, by simp, by simp; decide⟩
    let scope : ScopeName := ⟨".a..b", by decide, by simp, by simp; decide⟩
    (middle.startsWith inner.text = true ∧ scope.startsWith middle.text = true ∧
      scope.startsWith "" = true ∧ scope.startsWith ".a.b" = false) ∧
    Text.splitString '.' ".a." <+: scope.segments ∧ scope.startsWith inner.text = true ∧
    (Text.splitString '.' "" <+: Text.splitString '.' ".a." ∨
      Text.splitString '.' ".a." <+: Text.splitString '.' "") := by
  intro inner middle scope
  have hinner : middle.startsWith inner.text = true := by decide
  have hmiddle : scope.startsWith middle.text = true := by decide
  have hempty : scope.startsWith "" = true := by decide
  -- The names are `.a`, `.a.` and `.a..b`, each of which starts the next one.
  obtain ⟨hiff, -, htrans, -, hcomparable, -⟩ := startsWith_orders
  exact ⟨⟨hinner, hmiddle, hempty, by decide⟩, (hiff scope middle.text).1 hmiddle,
    htrans inner middle scope hinner hmiddle, hcomparable scope "" middle.text hempty hmiddle⟩

end Textmate.ScopeName
