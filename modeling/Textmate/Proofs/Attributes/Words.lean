import Mathlib.Data.List.Basic
import Mathlib.Order.Bounds.Defs
import Textmate.Proofs.Attributes.Asked

/-!
# The token type of a scope

The name of a scope stands for a token type by the first word in it that does so. The word has to
stand between two boundaries: `string` counts in `x.string.y` and in `x-string`, but neither in
`stringify` nor in `x_string`. What looks like a word but has no boundary on one side is passed over
like any other text, so a word behind it counts.

The name is read from its start on, with the character in front of the place in hand, and at each
place all words are tried. No two words can stand at the same place, so it does not matter which one
is tried first.

## Key results

- `typeAtStart?_eq_some_iff`: at one place the type of the word is found that stands there
- `firstType?_eq_some_iff`, `firstType?_eq_none_iff`: from a place on, the type of the first word
- `ScopeName.standardType?_eq_some_iff`: the type of a name
- `Classifier.tokenType_of_first_word`: so a classifier answers, whatever it was asked before
-/

namespace Textmate

/-! ## Words between boundaries -/

namespace Text

/-- The character in front of a position of a text is a word character. -/
def WordBefore (cs : List Char) (position : Nat) : Prop :=
  ∃ c ∈ (cs.take position).getLast?, isWordChar c = true

/-- The character behind a position of a text is a word character. -/
def WordBehind (cs : List Char) (position : Nat) : Prop :=
  ∃ c ∈ (cs.drop position).head?, isWordChar c = true

/-- A boundary lies at a position of a text: of the characters beside it exactly one is a word
character. -/
def BoundaryAt (cs : List Char) (position : Nat) : Prop :=
  WordBefore cs position ↔ ¬ WordBehind cs position

/-- The two characters beside a position tell whether there is a boundary. -/
private theorem boundaryAt_iff {cs : List Char} {position : Nat} :
    BoundaryAt cs position ↔
      isBoundary (cs.take position).getLast? (cs.drop position).head? = true := by
  -- At an end of the text there is no character, and so no word character.
  have hword (beside : Option Char) :
      (∃ c ∈ beside, isWordChar c = true) ↔ beside.any isWordChar = true := by
    rw [Option.any_eq_true]
    simp
  rw [BoundaryAt, WordBefore, WordBehind, hword, hword, isBoundary]
  cases (cs.take position).getLast?.any isWordChar <;>
    cases (cs.drop position).head?.any isWordChar <;> simp

instance (cs : List Char) (position : Nat) : Decidable (BoundaryAt cs position) :=
  decidable_of_iff _ boundaryAt_iff.symm

/-- A piece of a text begins at a position and lies between two boundaries. -/
structure StandsAt (piece cs : List Char) (position : Nat) : Prop where
  occurs : piece <+: cs.drop position
  starts : BoundaryAt cs position
  ends : BoundaryAt cs (position + piece.length)

instance (piece cs : List Char) (position : Nat) : Decidable (StandsAt piece cs position) :=
  decidable_of_iff (piece <+: cs.drop position ∧ BoundaryAt cs position ∧
    BoundaryAt cs (position + piece.length))
    ⟨fun ⟨occurs, starts, ends⟩ => ⟨occurs, starts, ends⟩, fun h => ⟨h.occurs, h.starts, h.ends⟩⟩

/-- Where a text is cut, the characters at both ends tell whether there is a boundary. -/
private theorem boundaryAt_length_iff (before rest : List Char) :
    BoundaryAt (before ++ rest) before.length ↔
      isBoundary before.getLast? rest.head? = true := by
  rw [boundaryAt_iff, List.take_left, List.drop_left]

/-- A piece that is not empty stands where a text is cut if the rest goes on with it, and there are
boundaries in front of the piece and behind it. -/
private theorem standsAt_length_iff {piece before rest : List Char} (hpiece : piece ≠ []) :
    StandsAt piece (before ++ rest) before.length ↔
      isBoundary before.getLast? rest.head? = true ∧
        ∃ after, afterStart? piece rest = some after ∧
          isBoundary piece.getLast? after.head? = true := by
  -- The end of the piece is where the text is cut behind it.
  have hends (after : List Char) :
      BoundaryAt (before ++ (piece ++ after)) (before.length + piece.length) ↔
        isBoundary piece.getLast? after.head? = true := by
    rw [← List.append_assoc, ← List.length_append, boundaryAt_length_iff,
      List.getLast?_append_of_ne_nil _ hpiece]
  constructor
  · rintro ⟨occurs, starts, ends⟩
    rw [List.drop_left] at occurs
    obtain ⟨after, rfl⟩ := occurs
    exact ⟨(boundaryAt_length_iff _ _).1 starts, after, afterStart?_eq_some_iff.2 rfl,
      (hends after).1 ends⟩
  · rintro ⟨hstarts, after, hafter, hbehind⟩
    obtain rfl := afterStart?_eq_some_iff.1 hafter
    refine ⟨?_, (boundaryAt_length_iff _ _).2 hstarts, (hends after).2 hbehind⟩
    rw [List.drop_left]
    exact List.prefix_append _ _

end Text

/-! ## Words for token types -/

/-- The words that stand for token types. -/
inductive TypeWord : List Char → TokenType → Prop
  | comment : TypeWord "comment".toList .comment
  | string : TypeWord "string".toList .string
  | regex : TypeWord "regex".toList .regex
  | embedded : TypeWord "meta.embedded".toList .other

namespace TypeWord

variable {word other cs : List Char} {type otherType : TokenType}

/-- The words that are tried are the words for token types. -/
private theorem mem_typeWords_iff : (word, type) ∈ typeWords ↔ TypeWord word type := by
  constructor
  · intro h
    simp only [typeWords, List.mem_cons, List.not_mem_nil, or_false, Prod.mk.injEq] at h
    rcases h with ⟨rfl, rfl⟩ | ⟨rfl, rfl⟩ | ⟨rfl, rfl⟩ | ⟨rfl, rfl⟩
    · exact .comment
    · exact .string
    · exact .regex
    · exact .embedded
  · intro h
    cases h <;> decide

/-- Words for token types are not empty. -/
private theorem ne_nil (h : TypeWord word type) : word ≠ [] := by
  cases h <;> decide

/-- The types of all words fit into their field. -/
theorem toNat_lt (h : TypeWord word type) : type.bits.toNat < 0x8 := by
  cases h <;> decide

/-- A text does not start with words for two types, as all words begin with different letters. -/
private theorem type_eq (h : TypeWord word type) (hother : TypeWord other otherType)
    (hword : word <+: cs) (hotherWord : other <+: cs) : otherType = type := by
  -- Both words begin with the first character of the text.
  have hletters : other.head? = word.head? := by
    obtain ⟨rest, rfl⟩ := hword
    obtain ⟨otherRest, heq⟩ := hotherWord
    have hheads := congrArg List.head? heq
    rwa [List.head?_append_of_ne_nil _ hother.ne_nil, List.head?_append_of_ne_nil _ h.ne_nil]
      at hheads
  cases h <;> cases hother <;> first | rfl | exact absurd hletters (by decide)

end TypeWord

/-- A word for a type stands at a position of a text. -/
def TypeAt (cs : List Char) (position : Nat) (type : TokenType) : Prop :=
  ∃ word, TypeWord word type ∧ Text.StandsAt word cs position

namespace TypeAt

variable {cs : List Char} {position : Nat} {type otherType : TokenType}

/-- At one position there is one type. -/
private theorem type_eq (h : TypeAt cs position type) (hother : TypeAt cs position otherType) :
    otherType = type := by
  obtain ⟨word, hword, hstands⟩ := h
  obtain ⟨other, hotherWord, hotherStands⟩ := hother
  exact hword.type_eq hotherWord hstands.occurs hotherStands.occurs

/-- No word stands at the end of a text. -/
private theorem lt_length (h : TypeAt cs position type) : position < cs.length := by
  obtain ⟨word, hword, hstands⟩ := h
  -- The word lies within what is left of the text, and has a character at least.
  have hle := hstands.occurs.length_le
  have hpos := List.length_pos_iff.2 hword.ne_nil
  rw [List.length_drop] at hle
  omega

end TypeAt

/-- The type of the first word that stands in a text from a position on. -/
def FirstFrom (cs : List Char) (start : Nat) (type : TokenType) : Prop :=
  ∃ position, IsLeast {position | start ≤ position ∧ ∃ other, TypeAt cs position other} position ∧
    TypeAt cs position type

/-- The first word stands at the position itself, or it is the first one behind the position. -/
private theorem firstFrom_iff {cs : List Char} {start : Nat} {type : TokenType} :
    FirstFrom cs start type ↔ TypeAt cs start type ∨
      ((∀ other, ¬ TypeAt cs start other) ∧ FirstFrom cs (start + 1) type) := by
  constructor
  · rintro ⟨position, ⟨⟨hle, -⟩, hleast⟩, htype⟩
    -- The first word stands at the position, or there is none and it stands behind it.
    rcases Nat.eq_or_lt_of_le hle with rfl | hlt
    · exact .inl htype
    · right
      refine ⟨fun other hother => ?_, position, ⟨⟨hlt, type, htype⟩, ?_⟩, htype⟩
      · -- A word at the position itself would be earlier.
        have hnot := hleast ⟨Nat.le_refl start, other, hother⟩
        omega
      · rintro earlier ⟨hstart, hearlier⟩
        exact hleast ⟨Nat.le_of_lt hstart, hearlier⟩
  · rintro (htype | ⟨hnone, position, ⟨⟨hle, -⟩, hleast⟩, htype⟩)
    · -- A word at the position itself is before all others.
      exact ⟨start, ⟨⟨Nat.le_refl start, type, htype⟩, fun _ h => h.1⟩, htype⟩
    · refine ⟨position, ⟨⟨by omega, type, htype⟩, ?_⟩, htype⟩
      rintro earlier ⟨hstart, other, hother⟩
      rcases Nat.eq_or_lt_of_le hstart with rfl | hlt
      · exact absurd hother (hnone other)
      · exact hleast ⟨hlt, other, hother⟩

/-! ## Reading a text -/

section Reading

variable {before rest : List Char} {type : TokenType}

/-- Only a word that stands where a text is cut is found there. -/
private theorem typeAt_of_typeAtStart? (h : typeAtStart? before.getLast? rest = some type) :
    TypeAt (before ++ rest) before.length type := by
  unfold typeAtStart? at h
  split at h
  · rename_i hstarts
    -- Some word of the table goes from a boundary to a boundary.
    obtain ⟨⟨word, wordType⟩, hmem, hfound⟩ := List.exists_of_findSome?_eq_some h
    have hword := TypeWord.mem_typeWords_iff.1 hmem
    dsimp only at hfound
    split at hfound
    · rename_i after hafter
      obtain ⟨hends, heq⟩ := Option.ite_none_right_eq_some.1 hfound
      obtain rfl := Option.some.inj heq
      exact ⟨word, hword,
        (Text.standsAt_length_iff hword.ne_nil).2 ⟨hstarts, after, hafter, hends⟩⟩
    · cases hfound
  · cases h

/-- Where a word stands something is found. -/
private theorem typeAtStart?_ne_none (h : TypeAt (before ++ rest) before.length type) :
    typeAtStart? before.getLast? rest ≠ none := by
  obtain ⟨word, hword, hstands⟩ := h
  obtain ⟨hstarts, after, hafter, hends⟩ := (Text.standsAt_length_iff hword.ne_nil).1 hstands
  intro hnone
  rw [typeAtStart?, if_pos hstarts, List.findSome?_eq_none_iff] at hnone
  simpa [hafter, hends] using hnone _ (TypeWord.mem_typeWords_iff.2 hword)

/-- Where a text is cut the type of the word is found that stands there. -/
theorem typeAtStart?_eq_some_iff :
    typeAtStart? before.getLast? rest = some type ↔ TypeAt (before ++ rest) before.length type := by
  constructor
  · exact typeAt_of_typeAtStart?
  · intro h
    obtain ⟨found, hfound⟩ := Option.ne_none_iff_exists'.1 (typeAtStart?_ne_none h)
    rw [hfound, h.type_eq (typeAt_of_typeAtStart? hfound)]

/-- Where a text is cut nothing is found if no word stands there. -/
private theorem typeAtStart?_eq_none_iff :
    typeAtStart? before.getLast? rest = none ↔
      ∀ type, ¬ TypeAt (before ++ rest) before.length type := by
  simp only [Option.eq_none_iff_forall_not_mem, Option.mem_def, typeAtStart?_eq_some_iff]

/-- One step further the character that was read is the one in front. -/
private theorem firstType?_cons (before rest : List Char) (c : Char) :
    firstType? before.getLast? (c :: rest) =
      (typeAtStart? before.getLast? (c :: rest)).or
        (firstType? (before ++ [c]).getLast? rest) := by
  -- The text that was read ends with the character.
  rw [List.getLast?_concat, firstType?]

/-- From where a text is cut on the type of the first word is found. -/
theorem firstType?_eq_some_iff :
    firstType? before.getLast? rest = some type ↔
      FirstFrom (before ++ rest) before.length type := by
  -- The induction is on what is still to be read, behind any text that was read already.
  induction rest generalizing before with
  | nil =>
    rw [firstType?, List.append_nil]
    refine ⟨nofun, fun ⟨position, hleast, htype⟩ => ?_⟩
    -- Nothing is left to be read, so no word can stand there.
    have hle := hleast.1.1
    have hlt := htype.lt_length
    omega
  | cons c rest ih =>
    have hlength : (before ++ [c]).length = before.length + 1 := by simp
    rw [firstType?_cons, Option.or_eq_some_iff, typeAtStart?_eq_some_iff, typeAtStart?_eq_none_iff,
      ih, List.append_assoc, List.singleton_append, hlength, ← firstFrom_iff]

/-- Nothing is found if from where a text is cut on no word stands in it. -/
theorem firstType?_eq_none_iff :
    firstType? before.getLast? rest = none ↔
      ∀ position, before.length ≤ position → ∀ type, ¬ TypeAt (before ++ rest) position type := by
  induction rest generalizing before with
  | nil =>
    rw [firstType?, List.append_nil]
    refine ⟨fun _ position hle type htype => ?_, fun _ => rfl⟩
    have hlt := htype.lt_length
    omega
  | cons c rest ih =>
    have hlength : (before ++ [c]).length = before.length + 1 := by simp
    rw [firstType?_cons, Option.or_eq_none_iff, typeAtStart?_eq_none_iff, ih, List.append_assoc,
      List.singleton_append, hlength]
    constructor
    · -- A position is the one at the cut, or one behind the next character.
      rintro ⟨hhere, hlater⟩ position hle
      rcases Nat.eq_or_lt_of_le hle with rfl | hlt
      · exact hhere
      · exact hlater position hlt
    · intro h
      exact ⟨h _ (Nat.le_refl _), fun position hlt => h position (Nat.le_of_lt hlt)⟩

end Reading

namespace ScopeName

variable {scope : ScopeName} {type : TokenType}

/-- A name is read from its start on, where no character stands in front. -/
theorem standardType?_eq_some_iff :
    scope.standardType? = some type ↔ FirstFrom scope.text.toList 0 type :=
  @firstType?_eq_some_iff [] scope.text.toList type

/-- A name has no type if no word stands in it. -/
private theorem standardType?_eq_none_iff :
    scope.standardType? = none ↔ ∀ position type, ¬ TypeAt scope.text.toList position type := by
  have hnone := @firstType?_eq_none_iff [] scope.text.toList
  simpa [standardType?] using hnone

end ScopeName

namespace Classifier

/-- Whatever a classifier was asked before, the type of a scope is that of the word at the smallest
position of the name where a word for a type stands between boundaries, and there is none if no such
word stands in the name. -/
theorem tokenType_of_first_word (initial : Nat) (configuration : Configuration)
    (hinitial : initial ≤ maxLanguage)
    (hids : ∀ entry ∈ configuration.embeddedLanguages, entry.2 ≤ maxLanguage) :
    ∃ classifier, ofConfiguration initial configuration = .ok classifier ∧
      ∀ (calls : List ScopeName) (scope : ScopeName),
        let found := ((classifier.askAll calls).2.attributes scope).tokenType
        (∀ type, found = some type ↔ ∃ position,
          IsLeast {position | ∃ other, TypeAt scope.text.toList position other} position ∧
            TypeAt scope.text.toList position type) ∧
        (found = none ↔ ∀ position type, ¬ TypeAt scope.text.toList position type) := by
  have hmade := ofConfiguration_eq_ok_iff.2 ⟨outOfRange?_eq_none_iff.2 ⟨hinitial, hids⟩, rfl⟩
  refine ⟨_, hmade, fun calls scope => ?_⟩
  -- Earlier calls leave only plain answers behind.
  have hremembers := ((remembers_ofConfiguration hmade).askAll calls).2
  simp only [hremembers.attributes_eq, classify]
  refine ⟨fun type => ?_, ScopeName.standardType?_eq_none_iff⟩
  simp only [ScopeName.standardType?_eq_some_iff, FirstFrom, Nat.zero_le, true_and]

/-- A name with a word behind an underscore, one that goes on with letters, and one of two parts in
front of a last one. -/
def shadyName : ScopeName :=
  ⟨"_comment.stringify.meta.embedded.regex", by decide, by simp, by simp; decide⟩

/-- Of the words in the name only the last but one stands between boundaries and comes first. -/
theorem tokenType_of_embedded :
    ∃ classifier, ofConfiguration 0 .empty = .ok classifier ∧
      ((classifier.askAll [shadyName]).2.attributes shadyName).tokenType = some .other := by
  obtain ⟨classifier, hmade, hfirst⟩ :=
    tokenType_of_first_word 0 .empty (by decide) (by decide)
  refine ⟨classifier, hmade, ((hfirst [shadyName] shadyName).1 .other).2 ?_⟩
  -- The two words in front lack a boundary, and the last one comes too late.
  have hstands : TypeAt shadyName.text.toList 19 .other := ⟨_, .embedded, by decide⟩
  have hnone : ∀ entry ∈ typeWords, ∀ earlier < 19,
      ¬ Text.StandsAt entry.1 shadyName.text.toList earlier := by decide
  refine ⟨19, ⟨⟨_, hstands⟩, ?_⟩, hstands⟩
  rintro earlier ⟨other, word, hword, hearlier⟩
  by_contra hlt
  exact hnone _ (TypeWord.mem_typeWords_iff.2 hword) earlier (Nat.lt_of_not_ge hlt) hearlier

end Classifier

end Textmate
