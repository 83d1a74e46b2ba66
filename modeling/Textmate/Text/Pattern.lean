import Textmate.Text.Split

/-!
# Patterns of texts

A pattern stands for pieces of texts: a character, one of the two ends of a text, one pattern behind
another, one of two patterns. Several pieces from one place on may match, and then the order in
which they are tried decides: of two patterns the second one is tried when the first one fails, or
when what stands behind it fails.

A text becomes a pattern for itself when a backslash stands in front of each of its characters that
has a meaning of its own.

Main statements: a text with backslashes matches itself only (`ways_escape`), and of patterns that
are tried one after another all ways of an earlier one come first (`ways_firstOf`).
-/

namespace Textmate.Text

/-- A pattern. -/
inductive Pattern where
  /-- Matches everywhere, and no character. -/
  | empty
  /-- The start of the text. -/
  | start
  /-- The end of the text. -/
  | stop
  | literal (char : Char)
  /-- One pattern behind another. -/
  | both (first second : Pattern)
  /-- One of two patterns; the first one is tried first. -/
  | either (first second : Pattern)
  /-- A pattern whose piece of the text is kept. -/
  | group (inner : Pattern)
  deriving Repr, DecidableEq

namespace Pattern

/-- How far a pattern has come in a text. -/
structure Place where
  /-- The characters that lie behind, the last one first. -/
  before : List Char
  /-- The characters that lie ahead. -/
  ahead : List Char
  /-- The piece of the last group. -/
  kept : Option (List Char)
  deriving Repr, DecidableEq

/-- The places to which a pattern comes from a place on, in the order in which they are tried. -/
def ways : Pattern → Place → List Place
  | empty, place => [place]
  | start, place => if place.before.isEmpty then [place] else []
  | stop, place => if place.ahead.isEmpty then [place] else []
  | literal char, place =>
    match place.ahead with
    | [] => []
    | c :: cs => if c = char then [{ place with before := c :: place.before, ahead := cs }] else []
  -- Every way of the first pattern is gone on with before the next one is tried.
  | both first second, place => (first.ways place).flatMap second.ways
  | either first second, place => first.ways place ++ second.ways place
  | group inner, place =>
    (inner.ways place).map fun reached =>
      -- What is kept are the characters that have been passed since the group began.
      { reached with kept := some (place.ahead.take (place.ahead.length - reached.ahead.length)) }

/-- Where the first match ends that begins in a text behind some characters. -/
def firstFrom? (pattern : Pattern) (before : List Char) : List Char → Option Place
  -- Behind the last character there is still a place for a match.
  | [] => (pattern.ways ⟨before, [], none⟩).head?
  | c :: cs =>
    (pattern.ways ⟨before, c :: cs, none⟩).head?.or (pattern.firstFrom? (c :: before) cs)

/-- Where the first match in a text ends: of those that begin furthest to the left the one that is
tried first. -/
def first? (pattern : Pattern) (cs : List Char) : Option Place :=
  pattern.firstFrom? [] cs

/-- Several patterns, tried in order. -/
def firstOf (first : Pattern) : List Pattern → Pattern
  | [] => first
  | second :: others => either first (firstOf second others)

/-- The characters that have a meaning of their own in the text of a pattern. -/
def special : List Char :=
  ['\\', '.', '+', '*', '?', '(', ')', '|', '[', ']', '{', '}', '^', '$', '#', '&', '-', '~']

/-- The text of a pattern for a text. -/
def escape (cs : List Char) : List Char :=
  cs.flatMap fun c => if c ∈ special then ['\\', c] else [c]

/-- The pattern whose text has no characters with a meaning of their own but those behind a
backslash. -/
def ofEscaped : List Char → Pattern
  | [] => empty
  | '\\' :: c :: cs => both (literal c) (ofEscaped cs)
  | c :: cs => both (literal c) (ofEscaped cs)

/-- The place behind a piece of the text. -/
def Place.pass (place : Place) (piece ahead : List Char) : Place :=
  { place with before := piece.reverse ++ place.before, ahead := ahead }

/-- Passing nothing stays at the place. -/
@[simp] theorem Place.pass_nil (place : Place) : place.pass [] place.ahead = place := rfl

/-- A piece is passed from its first character on. -/
theorem Place.pass_cons (place : Place) (c : Char) (piece ahead between : List Char) :
    place.pass (c :: piece) ahead =
      Place.pass { place with before := c :: place.before, ahead := between } piece ahead := by
  simp [pass]

/-- A character and its backslash, if it has one, are read together. -/
theorem ofEscaped_escape_cons (c : Char) (cs : List Char) :
    ofEscaped (escape (c :: cs)) = both (literal c) (ofEscaped (escape cs)) := by
  by_cases h : c ∈ special
  · simp [escape, h, ofEscaped]
  · -- A character without a backslash is not a backslash itself.
    have hc : c ≠ '\\' := by
      rintro rfl
      exact h (by decide)
    have hescape : escape (c :: cs) = c :: escape cs := by simp [escape, h]
    rw [hescape]
    cases escape cs <;> simp [ofEscaped, hc]

/-- A text with backslashes matches itself only, and in one way. -/
theorem ways_escape (cs : List Char) (place : Place) :
    (ofEscaped (escape cs)).ways place =
      ((afterStart? cs place.ahead).map (place.pass cs)).toList := by
  induction cs generalizing place with
  | nil => simp [escape, ofEscaped, ways, afterStart?]
  | cons c cs ih =>
    rw [ofEscaped_escape_cons, ways, ways]
    cases hahead : place.ahead with
    | nil => simp [afterStart?]
    | cons d ds =>
      by_cases h : c = d
      · subst h
        -- Passing the text is passing its first character, and then the rest.
        have hpass : place.pass (c :: cs) =
            Place.pass { place with before := c :: place.before, ahead := ds } cs :=
          funext fun rest => place.pass_cons c cs rest ds
        simp [ih, afterStart?, hpass]
      · have h' : d ≠ c := fun e => h e.symm
        simp [afterStart?, h, h']

/-- Of several patterns the ways of an earlier one come first. -/
theorem ways_firstOf (first : Pattern) (others : List Pattern) (place : Place) :
    (firstOf first others).ways place = (first :: others).flatMap (·.ways place) := by
  induction others generalizing first with
  | nil => simp [firstOf]
  | cons second others ih =>
    rw [firstOf, ways, ih]
    rfl

end Pattern

end Textmate.Text
