import Textmate.Scope.Name

/-!
# Scope selectors

A selector such as `source.js string` names scopes by where they stand. Its segments are starts of
scope names. It matches a path of scopes, outermost first, when its last segment starts the
innermost scope, and the other segments start scopes further out, in the same order.

The type keeps the last segment, the *target*, apart from the others, so a selector without segments
does not exist.

Main statement: the segments of a selector are words (`word_of_mem_segments`).
-/

namespace Textmate

/-- A selector. -/
structure Selector where
  /-- The segments for the outer scopes, outermost first. -/
  ancestors : List String
  /-- The segment for the innermost scope. -/
  target : String
  deriving Repr, DecidableEq

namespace Selector

def segments (selector : Selector) : List String :=
  selector.ancestors ++ [selector.target]

def ofSegments? (segments : List String) : Option Selector :=
  segments.getLast?.map fun target => ⟨segments.dropLast, target⟩

/-- The selector whose segments are the words of a text. -/
def parse? (text : String) : Option Selector :=
  ofSegments? ((Text.words text.toList).map String.ofList)

/-- The selectors between the commas of a text; parts without a word are left out. -/
def parseList (text : String) : List Selector :=
  (Text.splitString ',' text).filterMap parse?

def display (selector : Selector) : String :=
  Text.joinWith " " selector.segments

/-- Whether every segment finds its scope in the path, each behind the scope of the one before it.
Each segment takes the first scope that it starts. -/
def findsAll : List String → List ScopeName → Bool
  | [], _ => true
  | _ :: _, [] => false
  | segment :: segments, scope :: path =>
    -- The first scope that fits is as good as any later one.
    if scope.startsWith segment then findsAll segments path
    else findsAll (segment :: segments) path

/-- Whether the selector matches a path of scopes, outermost first. -/
def selects (selector : Selector) (path : List ScopeName) : Bool :=
  match path.getLast? with
  | none => false
  | some innermost =>
    -- The target has to fit the innermost scope, and the others may skip scopes.
    innermost.startsWith selector.target && findsAll selector.ancestors path.dropLast

/-- A selector has the segments it was made of. -/
theorem segments_of_ofSegments? {segments : List String} {selector : Selector}
    (h : ofSegments? segments = some selector) : selector.segments = segments := by
  obtain ⟨target, ht, rfl⟩ := Option.map_eq_some_iff.1 h
  simp only [Selector.segments]
  -- The target is the last segment, and the ancestors are those before it.
  obtain ⟨outer, rfl⟩ := List.getLast?_eq_some_iff.1 ht
  simp

/-- The segments of a selector that was read are not empty and hold no blank. -/
theorem word_of_mem_segments {text : String} {selector : Selector}
    (h : parse? text = some selector) {segment : String} (hs : segment ∈ selector.segments) :
    segment ≠ "" ∧ ∀ c ∈ segment.toList, Text.isBlank c = false := by
  rw [segments_of_ofSegments? h] at hs
  obtain ⟨word, hword, rfl⟩ := List.mem_map.1 hs
  have := Text.word_of_mem_words hword
  simpa using this

end Selector

end Textmate
