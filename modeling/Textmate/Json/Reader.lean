import Textmate.Json.Token

/-!
# Reading documents

A document is put together from its tokens, one token at a time. The open arrays and objects around
the place that was reached are kept in a list, innermost first, and a `Position` says what may come
next.
-/

namespace Textmate.Document

open Json (Token)

/-- An array or an object whose end was not yet reached. Items and members stand in reverse
order. -/
inductive Enclosing where
  /-- An array with the items before this one. -/
  | array (items : List Document)
  /-- An object with the members before this one and the key of this one. -/
  | object (members : List (Option String × Document)) (key : Option String)

/-- What may come next. -/
inductive Position where
  | value
  /-- A value, or the end of the array that was just opened. -/
  | firstItem
  /-- A key after the members read so far; the object may end here if it has none. -/
  | key (members : List (Option String × Document)) (mayEnd : Bool)
  | colon (members : List (Option String × Document)) (key : Option String)
  | after (value : Document)

/-- The part of a document that was read: what encloses the place reached, and what may come
next. -/
abbrev Partial := List Enclosing × Position

/-- Reads a token where a value has to stand. -/
def value (open_ : List Enclosing) : Token → Option Partial
  | .null => some (open_, .after .null)
  | .bool b => some (open_, .after (.bool b))
  | .number n => some (open_, .after (.number n))
  | .string s => some (open_, .after (.string s))
  | .openArray => some (.array [] :: open_, .firstItem)
  | .openObject => some (open_, .key [] true)
  | _ => none

/-- Reads one token. -/
def step : Partial → Token → Option Partial
  | (open_, .value), token => value open_ token
  -- Only here an array may end where an item could stand.
  | (.array [] :: open_, .firstItem), .closeArray => some (open_, .after (.array []))
  | (open_, .firstItem), token => value open_ token
  | (open_, .key members _), .string key => some (open_, .colon members key)
  | (open_, .key [] true), .closeObject => some (open_, .after (.object []))
  | (open_, .colon members key), .colon => some (.object members key :: open_, .value)
  | (.array items :: open_, .after item), .comma => some (.array (item :: items) :: open_, .value)
  | (.array items :: open_, .after item), .closeArray =>
    some (open_, .after (.array (item :: items).reverse))
  | (.object members key :: open_, .after item), .comma =>
    some (open_, .key ((key, item) :: members) false)
  | (.object members key :: open_, .after item), .closeObject =>
    some (open_, .after (.object ((key, item) :: members).reverse))
  | _, _ => none

/-- The document that a list of tokens forms. -/
def ofTokens? (tokens : List Token) : Option Document :=
  match tokens.foldlM step ([], .value) with
  | some ([], .after document) => some document
  | _ => none

def parse? (text : String) : Option Document :=
  (Json.tokens? text.toList).bind ofTokens?

end Textmate.Document
