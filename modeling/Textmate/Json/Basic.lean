import Textmate.Dict
import Textmate.Json.Number

/-!
# Values and documents

`Json` is the type of values. A `Document` is what a text says before it is given a value: members
of an object in the order of the text, repeated keys included, and numbers and strings that have no
value, because they are too large or name half of a character, in their places. So a reader that
needs only one member of an object can ignore what stands in the others.
-/

namespace Textmate

/-- A value. The members of an object are a dictionary. -/
inductive Json where
  | null
  | bool (value : Bool)
  | number (value : Json.Number)
  | string (value : String)
  | array (items : List Json)
  | object (members : List (String × Json))
  deriving Repr, BEq, Inhabited

namespace Json

def natural (n : Nat) : Json := .number (.whole n)

def strings (items : List String) : Json := .array (items.map .string)

/-- The object of a list of members; of several members of one key the last one counts. -/
def ofMembers (members : List (String × Json)) : Json := .object (Dict.ofList members)

def ofOption {α : Type} (toJson : α → Json) : Option α → Json
  | none => .null
  | some a => toJson a

end Json

/-- What a text says. -/
inductive Document where
  | null
  | bool (value : Bool)
  /-- A number, without a value if it is too large. -/
  | number (value : Option Json.Number)
  /-- A string, without a value if it names half of a character. -/
  | string (value : Option String)
  | array (items : List Document)
  /-- An object with its members in the order of the text. -/
  | object (members : List (Option String × Document))
  deriving Repr, Inhabited

namespace Document

mutual

/-- The value of a document, if all its parts have one; the last member of a key counts. -/
def value? : Document → Option Json
  | .null => some .null
  | .bool b => some (.bool b)
  | .number n => n.map .number
  | .string s => s.map .string
  | .array items => (values? items).map .array
  | .object members => (members? members).map .ofMembers

/-- The values of the items of an array. -/
def values? : List Document → Option (List Json)
  | [] => some []
  | item :: items =>
    match item.value?, values? items with
    | some v, some vs => some (v :: vs)
    | _, _ => none

/-- The values of the members of an object. -/
def members? : List (Option String × Document) → Option (List (String × Json))
  | [] => some []
  | (key, item) :: members =>
    match key, item.value?, members? members with
    | some k, some v, some vs => some ((k, v) :: vs)
    | _, _, _ => none

end

mutual

/-- How deep arrays and objects are nested. -/
def depth : Document → Nat
  | .array items => itemsDepth items + 1
  | .object members => membersDepth members + 1
  | _ => 0

def itemsDepth : List Document → Nat
  | [] => 0
  | item :: items => max item.depth (itemsDepth items)

def membersDepth : List (Option String × Document) → Nat
  | [] => 0
  | (_, item) :: members => max item.depth (membersDepth members)

end

mutual

/-- The document of a value. -/
def ofJson : Json → Document
  | .null => .null
  | .bool b => .bool b
  | .number n => .number (some n)
  | .string s => .string (some s)
  | .array items => .array (ofItems items)
  | .object members => .object (ofMembers members)

/-- The documents of the items of an array. -/
def ofItems : List Json → List Document
  | [] => []
  | item :: items => ofJson item :: ofItems items

/-- The documents of the members of an object. -/
def ofMembers : List (String × Json) → List (Option String × Document)
  | [] => []
  | (key, item) :: members => (some key, ofJson item) :: ofMembers members

end

end Document

end Textmate
