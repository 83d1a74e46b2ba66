import Textmate.Json.Basic

/-!
# Decoding documents

Readers of the parts that records are made of. A record is an object with known keys; a known key
that is repeated is an error, and so is a key without a value. Some records may also be written as
an array of their members in a fixed order.
-/

namespace Textmate.Document

/-- The members of an object in the order of the text. -/
abbrev Members := List (Option String × Document)

def string? : Document → Option String
  | .string s => s
  | _ => none

/-- A whole number that is not negative and lies below a bound. -/
def natural? (bound : Nat) : Document → Option Nat
  | .number (some n) => n.natural? bound
  | _ => none

def word? (document : Document) : Option Nat :=
  document.natural? UInt32.size

/-- An array of things that can be read. -/
def list? {α : Type} (read : Document → Option α) : Document → Option (List α)
  | .array items => items.mapM read
  | _ => none

/-- An object whose keys are free, with things that can be read; the last one of a key counts. -/
def dict? {α : Type} (read : Document → Option α) : Document → Option (List (String × α))
  | .object members =>
    let entry : Option String × Document → Option (String × α) :=
      fun (key, item) => do pure (← key, ← read item)
    (members.mapM entry).map Dict.ofList
  | _ => none

def option? {α : Type} (read : Document → Option α) : Document → Option (Option α)
  | .null => some none
  | document => (read document).map some

/-- The members of an object all of whose keys have a value. -/
def members : Document → Option Members
  | .object members => if members.all (·.1.isSome) then some members else none
  | _ => none

/-- The members of a record: an object, or an array of at least `least` members in the order of the
keys. -/
def record? (keys : List String) (least : Nat) : Document → Option Members
  | .array items =>
    if least ≤ items.length ∧ items.length ≤ keys.length then
      some ((keys.map some).zip items)
    else none
  | document => members document

namespace Members

/-- The document of a key that may be spelled in several ways, if it is there; nothing at all if
there are several. -/
def find (members : Members) (spellings : List String) : Option (Option Document) :=
  match members.filter fun (key, _) => spellings.any (some · = key) with
  | [] => some none
  | [(_, document)] => some (some document)
  | _ => none

def required {α : Type} (members : Members) (key : String) (read : Document → Option α) :
    Option α := do
  read (← (← members.find [key]))

/-- A member with a value for its absence. -/
def withDefault {α : Type} (members : Members) (key : String) (default : α)
    (read : Document → Option α) : Option α := do
  match ← members.find [key] with
  | none => pure default
  | some document => read document

/-- A member that may be absent or `null`. -/
def optional {α : Type} (members : Members) (key : String) (read : Document → Option α) :
    Option (Option α) :=
  members.withDefault key none (option? read)

end Members

end Textmate.Document
