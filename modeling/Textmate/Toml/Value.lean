import Textmate.Dict

/-!
# Values of TOML

A TOML text is a table, a dictionary of values. Numbers with a fraction, dates and times are kept as
they are written.
-/

namespace Textmate.Toml

/-- A value. The entries of a table are a dictionary. -/
inductive Value where
  | string (text : String)
  | integer (value : Int)
  /-- A number with a fraction or an exponent, or an infinity, or no number. -/
  | float (text : String)
  | boolean (value : Bool)
  /-- A date, a time, or both. -/
  | dateTime (text : String)
  | array (items : List Value)
  | table (entries : List (String × Value))
  deriving Repr, Inhabited

abbrev Entries := List (String × Value)

namespace Value

def string? : Value → Option String
  | string text => some text
  | _ => none

/-- A whole number that is not negative and lies below a bound. -/
def natural? (bound : Nat) : Value → Option Nat
  | integer (.ofNat n) => if n < bound then some n else none
  | _ => none

/-- The items of an array all of which can be read. -/
def list? {α : Type} (read : Value → Option α) : Value → Option (List α)
  | array items => items.mapM read
  | _ => none

/-- The entries of a table all of which can be read. -/
def dict? {α : Type} (read : Value → Option α) : Value → Option (List (String × α))
  | table entries => entries.mapM fun (key, value) => (read value).map (key, ·)
  | _ => none

end Value

namespace Entries

/-- The value of a key that may be absent; nothing at all if it cannot be read. -/
def optional {α : Type} (entries : Entries) (key : String) (read : Value → Option α) :
    Option (Option α) :=
  match Dict.find? key entries with
  | none => some none
  | some value => (read value).map some

end Entries

end Textmate.Toml
