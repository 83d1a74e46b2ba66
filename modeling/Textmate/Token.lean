import Textmate.Stack.State
import Textmate.Text.Bytes

/-!
# Tokens

What a tokenizer answers for a line: tokens with their scopes, or packed tokens, a list of words in
which offsets and metadata words alternate.
-/

namespace Textmate

/-- A token: a part of a line with the scopes around it, outermost first. -/
structure Token where
  start : Nat
  stop : Nat
  scopes : List ScopeName
  deriving DecidableEq

namespace Token

def length (token : Token) : Nat :=
  token.stop - token.start

/-- The text of the token in its line; empty when the line cannot be cut there. -/
def text (token : Token) (line : String) : String :=
  String.ofList ((Text.slice? token.start token.stop line.toList).getD [])

def toJson (token : Token) : Json :=
  .ofMembers [("start_index", .natural token.start), ("end_index", .natural token.stop),
    ("scopes", .strings (token.scopes.map (·.text)))]

end Token

/-- The pairs of offset and metadata in a list of packed tokens. A last word without a partner does
not count. -/
def unpackTokens : List UInt32 → List (Nat × Metadata)
  | offset :: word :: rest => (offset.toNat, ⟨word⟩) :: unpackTokens rest
  | _ => []

/-- The tokens of a line and the state behind it. -/
structure TokenizedLine where
  tokens : List Token
  /-- The state for the next line. -/
  state : StateStack
  /-- Whether the tokenizer ran out of time, so that the last token holds the rest of the line. -/
  stoppedEarly : Bool

/-- The packed tokens of a line and the state behind it. -/
structure PackedLine where
  /-- Offsets and metadata words in turn. -/
  words : List UInt32
  /-- The state for the next line. -/
  state : StateStack
  /-- Whether the tokenizer ran out of time, so that the last token holds the rest of the line. -/
  stoppedEarly : Bool

/-- There are half as many packed tokens as words. -/
theorem length_unpackTokens : (words : List UInt32) →
    (unpackTokens words).length = words.length / 2
  | [] => rfl
  | [_] => by simp [unpackTokens]
  | _ :: _ :: rest => by
    simp only [unpackTokens, List.length_cons, length_unpackTokens rest]
    omega

end Textmate
