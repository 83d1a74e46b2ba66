import Textmate.Stack.Scopes

/-!
# State stacks

What a tokenizer takes from one line to the next: the rules that were entered and not yet left, each
with the places on the line where that happened, the text that ends it, and the scopes it brings.

Two states are the same for a tokenizer when they have the same *identity*: the rules, the texts
that end them, and the innermost content scopes. Places on the line do not belong to it.
-/

namespace Textmate

/-- A rule that was entered. Its scopes are stacks, or whatever stands for stacks. -/
structure StateFrame (Scopes : Type) where
  rule : Nat
  /-- Offset at which the rule was entered, as long as its line lasts. -/
  entered : Option Nat
  /-- Offset of the anchor of the rule's patterns, as long as its line lasts. -/
  anchor : Option Nat
  /-- Whether the text that began the rule reached the end of its line. -/
  tookLineEnd : Bool
  /-- The pattern that ends the rule, if it depends on the text that began it. -/
  endRule : Option String
  /-- The scopes of the rule as a whole. -/
  nameScopes : Scopes
  /-- The scopes of what the rule encloses. -/
  contentScopes : Scopes
  deriving DecidableEq

namespace StateFrame

variable {Scopes Other : Type}

/-- A rule without places on the line and with one stack of scopes. -/
def ofRule (rule : Nat) (scopes : Scopes) : StateFrame Scopes :=
  ⟨rule, none, none, false, none, scopes, scopes⟩

/-- The frame without its places on the line. -/
def clearPositions (frame : StateFrame Scopes) : StateFrame Scopes :=
  { frame with entered := none, anchor := none }

/-- The frame with other scopes in the place of its own. -/
def withScopes (frame : StateFrame Scopes) (nameScopes contentScopes : Other) : StateFrame Other :=
  { frame with nameScopes := nameScopes, contentScopes := contentScopes }

end StateFrame

/-- A state stack. -/
structure StateStack where
  top : StateFrame ScopeStack
  /-- The rules around it, from inside out. -/
  below : List (StateFrame ScopeStack)

namespace StateStack

def frames (state : StateStack) : List (StateFrame ScopeStack) :=
  state.top :: state.below

/-- The state at the start of a text. -/
def root (rule : Nat) (scopes : ScopeStack) : StateStack :=
  ⟨.ofRule rule scopes, []⟩

def push (state : StateStack) (frame : StateFrame ScopeStack) : StateStack :=
  ⟨frame, state.frames⟩

/-- The state outside the innermost rule, if it is not the only one. -/
def pop? (state : StateStack) : Option StateStack :=
  match state.below with
  | [] => none
  | frame :: below => some ⟨frame, below⟩

/-- The state outside the innermost rule, or the same state if there is no other rule. -/
def safePop (state : StateStack) : StateStack :=
  state.pop?.getD state

def depth (state : StateStack) : Nat :=
  state.frames.length

/-- The state with another pattern that ends the innermost rule. -/
def withEndRule (state : StateStack) (endRule : String) : StateStack :=
  { state with top := { state.top with endRule := some endRule } }

/-- The state with other content scopes of the innermost rule. -/
def withContentScopes (state : StateStack) (scopes : ScopeStack) : StateStack :=
  { state with top := { state.top with contentScopes := scopes } }

/-- The state at the end of a line, without places on it. -/
def clearPositions (state : StateStack) : StateStack :=
  -- The frames around the innermost rule lose their places as well.
  ⟨state.top.clearPositions, state.below.map (·.clearPositions)⟩

/-- Whether the rule of another state is among the frames that were entered where the other state
was, counted from inside out without a gap. An engine that would enter a rule a second time at one
place stops there. -/
def hasSameRule (state other : StateStack) : Bool :=
  -- Behind the first frame that was entered elsewhere nothing is looked at.
  (state.frames.takeWhile (·.entered = other.top.entered)).any (·.rule = other.top.rule)

/-- What two states have to share to be the same for a tokenizer: rules with the patterns that end
them, from inside out, and the innermost content scopes. -/
def identity (state : StateStack) : List (Nat × Option String) × ScopeStack :=
  -- Of the content scopes only the innermost count.
  (state.frames.map fun frame => (frame.rule, frame.endRule), state.top.contentScopes)

instance : BEq StateStack := ⟨fun a b => a.identity == b.identity⟩

def ruleText (rule : Nat) : String :=
  "#" ++ Text.decimal rule

/-- The depth, the rules from inside out and the innermost content scopes. -/
def describe (state : StateStack) : String :=
  let rules := state.frames.map fun frame => "\"" ++ ruleText frame.rule ++ "\""
  "StateStack \x7b depth: " ++ Text.decimal state.depth ++
    ", rules: [" ++ Text.joinWith ", " rules ++
    "], content_scopes: " ++ state.top.contentScopes.describe ++ " \x7d"

/-- Popping gives back what was pushed on. -/
@[simp] theorem pop?_push (state : StateStack) (frame : StateFrame ScopeStack) :
    (state.push frame).pop? = some state := rfl

/-- A frame makes the state one deeper. -/
@[simp] theorem depth_push (state : StateStack) (frame : StateFrame ScopeStack) :
    (state.push frame).depth = state.depth + 1 := rfl

/-- Places on the line do not belong to the identity of a state. -/
@[simp] theorem identity_clearPositions (state : StateStack) :
    state.clearPositions.identity = state.identity := by
  simp [identity, clearPositions, frames, StateFrame.clearPositions, Function.comp_def]

end StateStack

end Textmate
