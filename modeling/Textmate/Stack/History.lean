import Textmate.Stack.Nodes

/-!
# Stacks with a history

All stacks that a program makes, one after another, from nothing or from those it made before. It
keeps all of them, and names them by their places in the order in which they were made. The stacks
have nodes in common as their history has it.
-/

namespace Textmate

/-- A way to make a scope stack. -/
inductive PathStep where
  | root (scope : ScopeName) (metadata : Metadata)
  | push (of : Nat) (scope : ScopeName) (metadata : Metadata)
  | parent (of : Nat)

/-- A way to make a state stack. In a frame to push, places stand for scope stacks. -/
inductive StateStep where
  | root (rule scopes : Nat)
  | push (of : Nat) (frame : StateFrame Nat)
  | pop (of : Nat)
  | safePop (of : Nat)
  | withEndRule (of : Nat) (endRule : String)
  | withContentScopes (of scopes : Nat)
  | clearPositions (of : Nat)

/-- A way to make a stack. -/
inductive StackStep where
  | path (step : PathStep)
  | state (step : StateStep)

/-- The stacks that a program made. -/
structure Stacks where
  /-- A number above those of all nodes. -/
  fresh : Nat
  paths : List ScopeChain
  states : List StateChain

namespace Stacks

def empty : Stacks :=
  ⟨0, [], []⟩

/-- The scope stack that a step makes, unless it starts from one that does not exist. -/
def path? (made : Stacks) : PathStep → Option ScopeChain
  | .root scope metadata => some (.root made.fresh scope metadata)
  | .push of scope metadata =>
    made.paths[of]?.map fun path => .push made.fresh path scope metadata
  | .parent of => made.paths[of]?.bind (·.parent?)

/-- A frame with scope stacks in the place of where they are. -/
def frame? (made : Stacks) (frame : StateFrame Nat) : Option (StateFrame ScopeChain) := do
  let nameScopes ← made.paths[frame.nameScopes]?
  let contentScopes ← made.paths[frame.contentScopes]?
  return frame.withScopes nameScopes contentScopes

/-- The state that a step makes, unless it starts from a stack that does not exist. -/
def state? (made : Stacks) : StateStep → Option StateChain
  | .root rule scopes => made.paths[scopes]?.map (.root made.fresh rule)
  | .push of frame => do
    let state ← made.states[of]?
    return state.push made.fresh (← made.frame? frame)
  | .pop of => made.states[of]?.bind (·.parent?)
  | .safePop of => made.states[of]?.map (·.safePop)
  | .withEndRule of endRule => made.states[of]?.map (·.withEndRule made.fresh endRule)
  | .withContentScopes of scopes => do
    let state ← made.states[of]?
    return state.withContentScopes made.fresh (← made.paths[scopes]?)
  | .clearPositions of => made.states[of]?.map (·.clearPositions made.fresh)

def addPath (made : Stacks) (path : ScopeChain) : Stacks :=
  { made with
    fresh := max made.fresh (path.top.id + 1)
    paths := made.paths ++ [path] }

def addState (made : Stacks) (state : StateChain) : Stacks :=
  { made with
    fresh := max made.fresh (state.top.id + 1)
    states := made.states ++ [state] }

/-- The stacks after one step more. A step that makes no stack leaves them as they are. -/
def perform (made : Stacks) : StackStep → Stacks
  | .path step => (made.path? step).elim made made.addPath
  | .state step => (made.state? step).elim made made.addState

def run (made : Stacks) : List StackStep → Stacks
  | [] => made
  | step :: script => (made.perform step).run script

end Stacks

end Textmate
