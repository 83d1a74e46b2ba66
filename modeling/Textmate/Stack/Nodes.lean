import Textmate.Stack.State

/-!
# Stacks in nodes

Stacks are kept as chains of nodes: each frame stands in a node, and the node knows the one around
it. A node never changes. So a stack that goes on from another one has the nodes of that stack in
common with it, and a frame that changes comes into a new node. A node is known by its number; a new
node gets a number that no other node has.

Two stacks are compared node by node, from inside out. From a node on that they have in common they
cannot differ, so the comparison ends there.

Main statements: what an operation does to a chain it does to the stack that the chain stands for
(`StateChain.plain_push` and the others). Content scopes are left as they are if the comparison
finds that they are there already, so a word on these needs to know which nodes there are.
-/

namespace Textmate

/-! ## Chains -/

/-- A node. -/
structure Chain.Node (α : Type) where
  /-- Number of the node. -/
  id : Nat
  content : α

/-- A node and those around it. -/
structure Chain (α : Type) where
  top : Chain.Node α
  /-- The nodes around it, from inside out. -/
  below : List (Chain.Node α)

namespace Chain

variable {α κ : Type}

def nodes (chain : Chain α) : List (Node α) :=
  chain.top :: chain.below

def contents (chain : Chain α) : List α :=
  chain.nodes.map (·.content)

/-- A chain of one new node. -/
def single (fresh : Nat) (content : α) : Chain α :=
  ⟨⟨fresh, content⟩, []⟩

/-- The chain with a new node inside. -/
def push (fresh : Nat) (chain : Chain α) (content : α) : Chain α :=
  ⟨⟨fresh, content⟩, chain.nodes⟩

/-- The chain with a new node in the place of the innermost one. -/
def replace (fresh : Nat) (chain : Chain α) (content : α) : Chain α :=
  ⟨⟨fresh, content⟩, chain.below⟩

/-- The chain without its innermost node, if others are left. -/
def parent? (chain : Chain α) : Option (Chain α) :=
  match chain.below with
  | [] => none
  | node :: below => some ⟨node, below⟩

/-- New nodes with changed contents, of which the outermost one is made first. -/
def renewNodes (fresh : Nat) (change : α → α) : List (Node α) → List (Node α)
  | [] => []
  | node :: below =>
    -- The outermost node gets the first number, and each one inside the next.
    ⟨fresh + below.length, change node.content⟩ :: renewNodes fresh change below

/-- The chain with a new node for every node. -/
def renew (fresh : Nat) (change : α → α) (chain : Chain α) : Chain α :=
  ⟨⟨fresh + chain.below.length, change chain.top.content⟩, renewNodes fresh change chain.below⟩

/-- Whether nodes have the same in what counts of their contents. -/
def sameNodes [DecidableEq κ] (key : α → κ) : List (Node α) → List (Node α) → Bool
  | [], [] => true
  | a :: as, b :: bs =>
    -- A common node has the same nodes around it in both chains.
    a.id == b.id || (key a.content == key b.content && sameNodes key as bs)
  | _, _ => false

/-- A property of the contents can be read off the nodes. -/
theorem map_contents {β : Type} (f : α → β) (chain : Chain α) :
    chain.contents.map f = chain.nodes.map fun node => f node.content := by
  simp [contents, Function.comp_def]

/-- A chain of one node has one content. -/
@[simp] theorem contents_single (fresh : Nat) (content : α) :
    (single fresh content).contents = [content] := rfl

/-- A new node puts its content in front. -/
@[simp] theorem contents_push (fresh : Nat) (chain : Chain α) (content : α) :
    (chain.push fresh content).contents = content :: chain.contents := rfl

/-- A new node in the place of the innermost one has its content in that place. -/
@[simp] theorem contents_replace (fresh : Nat) (chain : Chain α) (content : α) :
    (chain.replace fresh content).contents = content :: chain.contents.tail := rfl

/-- The nodes of a renewed chain are new ones, the innermost one included. -/
theorem nodes_renew (fresh : Nat) (change : α → α) (chain : Chain α) :
    (chain.renew fresh change).nodes = renewNodes fresh change chain.nodes := rfl

/-- The new nodes hold the changed contents. -/
theorem map_content_renewNodes (fresh : Nat) (change : α → α) (nodes : List (Node α)) :
    (renewNodes fresh change nodes).map (·.content) =
      nodes.map fun node => change node.content := by
  induction nodes with
  | nil => rfl
  | cons node below ih => simp [renewNodes, ih]

/-- A renewed chain has the changed contents. -/
@[simp] theorem contents_renew (fresh : Nat) (change : α → α) (chain : Chain α) :
    (chain.renew fresh change).contents = chain.contents.map change := by
  simp [contents, nodes_renew, map_content_renewNodes, Function.comp_def]

end Chain

/-! ## Scope stacks -/

/-- A scope stack in nodes. -/
abbrev ScopeChain := Chain ScopeFrame

namespace ScopeChain

def root (fresh : Nat) (scope : ScopeName) (metadata : Metadata) : ScopeChain :=
  Chain.single fresh ⟨scope, metadata⟩

def push (fresh : Nat) (stack : ScopeChain) (scope : ScopeName) (metadata : Metadata) :
    ScopeChain :=
  Chain.push fresh stack ⟨scope, metadata⟩

/-- Whether two stacks have the same scopes with the same metadata. -/
def same (a b : ScopeChain) : Bool :=
  Chain.sameNodes (fun frame : ScopeFrame => frame) a.nodes b.nodes

/-- What the hash of a stack is made of. -/
def hashInput (stack : ScopeChain) : List (String × UInt32) :=
  stack.nodes.map fun node => (node.content.scope.text, node.content.metadata.bits)

/-- The stack without its nodes. -/
def plain (stack : ScopeChain) : ScopeStack :=
  ⟨stack.top.content, stack.below.map (·.content)⟩

/-- A stack of one node is a stack of one scope. -/
@[simp] theorem plain_root (fresh : Nat) (scope : ScopeName) (metadata : Metadata) :
    (root fresh scope metadata).plain = .root scope metadata := rfl

/-- A new node is one more scope. -/
@[simp] theorem plain_push (fresh : Nat) (stack : ScopeChain) (scope : ScopeName)
    (metadata : Metadata) :
    (push fresh stack scope metadata).plain = stack.plain.push scope metadata := rfl

/-- The node around the innermost one is the scope around it. -/
theorem plain_parent? (stack : ScopeChain) : stack.parent?.map plain = stack.plain.parent? := by
  obtain ⟨top, below⟩ := stack
  cases below <;> rfl

/-- Stacks with the same frames are the same without their nodes. -/
theorem plain_eq_plain_iff {a b : ScopeChain} : a.plain = b.plain ↔ a.contents = b.contents := by
  simp [plain, Chain.contents, Chain.nodes]

end ScopeChain

/-! ## State stacks -/

/-- What a node of a state stack holds. -/
structure Level where
  /-- How many frames there are from the outermost one to this one. -/
  depth : Nat
  frame : StateFrame ScopeChain

/-- What two levels have in common in states that are the same. -/
def Level.key (level : Level) : Nat × Nat × Option String :=
  (level.depth, level.frame.rule, level.frame.endRule)

/-- The level without places on the line. -/
def Level.clearPositions (level : Level) : Level :=
  { level with frame := level.frame.clearPositions }

/-- Places on the line have no part in the depth. -/
@[simp] theorem Level.depth_clearPositions (level : Level) :
    level.clearPositions.depth = level.depth := rfl

/-- Places on the line have no part in what is compared. -/
@[simp] theorem Level.key_clearPositions (level : Level) :
    level.clearPositions.key = level.key := rfl

/-- A state stack in nodes. -/
abbrev StateChain := Chain Level

namespace StateChain

def depth (state : StateChain) : Nat :=
  state.top.content.depth

/-- The innermost frame. -/
def frame (state : StateChain) : StateFrame ScopeChain :=
  state.top.content.frame

/-- The state at the start of a text. -/
def root (fresh rule : Nat) (scopes : ScopeChain) : StateChain :=
  Chain.single fresh ⟨1, .ofRule rule scopes⟩

def push (fresh : Nat) (state : StateChain) (frame : StateFrame ScopeChain) : StateChain :=
  Chain.push fresh state ⟨state.depth + 1, frame⟩

/-- The state outside the innermost rule, or the same state if there is no other rule. -/
def safePop (state : StateChain) : StateChain :=
  state.parent?.getD state

/-- The state with another innermost frame. -/
def replaceFrame (fresh : Nat) (state : StateChain) (frame : StateFrame ScopeChain) : StateChain :=
  Chain.replace fresh state ⟨state.depth, frame⟩

/-- The state with a pattern that ends the innermost rule. It is the same one if it has the pattern
already. -/
def withEndRule (fresh : Nat) (state : StateChain) (endRule : String) : StateChain :=
  -- No node is made where nothing changes.
  if state.frame.endRule = some endRule then state
  else state.replaceFrame fresh { state.frame with endRule := some endRule }

/-- The state with content scopes of the innermost rule. It is the same one if it has them
already. -/
def withContentScopes (fresh : Nat) (state : StateChain) (scopes : ScopeChain) : StateChain :=
  if state.frame.contentScopes.same scopes then state
  else state.replaceFrame fresh { state.frame with contentScopes := scopes }

/-- The state at the end of a line, without places on it. -/
def clearPositions (fresh : Nat) (state : StateChain) : StateChain :=
  state.renew fresh Level.clearPositions

/-- Whether two states are the same for a tokenizer. -/
def same (a b : StateChain) : Bool :=
  -- States with a common innermost node are one state.
  a.top.id == b.top.id ||
    (Chain.sameNodes Level.key a.nodes b.nodes && a.frame.contentScopes.same b.frame.contentScopes)

/-- What the hash of a state is made of. -/
def hashInput (state : StateChain) :
    Nat × List (Nat × Option String) × List (String × UInt32) :=
  -- The places on the line are left out, as they are when states are compared.
  (state.depth, state.nodes.map fun node => (node.content.frame.rule, node.content.frame.endRule),
    state.frame.contentScopes.hashInput)

/-- A level without nodes. The depth goes without saying there. -/
def plainFrame (level : Level) : StateFrame ScopeStack :=
  level.frame.withScopes level.frame.nameScopes.plain level.frame.contentScopes.plain

/-- The state without its nodes. -/
def plain (state : StateChain) : StateStack :=
  ⟨plainFrame state.top.content, state.below.map fun node => plainFrame node.content⟩

/-- The frames are those of the levels. -/
theorem frames_plain (state : StateChain) : state.plain.frames = state.contents.map plainFrame := by
  simp [plain, StateStack.frames, Chain.contents, Chain.nodes]

/-- A state of one node is the state at the start of a text. -/
@[simp] theorem plain_root (fresh rule : Nat) (scopes : ScopeChain) :
    (root fresh rule scopes).plain = .root rule scopes.plain := rfl

/-- A new node is one more frame. -/
@[simp] theorem plain_push (fresh : Nat) (state : StateChain) (frame : StateFrame ScopeChain) :
    (push fresh state frame).plain = state.plain.push
      (frame.withScopes frame.nameScopes.plain frame.contentScopes.plain) := rfl

/-- The node around the innermost one is the frame around it. -/
theorem plain_parent? (state : StateChain) : state.parent?.map plain = state.plain.pop? := by
  obtain ⟨top, below⟩ := state
  cases below <;> rfl

/-- The last frame stays in both forms. -/
theorem plain_safePop (state : StateChain) : state.safePop.plain = state.plain.safePop := by
  obtain ⟨top, below⟩ := state
  cases below <;> rfl

/-- Leaving a node that has the pattern is the same as setting the pattern again. -/
theorem plain_withEndRule (fresh : Nat) (state : StateChain) (endRule : String) :
    (state.withEndRule fresh endRule).plain = state.plain.withEndRule endRule := by
  unfold withEndRule
  split
  · rename_i hsame
    -- The pattern is there already, so that the plain state does not change either.
    simp [plain, StateStack.withEndRule, plainFrame, StateFrame.withScopes, ← hsame, frame]
  · rfl

/-- A level loses its places on the line with those of its frame. -/
@[simp] theorem plainFrame_clearPositions (level : Level) :
    plainFrame level.clearPositions = (plainFrame level).clearPositions := rfl

/-- New nodes for all levels are frames without places on the line. -/
theorem plain_clearPositions (fresh : Nat) (state : StateChain) :
    (state.clearPositions fresh).plain = state.plain.clearPositions := by
  -- The numbers of the new nodes do not show in the plain frames.
  have hbelow : (Chain.renewNodes fresh Level.clearPositions state.below).map
      (fun node => plainFrame node.content) =
      state.below.map fun node => (plainFrame node.content).clearPositions := by
    have hcontents := Chain.map_content_renewNodes fresh Level.clearPositions state.below
    simpa [Function.comp_def] using congrArg (List.map plainFrame) hcontents
  simp [plain, clearPositions, Chain.renew, StateStack.clearPositions, hbelow, Function.comp_def]

end StateChain

end Textmate
