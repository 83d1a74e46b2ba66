import Textmate.Attributes

/-!
# Scope stacks

The scopes around a place in a text, each with the metadata in force once it was entered. A stack is
never empty: its *top* is the innermost scope, and the frames below it follow inside out. Two stacks
are equal when they have the same frames.
-/

namespace Textmate

/-- A scope with the metadata in force inside it. -/
structure ScopeFrame where
  scope : ScopeName
  metadata : Metadata
  deriving DecidableEq

/-- A scope stack. -/
structure ScopeStack where
  top : ScopeFrame
  /-- The scopes around it, from inside out. -/
  below : List ScopeFrame
  deriving DecidableEq

namespace ScopeStack

def frames (stack : ScopeStack) : List ScopeFrame :=
  stack.top :: stack.below

def root (scope : ScopeName) (metadata : Metadata) : ScopeStack :=
  ⟨⟨scope, metadata⟩, []⟩

/-- The stack of the scope of a grammar, with the language of the grammar. -/
def rootOf (classifier : Classifier) (scope : ScopeName) : ScopeStack :=
  root scope (Metadata.none.apply { Patch.empty with language := some classifier.root.language })

/-- The stack with a scope inside its innermost one. -/
def push (stack : ScopeStack) (scope : ScopeName) (metadata : Metadata) : ScopeStack :=
  ⟨⟨scope, metadata⟩, stack.frames⟩

def scopes (stack : ScopeStack) : List ScopeName :=
  (stack.frames.map (·.scope)).reverse

def metadata (stack : ScopeStack) : Metadata :=
  stack.top.metadata

/-- The stack with a scope inside its innermost one, whose metadata follows from the attributes of
the scope and from the selectors that match the whole path; a selector wins over the attributes. The
classifier remembers the attributes. -/
def entering (stack : ScopeStack) (classifier : Classifier) (scope : ScopeName) :
    ScopeStack × Classifier :=
  let (attributes, asked) := classifier.ask scope
  -- What the scope itself does not say is inherited from the innermost scope.
  let inherited := stack.metadata.apply attributes.toPatch
  let metadata := match asked.override? (stack.scopes ++ [scope]) with
    | none => inherited
    | some type => inherited.apply { Patch.empty with tokenType := some type }
  (stack.push scope metadata, asked)

def enter (stack : ScopeStack) (classifier : Classifier) (scope : ScopeName) : ScopeStack :=
  (stack.entering classifier scope).1

/-- The stack with several scopes inside its innermost one, from outside in. -/
def enteringAll (stack : ScopeStack) (classifier : Classifier) :
    List ScopeName → ScopeStack × Classifier
  | [] => (stack, classifier)
  | scope :: scopes =>
    let (next, asked) := stack.entering classifier scope
    next.enteringAll asked scopes

/-- The stack of the scope of a grammar and of scopes inside it, from outside in. -/
def ofPath (classifier : Classifier) (root : ScopeName) (inner : List ScopeName) : ScopeStack :=
  ((rootOf classifier root).enteringAll classifier inner).1

/-- The stack without its innermost scope, if others are left. -/
def parent? (stack : ScopeStack) : Option ScopeStack :=
  match stack.below with
  | [] => none
  | frame :: below => some ⟨frame, below⟩

def depth (stack : ScopeStack) : Nat :=
  stack.frames.length

/-- The scopes from outside in with blanks between them. -/
def display (stack : ScopeStack) : String :=
  Text.joinWith " " (stack.scopes.map (·.text))

/-- The scopes from outside in as a list of names. -/
def describe (stack : ScopeStack) : String :=
  "[" ++ Text.joinWith ", " (stack.scopes.map (·.describe)) ++ "]"

/-- What was pushed is what is left out again. -/
@[simp] theorem parent?_push (stack : ScopeStack) (scope : ScopeName) (metadata : Metadata) :
    (stack.push scope metadata).parent? = some stack := rfl

/-- Pushing a scope appends it to the path. -/
@[simp] theorem scopes_push (stack : ScopeStack) (scope : ScopeName) (metadata : Metadata) :
    (stack.push scope metadata).scopes = stack.scopes ++ [scope] := by
  simp [scopes, push, frames]

end ScopeStack

end Textmate
