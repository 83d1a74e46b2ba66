import Mathlib.Data.List.Forall2
import Mathlib.Data.Option.Defs
import Textmate.Proofs.Stack.Equality

/-!
# States without places on the line

At the end of a line the places on it lose their meaning, and the state that goes on to the next
line has none in any of its frames. Such a state is made of new nodes, from the outermost frame to
the innermost one, and is equal to the one it was made from, since places take no part in equality.

Clearing is done frame by frame and depends on nothing around a frame. So it does not matter whether
a state is cleared before or after frames are left out of it or put into it, nor how often it is
cleared.

## Key results

- `StateChain.contents_clearPositions`: every level is cleared, at every depth
- `StateChain.sameLevels_of_contents_eq`: states with the same levels are equal for a program
- `Stacks.clearsPositions_run`: clearing the states of a program, whatever their history
-/

namespace Textmate

/-- The nodes around the innermost one are renewed in the same way as without it. -/
private theorem Chain.parent?_renew {α : Type} (fresh : Nat) (change : α → α) (chain : Chain α) :
    (chain.renew fresh change).parent? = chain.parent?.map (·.renew fresh change) := by
  -- The outer nodes get their numbers first, so these do not depend on the innermost node.
  obtain ⟨top, below⟩ := chain
  cases below <;> rfl

/-- A level has lost the places on the line, and has nothing else changed. -/
structure Level.ClearedTo (level cleared : Level) : Prop where
  depth_eq : cleared.depth = level.depth
  rule_eq : cleared.frame.rule = level.frame.rule
  entered_eq : cleared.frame.entered = none
  anchor_eq : cleared.frame.anchor = none
  tookLineEnd_eq : cleared.frame.tookLineEnd = level.frame.tookLineEnd
  endRule_eq : cleared.frame.endRule = level.frame.endRule
  nameScopes_eq : cleared.frame.nameScopes = level.frame.nameScopes
  contentScopes_eq : cleared.frame.contentScopes = level.frame.contentScopes

namespace Level

/-- Clearing takes the places on the line and nothing else. -/
private theorem clearedTo_clearPositions (level : Level) : level.ClearedTo level.clearPositions :=
  ⟨rfl, rfl, rfl, rfl, rfl, rfl, rfl, rfl⟩

/-- A cleared level has nothing left to clear. -/
@[simp] theorem clearPositions_clearPositions (level : Level) :
    level.clearPositions.clearPositions = level.clearPositions := rfl

end Level

namespace StateChain

variable {a b : StateChain}

/-- States that have the same levels, though in other nodes, and are equal for a program. -/
structure SameLevels (a b : StateChain) : Prop where
  contents_eq : a.contents = b.contents
  same : a.same b = true

/-- The same levels in other nodes make an equal state. -/
theorem sameLevels_of_contents_eq (h : a.contents = b.contents) : SameLevels a b := by
  have htop : a.top.content = b.top.content := (List.cons.inj h).1
  -- The innermost content scopes are those of the innermost level.
  have halike : Alike a b := by
    constructor
    · rw [h]
    · rw [frame, frame, htop]
  exact ⟨h, same_of_alike halike⟩

/-- Every level of a cleared state is cleared. -/
theorem contents_clearPositions (fresh : Nat) (state : StateChain) :
    (state.clearPositions fresh).contents = state.contents.map Level.clearPositions :=
  Chain.contents_renew fresh Level.clearPositions state

/-- A cleared state is as deep as before. -/
@[simp] theorem depth_clearPositions (fresh : Nat) (state : StateChain) :
    (state.clearPositions fresh).depth = state.depth := rfl

/-- Clearing a state leaves it equal. -/
private theorem alike_clearPositions (fresh : Nat) (state : StateChain) :
    Alike (state.clearPositions fresh) state where
  keys_eq := by
    rw [contents_clearPositions, List.map_map]
    -- Clearing changes no key, since keys have no places.
    exact List.map_congr_left fun level _ => level.key_clearPositions
  contentScopes_eq := rfl

/-- Every level of a cleared state is the cleared one of the state. -/
private theorem forall₂_clearedTo (fresh : Nat) (state : StateChain) :
    List.Forall₂ Level.ClearedTo state.contents (state.clearPositions fresh).contents := by
  rw [contents_clearPositions, List.forall₂_map_right_iff, List.forall₂_same]
  exact fun level _ => level.clearedTo_clearPositions

/-- It does not matter which nodes a cleared state gets. -/
private theorem sameLevels_clearPositions (first second : Nat) (state : StateChain) :
    SameLevels (state.clearPositions first) (state.clearPositions second) :=
  sameLevels_of_contents_eq (by rw [contents_clearPositions, contents_clearPositions])

/-- A cleared state has nothing left to clear. -/
private theorem sameLevels_clearPositions_twice (first second : Nat) (state : StateChain) :
    SameLevels (clearPositions second (state.clearPositions first)) (state.clearPositions first) :=
  sameLevels_of_contents_eq (by simp [contents_clearPositions, Function.comp_def])

/-- The state around the innermost frame of a cleared state is the cleared one around that frame. -/
private theorem rel_parent?_clearPositions (first second : Nat) (state : StateChain) :
    Option.Rel SameLevels (state.clearPositions first).parent?
      (state.parent?.map (clearPositions second)) := by
  rw [clearPositions, Chain.parent?_renew]
  -- Without a frame around it neither side has a state.
  cases state.parent? with
  | none => exact .none
  | some outer => exact .some (sameLevels_clearPositions first second outer)

/-- A frame may be left out before or after clearing, also where it is the last one. -/
private theorem sameLevels_safePop_clearPositions (first second : Nat) (state : StateChain) :
    SameLevels (state.clearPositions first).safePop (clearPositions second state.safePop) := by
  rw [safePop, safePop, clearPositions, Chain.parent?_renew]
  cases state.parent? with
  -- Without a frame around it the state stays, cleared with other numbers.
  | none => exact sameLevels_clearPositions first second state
  | some outer => exact sameLevels_clearPositions first second outer

/-- A frame is cleared along with the state that it is pushed on. -/
private theorem sameLevels_push_clearPositions (first second third fourth : Nat)
    (state : StateChain) (frame : StateFrame ScopeChain) :
    SameLevels ((state.clearPositions first).push second frame.clearPositions)
      ((state.push third frame).clearPositions fourth) := by
  apply sameLevels_of_contents_eq
  rw [contents_clearPositions, push, push, Chain.contents_push, Chain.contents_push,
    contents_clearPositions, List.map_cons, depth_clearPositions]
  rfl

/-- What clearing does to a state, and how it goes together with other operations. The new nodes may
have any numbers. -/
structure ClearsPositions (state : StateChain) : Prop where
  same : ∀ fresh, (state.clearPositions fresh).same state = true
  /-- The state is as deep as before, which is the number of its frames. -/
  depth_eq : ∀ fresh, (state.clearPositions fresh).depth = state.depth ∧
    (state.clearPositions fresh).depth = (state.clearPositions fresh).contents.length
  frames : ∀ fresh,
    List.Forall₂ Level.ClearedTo state.contents (state.clearPositions fresh).contents
  idempotent : ∀ first second,
    SameLevels ((state.clearPositions first).clearPositions second) (state.clearPositions first)
  parent? : ∀ first second, Option.Rel SameLevels (state.clearPositions first).parent?
    (state.parent?.map (StateChain.clearPositions second))
  safePop : ∀ first second,
    SameLevels (state.clearPositions first).safePop (state.safePop.clearPositions second)
  push : ∀ first second third fourth (frame : StateFrame ScopeChain),
    SameLevels ((state.clearPositions first).push second frame.clearPositions)
      ((state.push third frame).clearPositions fourth)

/-- A state whose innermost level has the number of its levels. -/
private theorem clearsPositions_of_depth_eq {state : StateChain}
    (hdepth : state.depth = state.contents.length) : state.ClearsPositions where
  same := fun fresh => same_of_alike (alike_clearPositions fresh state)
  depth_eq := fun fresh => ⟨rfl, by simpa [contents_clearPositions] using hdepth⟩
  frames := fun fresh => forall₂_clearedTo fresh state
  idempotent := fun first second => sameLevels_clearPositions_twice first second state
  parent? := fun first second => rel_parent?_clearPositions first second state
  safePop := fun first second => sameLevels_safePop_clearPositions first second state
  push := fun first second third fourth frame =>
    sameLevels_push_clearPositions first second third fourth state frame

end StateChain

namespace Stacks

/-- Clearing a state of a program leaves it equal and as deep as it was, takes the places on the
line from all of its frames and nothing else, and goes together with leaving frames out and putting
frames in, whatever the history of the state. -/
theorem clearsPositions_run (script : List StackStep) :
    ∀ state ∈ (empty.run script).states, state.ClearsPositions := by
  intro state hmem
  have hsound : (empty.run script).Sound := sound_run sound_empty script
  refine StateChain.clearsPositions_of_depth_eq ?_
  -- The number in the innermost node counts the nodes around it.
  rw [(hsound.founded state hmem).tail.1]
  simp [Chain.contents, Chain.nodes]

/-- A state of three frames, of which the two inner ones were entered on one line. -/
def innerFrames : List StackStep :=
  [.path (.root plainText Metadata.none),
    .path (.push 0 ⟨"string.quoted", by decide, by simp, by simp; decide⟩ Metadata.none),
    .state (.root 1 0),
    .state (.push 0 ⟨2, some 3, some 4, true, some "end", 0, 1⟩),
    .state (.push 1 ⟨3, some 5, none, false, none, 1, 1⟩)]

/-- Two frames of a state of three lose the places at which they were entered. -/
theorem clearsPositions_run_of_innerFrames :
    ∃ state ∈ (empty.run innerFrames).states,
      state.contents.map (·.frame.entered) = [some 5, some 3, none] ∧
        (state.clearPositions 9).contents.map (·.frame.entered) = [none, none, none] ∧
        state.ClearsPositions := by
  have hmem := List.mem_of_getElem? (l := (empty.run innerFrames).states) (i := 2) rfl
  exact ⟨_, hmem, rfl, rfl, clearsPositions_run innerFrames _ hmem⟩

end Stacks

end Textmate
