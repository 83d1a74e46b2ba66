import Textmate.Proofs.Stack.Equality

/-!
# Depths of states

Each node of a state keeps the depth of its level and does not count what is around it. A level that
is put on top gets the next number, one that takes the place of another keeps its number, and
cleared levels keep theirs. So in all states of a program the levels are numbered from the outermost
one on, and the depth of a state is the number of its frames.

The operations on the innermost frame leave the nodes around it alone, so that what was pushed can
be popped again, and a changed frame stands where the old one was.

## Key results

- `Level.Founded.depths_eq`: the numbers of levels, from outside in
- `StateChain.changesTo_withEndRule`, `StateChain.changesTo_withContentScopes`: what is changed of a
  state along with its innermost frame
- `Stacks.layered_run`: depths and frames of the states of a program, whatever their history
-/

namespace Textmate

/-- The levels of a state are numbered from the outermost one on. -/
theorem Level.Founded.depths_eq {paths : List ScopeChain} {levels : List Level}
    (h : Founded paths levels) :
    (levels.map (·.depth)).reverse = List.range' 1 levels.length := by
  induction levels with
  | nil => rfl
  | cons level below ih =>
    -- The innermost level comes last in this order, with the number of all levels.
    have hnext : level.depth = 1 + below.length := by
      have := h.1
      omega
    rw [List.map_cons, List.reverse_cons, ih h.2.2, List.length_cons, List.range'_1_concat, hnext]

namespace StateChain

variable {state : StateChain}

/-- One state is another one with its innermost frame replaced and nothing else: it is as deep and
has the same nodes around the frame. -/
structure ChangesTo (state changed : StateChain) (frame : StateFrame ScopeChain) : Prop where
  frame_eq : changed.frame = frame
  depth_eq : changed.depth = state.depth
  below_eq : changed.below = state.below

/-- Replacing the innermost frame changes nothing else. -/
private theorem changesTo_replaceFrame (fresh : Nat) (state : StateChain)
    (frame : StateFrame ScopeChain) :
    state.ChangesTo (state.replaceFrame fresh frame) frame :=
  ⟨rfl, rfl, rfl⟩

/-- A state is itself with its own frame. -/
private theorem changesTo_self (state : StateChain) : state.ChangesTo state state.frame :=
  ⟨rfl, rfl, rfl⟩

/-- Of the innermost frame nothing changes but the pattern that ends it. -/
theorem changesTo_withEndRule (fresh : Nat) (state : StateChain) (endRule : String) :
    state.ChangesTo (state.withEndRule fresh endRule)
      { state.frame with endRule := some endRule } := by
  unfold withEndRule
  split
  · rename_i hsame
    -- The frame has the pattern already, so this is the same frame.
    rw [← hsame]
    exact state.changesTo_self
  · exact changesTo_replaceFrame fresh state _

/-- Of the innermost frame nothing changes but the content scopes. These may stay in the nodes in
which they are. -/
theorem changesTo_withContentScopes {scopes : ScopeChain} (fresh : Nat)
    (hsame : state.frame.contentScopes.same scopes = true →
      state.frame.contentScopes.contents = scopes.contents) :
    ∃ kept : ScopeChain, kept.contents = scopes.contents ∧
      state.ChangesTo (state.withContentScopes fresh scopes)
        { state.frame with contentScopes := kept } := by
  unfold withContentScopes
  split
  · rename_i hfound
    exact ⟨state.frame.contentScopes, hsame hfound, state.changesTo_self⟩
  · -- Other scopes come into a new frame.
    exact ⟨scopes, rfl, changesTo_replaceFrame fresh state _⟩

/-- A state whose depth is the number of its frames, and what the operations on the innermost frame
do to it. Scope stacks are those of a program, and the new nodes may have any numbers. -/
structure Layered (paths : List ScopeChain) (state : StateChain) : Prop where
  depth_eq : state.depth = state.contents.length
  one_le_depth : 1 ≤ state.depth
  /-- The depths of the frames from the outermost one to the innermost one. -/
  depths_eq : (state.contents.map (·.depth)).reverse = List.range' 1 state.depth
  /-- Popping gives back the state that was pushed on, with all of its nodes. -/
  parent?_push : ∀ fresh frame, (state.push fresh frame).parent? = some state
  withEndRule : ∀ fresh endRule, state.ChangesTo (state.withEndRule fresh endRule)
    { state.frame with endRule := some endRule }
  withContentScopes : ∀ fresh, ∀ scopes ∈ paths, ∃ kept : ScopeChain,
    kept.contents = scopes.contents ∧ state.ChangesTo (state.withContentScopes fresh scopes)
      { state.frame with contentScopes := kept }

end StateChain

namespace Stacks

variable {made : Stacks} {state : StateChain}

/-- The states of a sound program have the depth and the operations that they should. -/
private theorem Sound.layered (h : made.Sound) (hmem : state ∈ made.states) :
    state.Layered made.paths := by
  have hfounded : Level.Founded made.paths state.contents := h.founded state hmem
  have hlength : state.depth = state.contents.length := by
    rw [hfounded.tail.1]
    simp [Chain.contents, Chain.nodes]
  constructor
  case depth_eq => exact hlength
  case one_le_depth =>
    rw [hfounded.tail.1]
    omega
  case depths_eq =>
    rw [hlength]
    exact hfounded.depths_eq
  case parent?_push =>
    intro fresh frame
    rfl
  case withEndRule =>
    intro fresh endRule
    exact state.changesTo_withEndRule fresh endRule
  case withContentScopes =>
    intro fresh scopes hscopes
    -- Scopes that are the same as those of the frame have the same contents, which is all that is
    -- asked.
    have hsame := h.path_same_iff (h.contentScopes_mem hmem) hscopes
    exact StateChain.changesTo_withContentScopes fresh hsame.1

/-- The depth of a state of a program is the number of its frames, and each frame has the number of
those from the outermost one to itself. What is pushed on the state can be popped again, and another
pattern or other content scopes change the innermost frame in that and nothing else. -/
theorem layered_run (script : List StackStep) :
    ∀ state ∈ (empty.run script).states, state.Layered (empty.run script).paths := by
  intro state hmem
  have hsound : (empty.run script).Sound := sound_run sound_empty script
  exact hsound.layered hmem

/-- A state that comes from all ways to make a state, one after the other. -/
def everyStep : List StackStep :=
  [.path (.root plainText Metadata.none),
    .path (.push 0 ⟨"string.regexp", by decide, by simp, by simp; decide⟩ Metadata.none),
    .state (.root 1 0),
    .state (.push 0 ⟨2, some 3, none, false, none, 0, 0⟩),
    .state (.push 1 ⟨3, some 3, some 4, true, some "end", 0, 1⟩),
    .state (.withEndRule 2 "stop"),
    .state (.withContentScopes 3 0),
    .state (.clearPositions 4),
    .state (.push 5 ⟨4, some 0, none, false, none, 1, 1⟩),
    .state (.pop 6),
    .state (.safePop 7),
    .state (.push 8 ⟨5, none, none, false, none, 0, 1⟩)]

/-- A state of three frames after all operations, with its rules and its depths from inside out. -/
theorem layered_run_of_everyStep :
    ∃ state ∈ (empty.run everyStep).states,
      state.contents.map (·.frame.rule) = [5, 2, 1] ∧
        state.contents.map (·.depth) = [3, 2, 1] ∧
        state.Layered (empty.run everyStep).paths := by
  have hmem := List.mem_of_getElem? (l := (empty.run everyStep).states) (i := 9) rfl
  exact ⟨_, hmem, rfl, rfl, layered_run everyStep _ hmem⟩

end Stacks

end Textmate
