import Textmate.Proofs.Stack.Sharing

/-!
# When stacks are the same

The comparison of two stacks walks their nodes and stops at the first one that they have in common.
Among the stacks of a program this comes to a comparison of what is in the nodes. So it does not
matter which nodes stacks have in common, and an operation comes to the same states when it starts
from the same ones.

## Key results

- `ScopeChain.same_iff`, `StateChain.same_iff`: a comparison in heaps comes to the one of contents
- `StateChain.Alike.push` and the others: what is the same stays the same through an operation
- `Stacks.lawfulEquality_run`: equality of the stacks of a program, whatever their history
- `Stacks.Sound.same_iff_plain`: equality of states with nodes is that of states without
-/

namespace Textmate

/-! ## Scope stacks -/

namespace ScopeChain

variable {a b : ScopeChain} {heap : Chain.Heap ScopeFrame} {bound : Nat}

/-- Stacks with the same frames are the same, whatever their nodes. -/
private theorem same_of_contents_eq (h : a.contents = b.contents) : a.same b = true :=
  Chain.sameNodes_of_keys_eq h

/-- In a heap, stacks are the same when they have the same frames. -/
theorem same_iff (ha : Chain.LiesIn heap bound a.nodes) (hb : Chain.LiesIn heap bound b.nodes) :
    a.same b = true ↔ a.contents = b.contents :=
  Chain.sameNodes_iff ha hb

/-- A hash is made of the frames and not of the nodes. -/
private theorem hashInput_eq (stack : ScopeChain) :
    stack.hashInput = stack.contents.map fun frame => (frame.scope.text, frame.metadata.bits) := by
  simp [hashInput, Chain.contents]

end ScopeChain

/-! ## State stacks -/

namespace StateChain

variable {a b : StateChain} {heap : Chain.Heap Level} {scopeHeap : Chain.Heap ScopeFrame}
variable {bound : Nat}

/-- What two states have in common if they are the same: the keys of their levels, from inside out,
and the innermost content scopes. -/
structure Alike (a b : StateChain) : Prop where
  keys_eq : a.contents.map Level.key = b.contents.map Level.key
  contentScopes_eq : a.frame.contentScopes.contents = b.frame.contentScopes.contents

/-- What two states have in common, as one statement. -/
private theorem alike_iff : Alike a b ↔ a.contents.map Level.key = b.contents.map Level.key ∧
    a.frame.contentScopes.contents = b.frame.contentScopes.contents :=
  ⟨fun h => ⟨h.keys_eq, h.contentScopes_eq⟩, fun h => ⟨h.1, h.2⟩⟩

/-- States that are alike are the same, whatever their nodes. -/
theorem same_of_alike (h : Alike a b) : a.same b = true := by
  have hnodes : Chain.sameNodes Level.key a.nodes b.nodes = true :=
    Chain.sameNodes_of_keys_eq (by simpa only [Chain.map_contents] using h.keys_eq)
  simp [same, hnodes, ScopeChain.same_of_contents_eq h.contentScopes_eq]

/-- In heaps of states and of scope stacks, states are the same when they are alike. -/
theorem same_iff (ha : Chain.LiesIn heap bound a.nodes) (hb : Chain.LiesIn heap bound b.nodes)
    (hascopes : Chain.LiesIn scopeHeap bound a.frame.contentScopes.nodes)
    (hbscopes : Chain.LiesIn scopeHeap bound b.frame.contentScopes.nodes) :
    a.same b = true ↔ Alike a b := by
  constructor
  · intro h
    simp only [same, Bool.or_eq_true, Bool.and_eq_true, beq_iff_eq] at h
    cases h with
    | inl hid =>
      -- The heap has one list of nodes at the number that the innermost nodes share.
      have hnodes : a.nodes = b.nodes := by
        show a.top :: a.below = b.top :: b.below
        rw [← ha.2.1, ← hb.2.1, hid]
      have htop : a.top = b.top := (List.cons.inj hnodes).1
      constructor
      · rw [Chain.contents, Chain.contents, hnodes]
      · rw [frame, frame, htop]
    -- Different numbers: the levels and the content scopes were compared.
    | inr hboth =>
      constructor
      · simpa only [Chain.map_contents] using (Chain.sameNodes_iff ha hb).1 hboth.1
      · exact (ScopeChain.same_iff hascopes hbscopes).1 hboth.2
  · exact same_of_alike

/-- A state is like itself. -/
private theorem Alike.refl (a : StateChain) : Alike a a :=
  ⟨rfl, rfl⟩

/-- Two states are alike in both directions. -/
private theorem Alike.symm (h : Alike a b) : Alike b a :=
  ⟨h.keys_eq.symm, h.contentScopes_eq.symm⟩

/-- What is like the same state is alike. -/
private theorem Alike.trans {c : StateChain} (h : Alike a b) (h' : Alike b c) : Alike a c :=
  ⟨h.keys_eq.trans h'.keys_eq, h.contentScopes_eq.trans h'.contentScopes_eq⟩

/-- The key of the innermost level. -/
private theorem Alike.key_eq (h : Alike a b) : a.top.content.key = b.top.content.key :=
  (List.cons.inj h.keys_eq).1

/-- States that are alike are equally deep. -/
private theorem Alike.depth_eq (h : Alike a b) : a.depth = b.depth :=
  congrArg (·.1) h.key_eq

/-- States that are alike end their innermost rule with the same pattern. -/
private theorem Alike.endRule_eq (h : Alike a b) : a.frame.endRule = b.frame.endRule :=
  congrArg (·.2.2) h.key_eq

/-- States that are alike feed a hash with the same. -/
private theorem Alike.hashInput_eq (h : Alike a b) : a.hashInput = b.hashInput := by
  -- The hash leaves the depth of each level out, which the keys have.
  have hkeys : (a.nodes.map fun node => (node.content.frame.rule, node.content.frame.endRule)) =
      b.nodes.map fun node => (node.content.frame.rule, node.content.frame.endRule) := by
    have hsnd := congrArg (List.map Prod.snd) h.keys_eq
    simpa [Chain.map_contents, Level.key, Function.comp_def] using hsnd
  simp [hashInput, h.depth_eq, hkeys, ScopeChain.hashInput_eq, h.contentScopes_eq]

/-- States that are alike stay so with the same frame pushed on both. -/
theorem Alike.push (h : Alike a b) (first second : Nat) (frame : StateFrame ScopeChain) :
    Alike (a.push first frame) (b.push second frame) where
  keys_eq := by simp [StateChain.push, Level.key, h.keys_eq, h.depth_eq]
  contentScopes_eq := rfl

/-- Frames with what counts in common are put in the place of the innermost ones. -/
private theorem Alike.replaceFrame (h : Alike a b) {first second : Nat}
    {frame other : StateFrame ScopeChain}
    (hrule : frame.rule = other.rule) (hend : frame.endRule = other.endRule)
    (hscopes : frame.contentScopes.contents = other.contentScopes.contents) :
    Alike (a.replaceFrame first frame) (b.replaceFrame second other) where
  keys_eq := by
    -- The levels around the innermost one stay.
    have hbelow := congrArg List.tail h.keys_eq
    simpa [StateChain.replaceFrame, Level.key, h.depth_eq, hrule, hend] using hbelow
  contentScopes_eq := hscopes

/-- States that are alike stay so with the same pattern. -/
private theorem Alike.withEndRule (h : Alike a b) (first second : Nat) (endRule : String) :
    Alike (a.withEndRule first endRule) (b.withEndRule second endRule) := by
  -- Both have the pattern already, or neither has it.
  unfold StateChain.withEndRule
  rw [h.endRule_eq]
  split
  · exact h
  · exact h.replaceFrame (congrArg (·.2.1) h.key_eq) rfl h.contentScopes_eq

/-- A state with other content scopes has these and the keys it had, also if the comparison found
that it has them already. -/
private theorem withContentScopes_spec {scopes : ScopeChain} (fresh : Nat)
    (hsame : a.frame.contentScopes.same scopes = true →
      a.frame.contentScopes.contents = scopes.contents) :
    (a.withContentScopes fresh scopes).contents.map Level.key = a.contents.map Level.key ∧
      (a.withContentScopes fresh scopes).frame.contentScopes.contents = scopes.contents := by
  unfold withContentScopes
  split
  · rename_i hfound
    exact ⟨rfl, hsame hfound⟩
  · exact ⟨rfl, rfl⟩

/-- States that are alike stay so with the same content scopes. -/
private theorem Alike.withContentScopes (h : Alike a b) (first second : Nat) {scopes : ScopeChain}
    (ha : a.frame.contentScopes.same scopes = true →
      a.frame.contentScopes.contents = scopes.contents)
    (hb : b.frame.contentScopes.same scopes = true →
      b.frame.contentScopes.contents = scopes.contents) :
    Alike (a.withContentScopes first scopes) (b.withContentScopes second scopes) := by
  obtain ⟨hakeys, hascopes⟩ := withContentScopes_spec first ha
  obtain ⟨hbkeys, hbscopes⟩ := withContentScopes_spec second hb
  constructor
  · rw [hakeys, hbkeys, h.keys_eq]
  · rw [hascopes, hbscopes]

/-- States that are alike stay so without places on the line. -/
private theorem Alike.clearPositions (h : Alike a b) (first second : Nat) :
    Alike (a.clearPositions first) (b.clearPositions second) where
  keys_eq := by
    simpa [StateChain.clearPositions, Function.comp_def] using h.keys_eq
  contentScopes_eq := h.contentScopes_eq

end StateChain

/-! ## The stacks of a program -/

namespace Stacks

variable {made : Stacks}

/-- Scope stacks of a program are the same when they have the same frames. -/
theorem Sound.path_same_iff (h : made.Sound) {a b : ScopeChain} (ha : a ∈ made.paths)
    (hb : b ∈ made.paths) : a.same b = true ↔ a.contents = b.contents := by
  obtain ⟨heap, hheap⟩ := h.paths_kept
  exact ScopeChain.same_iff (hheap a ha) (hheap b hb)

/-- The content scopes of a state are among the scope stacks of the program. -/
theorem Sound.contentScopes_mem (h : made.Sound) {state : StateChain}
    (hmem : state ∈ made.states) : state.frame.contentScopes ∈ made.paths :=
  (h.founded state hmem).tail.2.1

/-- States of a program are the same when they are alike. -/
private theorem Sound.state_same_iff (h : made.Sound) {a b : StateChain} (ha : a ∈ made.states)
    (hb : b ∈ made.states) : a.same b = true ↔ StateChain.Alike a b := by
  obtain ⟨heap, hheap⟩ := h.states_kept
  obtain ⟨scopeHeap, hscopeHeap⟩ := h.paths_kept
  -- Both content scopes lie in the heap of the scope stacks.
  have hascopes := hscopeHeap _ (h.contentScopes_mem ha)
  have hbscopes := hscopeHeap _ (h.contentScopes_mem hb)
  exact StateChain.same_iff (hheap a ha) (hheap b hb) hascopes hbscopes

/-- What equality is among the stacks of a program. The numbers of new nodes do not matter to it. -/
structure LawfulEquality (made : Stacks) : Prop where
  /-- Scope stacks are the same if they have the same scopes with the same metadata. -/
  path_same_iff : ∀ a ∈ made.paths, ∀ b ∈ made.paths,
    a.same b = true ↔ a.contents = b.contents
  /-- States are the same if they have the same depths, rules and patterns that end them, and their
  innermost content scopes are the same. -/
  state_same_iff : ∀ a ∈ made.states, ∀ b ∈ made.states,
    a.same b = true ↔ a.contents.map Level.key = b.contents.map Level.key ∧
      a.frame.contentScopes.contents = b.frame.contentScopes.contents
  path_equivalence : Equivalence fun a b : { path // path ∈ made.paths } => a.1.same b.1 = true
  state_equivalence :
    Equivalence fun a b : { state // state ∈ made.states } => a.1.same b.1 = true
  path_hashInput : ∀ a ∈ made.paths, ∀ b ∈ made.paths,
    a.same b = true → a.hashInput = b.hashInput
  state_hashInput : ∀ a ∈ made.states, ∀ b ∈ made.states,
    a.same b = true → a.hashInput = b.hashInput
  push : ∀ a ∈ made.states, ∀ b ∈ made.states, a.same b = true →
    ∀ first second frame, (a.push first frame).same (b.push second frame) = true
  withEndRule : ∀ a ∈ made.states, ∀ b ∈ made.states, a.same b = true →
    ∀ first second endRule,
      (a.withEndRule first endRule).same (b.withEndRule second endRule) = true
  withContentScopes : ∀ a ∈ made.states, ∀ b ∈ made.states, a.same b = true →
    ∀ first second, ∀ scopes ∈ made.paths,
      (a.withContentScopes first scopes).same (b.withContentScopes second scopes) = true
  clearPositions : ∀ a ∈ made.states, ∀ b ∈ made.states, a.same b = true →
    ∀ first second, (a.clearPositions first).same (b.clearPositions second) = true

/-- Being the same is an equivalence of the scope stacks of a program. -/
private theorem Sound.path_equivalence (h : made.Sound) :
    Equivalence fun a b : { path // path ∈ made.paths } => a.1.same b.1 = true where
  refl a := (h.path_same_iff a.2 a.2).2 rfl
  symm {a b} hab := (h.path_same_iff b.2 a.2).2 ((h.path_same_iff a.2 b.2).1 hab).symm
  trans {a b c} hab hbc := (h.path_same_iff a.2 c.2).2
    (((h.path_same_iff a.2 b.2).1 hab).trans ((h.path_same_iff b.2 c.2).1 hbc))

/-- Being the same is an equivalence of the states of a program. -/
private theorem Sound.state_equivalence (h : made.Sound) :
    Equivalence fun a b : { state // state ∈ made.states } => a.1.same b.1 = true where
  refl a := StateChain.same_of_alike (.refl a.1)
  symm {a b} hab := StateChain.same_of_alike ((h.state_same_iff a.2 b.2).1 hab).symm
  trans {a b c} hab hbc := StateChain.same_of_alike
    (((h.state_same_iff a.2 b.2).1 hab).trans ((h.state_same_iff b.2 c.2).1 hbc))

/-- Equality of the stacks of a program does not depend on their history. -/
theorem lawfulEquality_run (script : List StackStep) : (empty.run script).LawfulEquality := by
  have hsound : (empty.run script).Sound := sound_run sound_empty script
  -- Every part about states follows from what states that are the same have in common.
  have halike {a b : StateChain} (ha : a ∈ (empty.run script).states)
      (hb : b ∈ (empty.run script).states) (hsame : a.same b = true) : StateChain.Alike a b :=
    (hsound.state_same_iff ha hb).1 hsame
  constructor
  case path_same_iff =>
    intro a ha b hb
    exact hsound.path_same_iff ha hb
  case state_same_iff =>
    intro a ha b hb
    rw [hsound.state_same_iff ha hb, StateChain.alike_iff]
  case path_equivalence => exact hsound.path_equivalence
  case state_equivalence => exact hsound.state_equivalence
  case path_hashInput =>
    intro a ha b hb hsame
    rw [ScopeChain.hashInput_eq, ScopeChain.hashInput_eq, (hsound.path_same_iff ha hb).1 hsame]
  case state_hashInput =>
    intro a ha b hb hsame
    exact (halike ha hb hsame).hashInput_eq
  case push =>
    intro a ha b hb hsame first second frame
    exact StateChain.same_of_alike ((halike ha hb hsame).push first second frame)
  case withEndRule =>
    intro a ha b hb hsame first second endRule
    exact StateChain.same_of_alike ((halike ha hb hsame).withEndRule first second endRule)
  case withContentScopes =>
    intro a ha b hb hsame first second scopes hscopes
    -- Both states have content scopes of the program, so they compare with the new ones alike.
    have hascopes := hsound.path_same_iff (hsound.contentScopes_mem ha) hscopes
    have hbscopes := hsound.path_same_iff (hsound.contentScopes_mem hb) hscopes
    exact StateChain.same_of_alike
      ((halike ha hb hsame).withContentScopes first second hascopes.1 hbscopes.1)
  case clearPositions =>
    intro a ha b hb hsame first second
    exact StateChain.same_of_alike ((halike ha hb hsame).clearPositions first second)

def plainText : ScopeName := ⟨"text.plain", by decide, by simp, by simp; decide⟩

/-- Two states around which there is one node, at different places and each with scopes of its
own. -/
def commonNode : List StackStep :=
  [.path (.root plainText Metadata.none), .path (.root plainText Metadata.none),
    .state (.root 1 0),
    .state (.push 0 ⟨2, some 3, some 5, false, none, 0, 0⟩),
    .state (.push 0 ⟨2, none, none, true, none, 0, 1⟩)]

/-- Two states around a common node, with different frames and scopes, are the same. -/
theorem lawfulEquality_run_of_commonNode :
    ∃ a ∈ (empty.run commonNode).states, ∃ b ∈ (empty.run commonNode).states,
      a.top.id ≠ b.top.id ∧ a.below = b.below ∧ a.frame ≠ b.frame ∧ a.same b = true ∧
        a.hashInput = b.hashInput ∧ (a.withEndRule 7 "e").same (b.withEndRule 8 "e") = true := by
  have hlawful := lawfulEquality_run commonNode
  have hfirst := List.mem_of_getElem? (l := (empty.run commonNode).states) (i := 1) rfl
  have hsecond := List.mem_of_getElem? (l := (empty.run commonNode).states) (i := 2) rfl
  -- The rules and the content scopes are the same; where they were entered is not.
  have hsame := (hlawful.state_same_iff _ hfirst _ hsecond).2 ⟨rfl, rfl⟩
  refine ⟨_, hfirst, _, hsecond, by decide, rfl, ?_, hsame, ?_, ?_⟩
  · intro heq
    exact absurd (congrArg (·.entered) heq) (by decide)
  · exact hlawful.state_hashInput _ hfirst _ hsecond hsame
  · exact hlawful.withEndRule _ hfirst _ hsecond hsame 7 8 "e"

end Stacks

/-! ## Stacks without nodes -/

/-- Numbered levels have the same depths if they have the same rules. -/
private theorem Level.Founded.keys_eq_iff {paths : List ScopeChain} {as bs : List Level}
    (ha : Founded paths as) (hb : Founded paths bs) :
    as.map Level.key = bs.map Level.key ↔
      as.map (fun level => (level.frame.rule, level.frame.endRule)) =
        bs.map fun level => (level.frame.rule, level.frame.endRule) := by
  constructor
  · intro h
    have hsnd := congrArg (List.map Prod.snd) h
    simpa [Level.key, Function.comp_def] using hsnd
  · intro h
    induction as generalizing bs with
    | nil =>
      cases bs with
      | nil => rfl
      | cons b bs => simp at h
    | cons a as ih =>
      cases bs with
      | nil => simp at h
      | cons b bs =>
        obtain ⟨hkey, hrest⟩ := List.cons.inj h
        -- The depths are the numbers of the levels below, which are equally many.
        have hlength : as.length = bs.length := by simpa using congrArg List.length hrest
        have hdepth : a.depth = b.depth := by rw [ha.1, hb.1, hlength]
        simp only [Prod.mk.injEq] at hkey
        simp [Level.key, hdepth, hkey, ih ha.2.2 hb.2.2 hrest]

namespace Stacks

variable {made : Stacks} {a b : StateChain}

/-- The number of the innermost level is that of the frames. -/
theorem Sound.depth_plain (h : made.Sound) (ha : a ∈ made.states) :
    a.plain.depth = a.depth := by
  simp [(h.founded a ha).tail.1, StateStack.depth, StateStack.frames, StateChain.plain]

/-- Scopes that a state has already are the same without nodes. -/
theorem Sound.plain_withContentScopes (h : made.Sound) (ha : a ∈ made.states)
    {scopes : ScopeChain} (hscopes : scopes ∈ made.paths) (fresh : Nat) :
    (a.withContentScopes fresh scopes).plain = a.plain.withContentScopes scopes.plain := by
  unfold StateChain.withContentScopes
  split
  · rename_i hfound
    have hcontents := (h.path_same_iff (h.contentScopes_mem ha) hscopes).1 hfound
    -- The state stays as it is, which without nodes is to get the scopes that it has.
    have hplain : scopes.plain = a.plain.top.contentScopes :=
      (ScopeChain.plain_eq_plain_iff.2 hcontents).symm
    rw [hplain]
    rfl
  · rfl

/-- Equality of states in nodes is equality of the states without. -/
theorem Sound.same_iff_plain (h : made.Sound) (ha : a ∈ made.states) (hb : b ∈ made.states) :
    a.same b = true ↔ (a.plain == b.plain) = true := by
  -- The rules and patterns of the frames can be read off the levels.
  have hrules (state : StateChain) :
      (state.plain.frames.map fun frame => (frame.rule, frame.endRule)) =
        state.contents.map fun level => (level.frame.rule, level.frame.endRule) := by
    rw [StateChain.frames_plain, List.map_map]
    rfl
  have hkeys := (h.founded a ha).keys_eq_iff (h.founded b hb)
  have hscopes : a.plain.top.contentScopes = b.plain.top.contentScopes ↔
      a.frame.contentScopes.contents = b.frame.contentScopes.contents :=
    ScopeChain.plain_eq_plain_iff
  show _ ↔ (a.plain.identity == b.plain.identity) = true
  rw [h.state_same_iff ha hb, beq_iff_eq, StateStack.identity, StateStack.identity, Prod.mk.injEq,
    hrules, hrules, ← hkeys, hscopes, StateChain.alike_iff]

end Stacks

end Textmate
