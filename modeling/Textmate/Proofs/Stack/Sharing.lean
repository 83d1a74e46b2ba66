import Mathlib.Logic.Function.Basic
import Textmate.Stack.History

/-!
# Nodes in common

Two chains with a node of the same number are the same from there on, because all chains of a
program lie in one heap, and the heap tells by the number of a node what stands around it. What a
program makes is either there already, or new nodes on top of what is there; so the heap grows and
never changes. A comparison that ends at a common node misses nothing then.

## Key results

- `Chain.sameNodes_iff`: a comparison in a heap comes to the one of the contents
- `Chain.joins_push`, `Chain.joins_renew` and the others: what an operation makes may join what it
  was made from
- `Stacks.sound_perform`, `Stacks.sound_run`: the stacks of a program lie in a heap, and each state
  is built from its scope stacks
-/

namespace Textmate

namespace Chain

variable {α κ : Type} {bound : Nat} {chain outer : Chain α} {chains : List (Chain α)}

/-- What there is at each number: the node that has the number, with the nodes around it. -/
abbrev Heap (α : Type) := Nat → List (Node α)

variable {heap later : Heap α}

/-- Whether nodes lie in a heap, below a bound. -/
def LiesIn (heap : Heap α) (bound : Nat) : List (Node α) → Prop
  | [] => True
  | node :: below => node.id < bound ∧ heap node.id = node :: below ∧ LiesIn heap bound below

/-- A heap that has the same as another one below a bound. -/
def Grown (bound : Nat) (heap later : Heap α) : Prop :=
  ∀ id < bound, later id = heap id

/-- Nodes stay where they are as their heap grows. -/
private theorem LiesIn.grown {nodes : List (Node α)} {further : Nat} (h : LiesIn heap bound nodes)
    (hgrown : Grown bound heap later) (hle : bound ≤ further) : LiesIn later further nodes := by
  induction nodes with
  | nil => trivial
  | cons node below ih =>
    -- The number of the node is below the bound, where the heap has not changed.
    obtain ⟨hlt, hheap, hbelow⟩ := h
    have hkept : later node.id = node :: below := (hgrown _ hlt).trans hheap
    exact ⟨by omega, hkept, ih hbelow⟩

/-! ## Comparisons -/

section Comparisons

variable [DecidableEq κ] {key : α → κ} {as bs : List (Node α)}

/-- Nodes with the same keys are found to be the same, with nodes in common or without. -/
theorem sameNodes_of_keys_eq
    (h : (as.map fun node => key node.content) = bs.map fun node => key node.content) :
    sameNodes key as bs = true := by
  -- One node of both chains at a time; chains of different lengths are told apart at the shorter
  -- end.
  induction as generalizing bs with
  | nil =>
    cases bs with
    | nil => rfl
    | cons b bs => simp at h
  | cons a as ih =>
    cases bs with
    | nil => simp at h
    | cons b bs =>
      simp only [List.map_cons, List.cons.injEq] at h
      simp [sameNodes, h.1, ih h.2]

/-- In a heap a comparison finds out whether nodes have the same keys, although it ends at the first
node in common. -/
theorem sameNodes_iff (ha : LiesIn heap bound as) (hb : LiesIn heap bound bs) :
    sameNodes key as bs = true ↔
      (as.map fun node => key node.content) = bs.map fun node => key node.content := by
  constructor
  · intro h
    induction as generalizing bs with
    | nil =>
      cases bs with
      | nil => rfl
      | cons b bs => simp [sameNodes] at h
    | cons a as ih =>
      cases bs with
      | nil => simp [sameNodes] at h
      | cons b bs =>
        simp only [sameNodes, Bool.or_eq_true, Bool.and_eq_true, beq_iff_eq] at h
        cases h with
        | inl hid =>
          -- The heap has one list at the number that the nodes share.
          have hsame : a :: as = b :: bs := by rw [← ha.2.1, ← hb.2.1, hid]
          rw [hsame]
        | inr hkey =>
          have hrest := ih ha.2.2 hb.2.2 hkey.2
          -- Different numbers: the keys are compared, and the comparison goes on below.
          simp [hkey.1, hrest]
  · exact sameNodes_of_keys_eq

end Comparisons

/-! ## Growing heaps -/

/-- Whether chains lie in one heap below a bound. -/
def Kept (bound : Nat) (chains : List (Chain α)) : Prop :=
  ∃ heap, ∀ chain ∈ chains, LiesIn heap bound chain.nodes

/-- Whether a chain may join others: whatever heap those lie in grows to one that the chain lies in
too. -/
def Joins (bound : Nat) (chains : List (Chain α)) (chain : Chain α) : Prop :=
  ∀ heap, (∀ other ∈ chains, LiesIn heap bound other.nodes) →
    ∃ later, Grown bound heap later ∧ LiesIn later (max bound (chain.top.id + 1)) chain.nodes

/-- No chains lie in any heap. -/
private theorem kept_nil : Kept bound ([] : List (Chain α)) :=
  ⟨fun _ => [], by simp⟩

/-- Chains stay kept as more numbers are given out. -/
private theorem Kept.mono {further : Nat} (h : Kept bound chains) (hle : bound ≤ further) :
    Kept further chains := by
  obtain ⟨heap, hheap⟩ := h
  exact ⟨heap, fun chain hmem => (hheap chain hmem).grown (fun _ _ => rfl) hle⟩

/-- Chains stay kept along with one that joins them. -/
private theorem Kept.concat (h : Kept bound chains) (hjoins : Joins bound chains chain) :
    Kept (max bound (chain.top.id + 1)) (chains ++ [chain]) := by
  obtain ⟨heap, hheap⟩ := h
  -- The chain may need more nodes than there were; the old chains do not mind them.
  obtain ⟨later, hgrown, hchain⟩ := hjoins heap hheap
  refine ⟨later, fun other hmem => ?_⟩
  cases List.mem_append.1 hmem with
  | inl hold => exact (hheap other hold).grown hgrown (by omega)
  | inr hnew =>
    rw [List.mem_singleton.1 hnew]
    exact hchain

/-- A heap grows by a new node on top of nodes that lie in it. -/
private theorem LiesIn.new_node {below : List (Node α)} (h : LiesIn heap bound below)
    (content : α) :
    ∃ later, Grown bound heap later ∧ LiesIn later (bound + 1) (⟨bound, content⟩ :: below) := by
  -- The new number is the bound itself, so that nothing is overwritten below it.
  have hgrown : Grown bound heap (Function.update heap bound (⟨bound, content⟩ :: below)) := by
    intro id hlt
    exact Function.update_of_ne (by omega) _ _
  refine ⟨_, hgrown, by simp, ?_, h.grown hgrown (by omega)⟩
  exact Function.update_self bound _ heap

/-- A heap grows by new nodes for all nodes of a list. -/
private theorem exists_liesIn_renewNodes (heap : Heap α) (bound : Nat) (change : α → α)
    (nodes : List (Node α)) :
    ∃ later, Grown bound heap later ∧
      LiesIn later (bound + nodes.length) (renewNodes bound change nodes) := by
  induction nodes with
  | nil => exact ⟨heap, fun _ _ => rfl, trivial⟩
  | cons node below ih =>
    -- The nodes further out are there first, and the new one stands on top of them.
    obtain ⟨middle, hmiddle, hbelow⟩ := ih
    obtain ⟨later, hgrown, hnodes⟩ := hbelow.new_node (change node.content)
    refine ⟨later, fun id hlt => ?_, hnodes⟩
    rw [hgrown id (by omega), hmiddle id hlt]

/-- A new node on top of nodes that lie in the heap of the others. -/
private theorem joins_of_below {below : List (Node α)}
    (h : ∀ heap, (∀ other ∈ chains, LiesIn heap bound other.nodes) → LiesIn heap bound below)
    (content : α) : Joins bound chains ⟨⟨bound, content⟩, below⟩ := by
  intro heap hheap
  -- The number of the new node is the bound.
  have hmax : max bound (bound + 1) = bound + 1 := by omega
  show ∃ later, Grown bound heap later ∧ LiesIn later (max bound (bound + 1)) _
  rw [hmax]
  exact (h heap hheap).new_node content

/-- A chain that is there already joins the others. -/
private theorem joins_of_mem (hmem : chain ∈ chains) : Joins bound chains chain := by
  intro heap hheap
  exact ⟨heap, fun _ _ => rfl, (hheap chain hmem).grown (fun _ _ => rfl) (by omega)⟩

/-- A chain of one new node joins any others. -/
private theorem joins_single (content : α) : Joins bound chains (single bound content) :=
  joins_of_below (fun _ _ => by trivial) content

/-- A chain with a new node inside joins those that it was made from. -/
theorem joins_push (hmem : chain ∈ chains) (content : α) :
    Joins bound chains (chain.push bound content) :=
  joins_of_below (fun _ hheap => hheap chain hmem) content

/-- A chain with another innermost node joins those that it was made from. -/
private theorem joins_replace (hmem : chain ∈ chains) (content : α) :
    Joins bound chains (chain.replace bound content) :=
  joins_of_below (fun _ hheap => (hheap chain hmem).2.2) content

/-- The chain around the innermost node consists of the nodes below it. -/
private theorem nodes_of_parent? (h : chain.parent? = some outer) : chain.below = outer.nodes := by
  unfold parent? at h
  split at h
  · cases h
  · rename_i node below hbelow
    cases h
    exact hbelow

/-- The chain around the innermost node has all contents but the first. -/
private theorem contents_of_parent? (h : chain.parent? = some outer) :
    chain.contents = chain.top.content :: outer.contents := by
  simp [contents, nodes, nodes_of_parent? h]

/-- What is around the innermost node of a chain is there already. -/
private theorem joins_parent (hmem : chain ∈ chains) (h : chain.parent? = some outer) :
    Joins bound chains outer := by
  intro heap hheap
  -- A heap that has a chain has all that is below its innermost node.
  have hbelow : LiesIn heap bound chain.below := (hheap chain hmem).2.2
  rw [nodes_of_parent? h] at hbelow
  exact ⟨heap, fun _ _ => rfl, hbelow.grown (fun _ _ => rfl) (by omega)⟩

/-- A chain of new nodes joins any others. -/
theorem joins_renew (chain : Chain α) (change : α → α) :
    Joins bound chains (chain.renew bound change) := by
  intro heap _
  obtain ⟨later, hgrown, hnodes⟩ := exists_liesIn_renewNodes heap bound change chain.nodes
  -- The innermost node is made last and has the greatest number.
  have hlength : bound + chain.nodes.length = bound + chain.below.length + 1 := rfl
  have hle : bound + chain.nodes.length ≤ max bound (bound + chain.below.length + 1) := by omega
  exact ⟨later, hgrown, hnodes.grown (fun _ _ => rfl) hle⟩

end Chain

/-! ## The stacks of a program -/

/-- Whether levels are numbered from the outermost one on and have content scopes among known
stacks. -/
def Level.Founded (paths : List ScopeChain) : List Level → Prop
  | [] => True
  | level :: below =>
    level.depth = below.length + 1 ∧ level.frame.contentScopes ∈ paths ∧ Founded paths below

namespace Level.Founded

variable {paths : List ScopeChain} {level : Level} {levels : List Level}

/-- Levels stay founded as more stacks are known. -/
private theorem mono {further : List ScopeChain} (h : Founded paths levels)
    (hsub : ∀ path ∈ paths, path ∈ further) : Founded further levels := by
  induction levels with
  | nil => trivial
  | cons level below ih => exact ⟨h.1, hsub _ h.2.1, ih h.2.2⟩

/-- Depths and content scopes do not depend on places on the line. -/
private theorem clearPositions (h : Founded paths levels) :
    Founded paths (levels.map Level.clearPositions) := by
  induction levels with
  | nil => trivial
  | cons level below ih =>
    -- There are as many levels below as before.
    have hdepth : level.clearPositions.depth = (below.map Level.clearPositions).length + 1 := by
      simpa using h.1
    exact ⟨hdepth, h.2.1, ih h.2.2⟩

/-- The levels around the innermost one of a state. -/
theorem tail {state : StateChain} (h : Founded paths state.contents) :
    state.depth = state.below.length + 1 ∧ state.frame.contentScopes ∈ paths ∧
      Founded paths state.contents.tail := by
  simpa [Chain.contents, Chain.nodes, Founded, StateChain.depth, StateChain.frame] using h

/-- The levels of the state around are founded. -/
private theorem parent {state outer : StateChain} (h : Founded paths state.contents)
    (hparent : state.parent? = some outer) : Founded paths outer.contents := by
  rw [Chain.contents_of_parent? hparent] at h
  exact h.2.2

/-- One more level is founded when its content scopes are known. -/
private theorem push {state : StateChain} {frame : StateFrame ScopeChain} {fresh : Nat}
    (h : Founded paths state.contents) (hscopes : frame.contentScopes ∈ paths) :
    Founded paths (state.push fresh frame).contents := by
  -- The depth counts the levels, and the new one is put on top of all of them.
  have hlength : state.contents.length = state.below.length + 1 := by
    simp [Chain.contents, Chain.nodes]
  have hdepth : state.depth + 1 = state.contents.length + 1 := by
    rw [h.tail.1, hlength]
  exact ⟨hdepth, hscopes, h⟩

/-- Another innermost frame is founded when its content scopes are known. -/
private theorem replaceFrame {state : StateChain} {frame : StateFrame ScopeChain} {fresh : Nat}
    (h : Founded paths state.contents) (hscopes : frame.contentScopes ∈ paths) :
    Founded paths (state.replaceFrame fresh frame).contents := by
  have hdepth : state.depth = state.contents.tail.length + 1 := by
    simpa [Chain.contents, Chain.nodes] using h.tail.1
  exact ⟨hdepth, hscopes, h.tail.2.2⟩

end Level.Founded

namespace Stacks

variable {made : Stacks} {path : ScopeChain} {state : StateChain}

/-- What holds of the stacks of a program at any time. -/
structure Sound (made : Stacks) : Prop where
  paths_kept : Chain.Kept made.fresh made.paths
  states_kept : Chain.Kept made.fresh made.states
  founded : ∀ state ∈ made.states, Level.Founded made.paths state.contents

/-- A program that has made no stacks is sound. -/
theorem sound_empty : empty.Sound :=
  ⟨Chain.kept_nil, Chain.kept_nil, by simp [empty]⟩

/-- A scope stack that joins the others may be added. -/
private theorem Sound.addPath (h : made.Sound) (hjoins : Chain.Joins made.fresh made.paths path) :
    (made.addPath path).Sound where
  paths_kept := h.paths_kept.concat hjoins
  states_kept := h.states_kept.mono (Nat.le_max_left _ _)
  founded := by
    intro state hmem
    exact (h.founded state hmem).mono fun other hother => List.mem_append_left _ hother

/-- A state that joins the others and is founded may be added. -/
private theorem Sound.addState (h : made.Sound) (hjoins : Chain.Joins made.fresh made.states state)
    (hfounded : Level.Founded made.paths state.contents) : (made.addState state).Sound where
  paths_kept := h.paths_kept.mono (Nat.le_max_left _ _)
  states_kept := h.states_kept.concat hjoins
  founded := by
    intro other hmem
    -- The paths stay as they are, so what was founded stays so.
    cases List.mem_append.1 hmem with
    | inl hold => exact h.founded other hold
    | inr hnew =>
      rw [List.mem_singleton.1 hnew]
      exact hfounded

/-- A step to a scope stack makes one that joins the others. -/
private theorem joins_path? {step : PathStep} (h : made.path? step = some path) :
    Chain.Joins made.fresh made.paths path := by
  -- By the three ways to make a scope stack.
  cases step with
  | root scope metadata =>
    cases h
    exact Chain.joins_single _
  | push of scope metadata =>
    obtain ⟨old, hold, rfl⟩ := Option.map_eq_some_iff.1 h
    exact Chain.joins_push (List.mem_of_getElem? hold) _
  | parent of =>
    obtain ⟨old, hold, hparent⟩ := Option.bind_eq_some_iff.1 h
    exact Chain.joins_parent (List.mem_of_getElem? hold) hparent

/-- The states that one step can come to. -/
inductive Comes (made : Stacks) : StateChain → Prop where
  | known {old : StateChain} (hmem : old ∈ made.states) : Comes made old
  | parent {old outer : StateChain} (hmem : old ∈ made.states)
    (hparent : old.parent? = some outer) : Comes made outer
  | root (rule : Nat) {scopes : ScopeChain} (hscopes : scopes ∈ made.paths) :
    Comes made (.root made.fresh rule scopes)
  | push {old : StateChain} {frame : StateFrame ScopeChain} (hmem : old ∈ made.states)
    (hscopes : frame.contentScopes ∈ made.paths) : Comes made (old.push made.fresh frame)
  | replaceFrame {old : StateChain} {frame : StateFrame ScopeChain} (hmem : old ∈ made.states)
    (hscopes : frame.contentScopes ∈ made.paths) :
    Comes made (old.replaceFrame made.fresh frame)
  | clearPositions {old : StateChain} (hmem : old ∈ made.states) :
    Comes made (old.clearPositions made.fresh)

/-- A frame is pushed with content scopes that are known. -/
private theorem contentScopes_mem_of_frame? {frame : StateFrame Nat} {full : StateFrame ScopeChain}
    (h : made.frame? frame = some full) : full.contentScopes ∈ made.paths := by
  obtain ⟨nameScopes, hname, hrest⟩ := Option.bind_eq_some_iff.1 h
  obtain ⟨contentScopes, hcontent, heq⟩ := Option.bind_eq_some_iff.1 hrest
  cases heq
  exact List.mem_of_getElem? hcontent

/-- A step to a state comes to one in one of the six ways. -/
private theorem Sound.comes_state? (hsound : made.Sound) {step : StateStep}
    (h : made.state? step = some state) : made.Comes state := by
  -- A step that finds nothing to change comes to the state that it started from.
  cases step with
  | root rule scopes =>
    obtain ⟨path, hpath, rfl⟩ := Option.map_eq_some_iff.1 h
    exact .root rule (List.mem_of_getElem? hpath)
  | push of frame =>
    obtain ⟨old, hold, hpush⟩ := Option.bind_eq_some_iff.1 h
    obtain ⟨full, hfull, heq⟩ := Option.bind_eq_some_iff.1 hpush
    cases heq
    exact .push (List.mem_of_getElem? hold) (contentScopes_mem_of_frame? hfull)
  | pop of =>
    obtain ⟨old, hold, hparent⟩ := Option.bind_eq_some_iff.1 h
    exact .parent (List.mem_of_getElem? hold) hparent
  | safePop of =>
    obtain ⟨old, hold, rfl⟩ := Option.map_eq_some_iff.1 h
    have hmem := List.mem_of_getElem? hold
    cases hparent : old.parent? with
    | none => simpa [StateChain.safePop, hparent] using Comes.known hmem
    | some outer => simpa [StateChain.safePop, hparent] using Comes.parent hmem hparent
  | withEndRule of endRule =>
    obtain ⟨old, hold, rfl⟩ := Option.map_eq_some_iff.1 h
    have hmem := List.mem_of_getElem? hold
    unfold StateChain.withEndRule
    split
    · exact .known hmem
    · have hscopes := (hsound.founded old hmem).tail.2.1
      exact .replaceFrame hmem hscopes
  | withContentScopes of scopes =>
    obtain ⟨old, hold, hscopes⟩ := Option.bind_eq_some_iff.1 h
    obtain ⟨path, hpath, heq⟩ := Option.bind_eq_some_iff.1 hscopes
    cases heq
    have hmem := List.mem_of_getElem? hold
    unfold StateChain.withContentScopes
    split
    · exact .known hmem
    · -- The new frame has the content scopes that the step names.
      have hscopes := List.mem_of_getElem? hpath
      exact .replaceFrame hmem hscopes
  | clearPositions of =>
    obtain ⟨old, hold, rfl⟩ := Option.map_eq_some_iff.1 h
    exact .clearPositions (List.mem_of_getElem? hold)

/-- In whichever way a step comes to a state, the state joins the others. -/
private theorem Comes.joins (h : made.Comes state) : Chain.Joins made.fresh made.states state := by
  cases h with
  | known hmem => exact Chain.joins_of_mem hmem
  | parent hmem hparent => exact Chain.joins_parent hmem hparent
  | root rule hscopes => exact Chain.joins_single _
  | push hmem hscopes => exact Chain.joins_push hmem _
  | replaceFrame hmem hscopes => exact Chain.joins_replace hmem _
  | clearPositions hmem => exact Chain.joins_renew _ _

/-- In whichever way a step comes to a state, its levels are founded. -/
private theorem Comes.founded (h : made.Comes state) (hsound : made.Sound) :
    Level.Founded made.paths state.contents := by
  cases h with
  | known hmem => exact hsound.founded _ hmem
  | parent hmem hparent => exact (hsound.founded _ hmem).parent hparent
  | root rule hscopes => exact ⟨rfl, hscopes, trivial⟩
  | push hmem hscopes => exact (hsound.founded _ hmem).push hscopes
  | replaceFrame hmem hscopes => exact (hsound.founded _ hmem).replaceFrame hscopes
  | clearPositions hmem =>
    rw [StateChain.clearPositions, Chain.contents_renew]
    exact (hsound.founded _ hmem).clearPositions

/-- A step of a program keeps its stacks sound. -/
theorem sound_perform (h : made.Sound) (step : StackStep) : (made.perform step).Sound := by
  cases step with
  | path step =>
    cases hpath : made.path? step with
    | none => simpa [perform, hpath] using h
    | some path => simpa [perform, hpath] using h.addPath (joins_path? hpath)
  | state step =>
    cases hstate : made.state? step with
    | none => simpa [perform, hstate] using h
    | some state =>
      -- What is true of all states that a step can come to is true of this one.
      have hcomes := h.comes_state? hstate
      simpa [perform, hstate] using h.addState hcomes.joins (hcomes.founded h)

/-- The stacks of a program are sound at its end. -/
theorem sound_run (h : made.Sound) (script : List StackStep) : (made.run script).Sound := by
  induction script generalizing made with
  | nil => exact h
  | cons step script ih => exact ih (sound_perform h step)

end Stacks

end Textmate
