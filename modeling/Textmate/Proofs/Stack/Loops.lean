import Textmate.Stack.State

/-!
# Rules entered again at one place

A rule that is entered without taking text can be entered again at the same place, and so on without
end. An engine asks before it goes on whether a state has the rule of the next one already. The walk
that answers this goes from the innermost frame outwards and has two reasons to stop: a frame that
was entered at another place, and a frame with the rule. A frame with the rule counts only if the
walk comes to it, which is when all frames inside it were entered at the same place.

A place that is not known, as in a state at the end of a line, is the same as another one that is
not known.

## Key results

- `StateStack.hasSameRule_push`: one frame of the walk
- `StateStack.hasSameRule_iff`: which frames stand for an answer
- `StateStack.hasSameRule_pushAll`: frames that are entered at the same place
- `StateStack.guardsLoops`: what the answer says, and that it stays as long as the place does
-/

namespace Textmate.StateStack

variable {state other : StateStack}

/-- Whether a state entered the rule of another one where the other one did, and did not enter any
rule elsewhere since then. -/
def HoldsRuleOf (state other : StateStack) : Prop :=
  ∃ inner frame outer, state.frames = inner ++ frame :: outer ∧ frame.rule = other.top.rule ∧
    ∀ passed ∈ inner ++ [frame], passed.entered = other.top.entered

/-- The state with frames pushed on it, one after another. -/
def pushAll (state : StateStack) (frames : List (StateFrame ScopeStack)) : StateStack :=
  frames.foldl push state

/-! ## One frame -/

/-- The walk over one frame compares its place and its rule. -/
private theorem hasSameRule_single {frame : StateFrame ScopeStack} :
    (StateStack.mk frame []).hasSameRule other = true ↔
      frame.entered = other.top.entered ∧ frame.rule = other.top.rule := by
  by_cases hplace : frame.entered = other.top.entered <;> simp [hasSameRule, frames, hplace]

/-- The walk ends at a frame from elsewhere, and at a frame with the rule; else it goes on. -/
theorem hasSameRule_push (state other : StateStack) (frame : StateFrame ScopeStack) :
    (state.push frame).hasSameRule other = true ↔ frame.entered = other.top.entered ∧
      (frame.rule = other.top.rule ∨ state.hasSameRule other = true) := by
  have hframes : (state.push frame).frames = frame :: state.frames := rfl
  unfold hasSameRule
  by_cases hplace : frame.entered = other.top.entered
  · simp [hframes, hplace]
  · simp [hframes, hplace]

/-- A single frame has the rule when it was entered at the place with it. -/
private theorem holdsRuleOf_single {frame : StateFrame ScopeStack} :
    (StateStack.mk frame []).HoldsRuleOf other ↔
      frame.entered = other.top.entered ∧ frame.rule = other.top.rule := by
  constructor
  · rintro ⟨inner, found, outer, hframes, hrule, hplaces⟩
    cases inner with
    | nil =>
      obtain ⟨rfl, rfl⟩ := List.cons.inj hframes
      exact ⟨hplaces _ (by simp), hrule⟩
    | cons first inner =>
      -- There is no frame below the single one.
      have hrest := (List.cons.inj hframes).2
      simp at hrest
  · intro ⟨hplace, hrule⟩
    exact ⟨[], frame, [], rfl, hrule, by simpa using hplace⟩

/-- A new frame has the rule itself, or passes on what is below it, when it was entered at the
place. -/
private theorem holdsRuleOf_push {frame : StateFrame ScopeStack} :
    (state.push frame).HoldsRuleOf other ↔ frame.entered = other.top.entered ∧
      (frame.rule = other.top.rule ∨ state.HoldsRuleOf other) := by
  constructor
  · intro ⟨inner, found, outer, hframes, hrule, hplaces⟩
    cases inner with
    | nil =>
      have hfound : frame = found := (List.cons.inj hframes).1
      rw [hfound]
      exact ⟨hplaces found (by simp), .inl hrule⟩
    | cons first inner =>
      -- The frame that was pushed is passed on the way to the one with the rule.
      have hfirst : frame = first := (List.cons.inj hframes).1
      have hrest : state.frames = inner ++ found :: outer := (List.cons.inj hframes).2
      rw [hfirst]
      refine ⟨hplaces first (by simp), .inr ⟨inner, found, outer, hrest, hrule, ?_⟩⟩
      intro passed hpassed
      exact hplaces passed (List.mem_cons_of_mem first hpassed)
  · intro ⟨hplace, hcases⟩
    cases hcases with
    | inl hrule => exact ⟨[], frame, state.frames, rfl, hrule, by simpa using hplace⟩
    | inr hholds =>
      obtain ⟨inner, found, outer, hframes, hrule, hplaces⟩ := hholds
      -- The walk to the frame with the rule begins with the new frame.
      refine ⟨frame :: inner, found, outer, congrArg (frame :: ·) hframes, hrule, ?_⟩
      intro passed hpassed
      cases List.mem_cons.1 hpassed with
      | inl heq =>
        rw [heq]
        exact hplace
      | inr hmem => exact hplaces passed hmem

/-! ## The whole walk -/

/-- A state has the rule of another one exactly when one of its frames has the rule, and this frame
and all frames inside it were entered where the other state was. -/
theorem hasSameRule_iff (state other : StateStack) :
    state.hasSameRule other = true ↔ state.HoldsRuleOf other := by
  obtain ⟨top, below⟩ := state
  induction below generalizing top with
  | nil => rw [hasSameRule_single, holdsRuleOf_single]
  | cons next below ih =>
    -- The state goes on from the one around its innermost frame.
    have hpush : StateStack.mk top (next :: below) = (StateStack.mk next below).push top := rfl
    rw [hpush, hasSameRule_push, holdsRuleOf_push, ih next]

/-- Frames that are entered at the place of another state add their rules to those of the walk. -/
theorem hasSameRule_pushAll {frames : List (StateFrame ScopeStack)}
    (h : ∀ frame ∈ frames, frame.entered = other.top.entered) :
    (state.pushAll frames).hasSameRule other = true ↔
      (∃ frame ∈ frames, frame.rule = other.top.rule) ∨ state.hasSameRule other = true := by
  induction frames generalizing state with
  | nil => simp [pushAll]
  | cons frame frames ih =>
    have hplace := h frame List.mem_cons_self
    have hplaces : ∀ later ∈ frames, later.entered = other.top.entered :=
      fun later hlater => h later (List.mem_cons_of_mem frame hlater)
    -- The other frames are pushed on the state with the first one.
    show ((state.push frame).pushAll frames).hasSameRule other = true ↔ _
    rw [ih hplaces, hasSameRule_push]
    simp only [hplace, true_and, List.mem_cons, exists_eq_or_imp]
    rw [or_left_comm, or_assoc]

/-- A state has its own rule. -/
private theorem hasSameRule_self (state : StateStack) : state.hasSameRule state = true := by
  rw [hasSameRule_iff]
  exact ⟨[], state.top, state.below, rfl, rfl, by simp⟩

/-- What the question for the rule of another state is answered with: whether a frame has the rule
such that it and all frames inside it were entered where the other state was. Frames that are pushed
at this place add their rules, so they never take an answer back, and every state has its own
rule. -/
theorem guardsLoops :
    (∀ state other : StateStack, state.hasSameRule other = true ↔ state.HoldsRuleOf other) ∧
    (∀ (state other : StateStack) (frames : List (StateFrame ScopeStack)),
      (∀ frame ∈ frames, frame.entered = other.top.entered) →
        ((state.pushAll frames).hasSameRule other = true ↔
          (∃ frame ∈ frames, frame.rule = other.top.rule) ∨ state.hasSameRule other = true)) ∧
    ∀ state : StateStack, state.hasSameRule state = true :=
  ⟨hasSameRule_iff, fun _ _ _ => hasSameRule_pushAll, hasSameRule_self⟩

/-- Two frames that are entered at the place of a rule keep the answer, and one that is entered
elsewhere would end the walk. -/
theorem guardsLoops_of_two_frames :
    let scopes := ScopeStack.root ⟨"text.plain", by decide, by simp, by simp; decide⟩ Metadata.none
    let entering (rule place : Nat) : StateFrame ScopeStack :=
      { StateFrame.ofRule rule scopes with entered := some place }
    let state := (StateStack.root 1 scopes).push (entering 7 4)
    let frames := [entering 9 4, entering 11 4]
    (∀ frame ∈ frames, frame.entered = state.top.entered) ∧
      (state.pushAll frames).hasSameRule state = true ∧
      ((state.push (entering 9 5)).pushAll frames).hasSameRule state = false := by
  intro scopes entering state frames
  have hplaces : ∀ frame ∈ frames, frame.entered = state.top.entered := by
    simp [frames, entering, state, push]
  -- The state has its own rule at its place, and frames at the same place keep that.
  obtain ⟨-, hpushed, hself⟩ := guardsLoops
  exact ⟨hplaces, (hpushed state state frames hplaces).2 (.inr (hself state)), by decide⟩

end Textmate.StateStack
