import Mathlib.Order.Bounds.Defs
import Textmate.Proofs.Attributes.Languages
import Textmate.Proofs.Attributes.Overrides
import Textmate.Proofs.Attributes.Words
import Textmate.Proofs.Metadata.Fields
import Textmate.Stack.Scopes

/-!
# What is in force at the end of a path

A stack for a path of scopes is made from the outermost scope on, and the metadata of each scope
follow from those of the scope around it. At the end of the path this comes to the innermost scope
with a language of its own, and to the innermost one with a type of its own, be it by a selector or
by its name. The root has the language of the grammar, and never a type.

## Key results

- `ScopeStack.language_entering`, `ScopeStack.tokenType_entering`: what one more scope changes
- `ScopeStack.Follows.entering`: a stack that follows its path does so with one more scope
- `ScopeStack.follows_ofPath`: the stack of a path follows the path
-/

namespace Textmate

/-- The type with those bits only that a metadata word has room for. -/
def TokenType.reduced (type : TokenType) : TokenType :=
  ⟨UInt8.ofNat (type.bits.toNat % 0x8)⟩

/-- A type that has room loses no bits. -/
private theorem TokenType.reduced_of_lt {type : TokenType} (h : type.bits.toNat < 0x8) :
    type.reduced = type := by
  rw [reduced, Nat.mod_eq_of_lt h, UInt8.ofNat_toNat]

/-! ## The last scope with a value of its own -/

section InForce

variable {α : Type} {own : List ScopeName → ScopeName → α → Prop} {start value : α}
variable {root scope : ScopeName} {inner : List ScopeName}

/-- The value in force at the end of a path: that of the last scope inside the root that has one of
its own, and the one of the root if none has. What a scope has of its own may depend on the scopes
around it. -/
def InForce (own : List ScopeName → ScopeName → α → Prop) (start : α) (root : ScopeName)
    (inner : List ScopeName) (value : α) : Prop :=
  (∃ around scope, around ++ [scope] <+: inner ∧ own (root :: around) scope value ∧
    ∀ further other, further ++ [other] <+: inner → around.length < further.length →
      ∀ otherValue, ¬ own (root :: further) other otherValue) ∨
  ((∀ around scope, around ++ [scope] <+: inner → ∀ other, ¬ own (root :: around) scope other) ∧
    value = start)

/-- The value of the root is in force at the root. -/
private theorem inForce_nil : InForce own start root [] start :=
  .inr ⟨fun around scope hprefix => by simp at hprefix, rfl⟩

/-- One more scope has its own value in force. -/
private theorem inForce_of_own (h : own (root :: inner) scope value) :
    InForce own start root (inner ++ [scope]) value := by
  left
  refine ⟨inner, scope, List.prefix_refl _, h, fun further other hprefix hlt => ?_⟩
  have hle := hprefix.length_le
  simp only [List.length_append, List.length_singleton] at hle
  omega

/-- One more scope without a value of its own leaves the value in force. -/
private theorem InForce.concat (h : InForce own start root inner value)
    (hnone : ∀ other, ¬ own (root :: inner) scope other) :
    InForce own start root (inner ++ [scope]) value := by
  rcases h with ⟨around, last, hlast, hown, hfurther⟩ | ⟨hall, heq⟩
  · left
    refine ⟨around, last, hlast.trans (List.prefix_append _ _), hown, ?_⟩
    intro further other hprefix hlt
    -- A path is the longer one itself, where the scope has nothing, or one inside the old path.
    rcases List.prefix_concat_iff.1 hprefix with hnew | hold
    · obtain ⟨rfl, hother⟩ := List.append_inj' hnew rfl
      obtain rfl := List.singleton_inj.1 hother
      exact hnone
    · exact hfurther further other hold hlt
  · right
    refine ⟨fun around other hprefix => ?_, heq⟩
    rcases List.prefix_concat_iff.1 hprefix with hnew | hold
    · obtain ⟨rfl, hother⟩ := List.append_inj' hnew rfl
      obtain rfl := List.singleton_inj.1 hother
      exact hnone
    · exact hall around other hold

end InForce

/-! ## What a scope has of its own -/

/-- The language that the name of a scope stands for. -/
def Classifier.OwnLanguage (classifier : Classifier) (scope : ScopeName) (language : Nat) : Prop :=
  (classifier.attributes scope).language = language ∧ language ≠ 0

/-- The type that a scope has inside other ones: that of the last selector for the path up to it,
and without a selector that of its name. -/
inductive Configuration.OwnType (configuration : Configuration) (around : List ScopeName)
    (scope : ScopeName) : TokenType → Prop
  | selected (o : Override) (hlast : o.IsLastFor configuration (around ++ [scope])) :
    OwnType configuration around scope o.type
  | standard (type : TokenType)
    (hnone : ∀ o : Override, o.Of configuration → o.selector.selects (around ++ [scope]) = false)
    (htype : scope.standardType? = some type) :
    OwnType configuration around scope type

/-- The type of a name is that of one of the words, and all of them fit into their field. -/
private theorem ScopeName.toNat_standardType?_lt {scope : ScopeName} {type : TokenType}
    (h : scope.standardType? = some type) : type.bits.toNat < 0x8 := by
  obtain ⟨position, -, word, hword, -⟩ := ScopeName.standardType?_eq_some_iff.1 h
  exact hword.toNat_lt

/-! ## One more scope -/

namespace Classifier

variable {initial : Nat} {configuration : Configuration} {classifier asked : Classifier}

/-- The language of a scope fits into its field. -/
private theorem language_classify_lt
    (hmade : ofConfiguration initial configuration = .ok classifier)
    (scope : ScopeName) : (classifier.classify scope).language < 0x100 := by
  have hids := (language_le hmade).2
  rw [classify]
  -- It is a number of the table, which was checked, or zero.
  rcases languageOf?_cases classifier.embedded scope with ⟨name, hlongest, heq⟩ | ⟨-, heq⟩
  · obtain ⟨id, hid⟩ := (Dict.mem_keys_iff_find? name _).1 hlongest.mem
    rw [heq, hid]
    exact Nat.lt_succ_of_le (hids _ (Dict.mem_of_find? hid))
  · rw [heq]
    exact (by decide : 0 < 0x100)

/-- What a scope changes fits into the fields. -/
private theorem fits_toPatch (hmade : ofConfiguration initial configuration = .ok classifier)
    (scope : ScopeName) : (classifier.classify scope).toPatch.Fits where
  language := by
    intro language hlanguage
    simp only [ScopeAttributes.toPatch, Option.mem_def, Option.ite_none_left_eq_some,
      Option.some.injEq] at hlanguage
    rw [← hlanguage.2]
    exact language_classify_lt hmade scope
  tokenType := fun _ htype => ScopeName.toNat_standardType?_lt htype
  fontStyle := fun _ h => nomatch h
  foreground := fun _ h => nomatch h
  background := fun _ h => nomatch h

end Classifier

namespace ScopeStack

variable {initial : Nat} {configuration : Configuration} {classifier asked : Classifier}

/-- What one more scope changes: the language if its name has one, and the type if a selector
matches the path or its name has one. -/
private theorem unpack_entering
    (hmade : Classifier.ofConfiguration initial configuration = .ok classifier)
    (hasked : classifier.Remembers asked) (stack : ScopeStack) (scope : ScopeName) :
    (stack.entering asked scope).1.metadata.unpack =
      { stack.metadata.unpack with
        language := if (classifier.classify scope).language = 0 then stack.metadata.language
          else (classifier.classify scope).language
        tokenType := match classifier.override? (stack.scopes ++ [scope]) with
          | some type => type.reduced
          | none => scope.standardType?.getD stack.metadata.tokenType } := by
  obtain ⟨hanswer, hlater⟩ := hasked.ask scope
  have hpatch := Classifier.fits_toPatch hmade scope
  -- The first patch has the language and the type that come with the name.
  have honto : (classifier.classify scope).toPatch.onto stack.metadata.unpack =
      { stack.metadata.unpack with
        language := if (classifier.classify scope).language = 0 then stack.metadata.language
          else (classifier.classify scope).language
        tokenType := scope.standardType?.getD stack.metadata.tokenType } := by
    unfold ScopeAttributes.toPatch
    split <;> rfl
  have hinherited := stack.metadata.unpack_apply_of_fits hpatch
  unfold entering
  simp only [hanswer, hlater.override?_eq]
  cases classifier.override? (stack.scopes ++ [scope]) with
  | none => exact hinherited.trans honto
  | some type =>
    -- The second patch changes the type only, and the other attributes fit already.
    have hrest := (hpatch.onto stack.metadata.fits_unpack).truncate_eq
    refine (Metadata.unpack_pack _).trans ?_
    rw [hinherited]
    calc (Patch.onto { Patch.empty with tokenType := some type }
          ((classifier.classify scope).toPatch.onto stack.metadata.unpack)).truncate
        = { ((classifier.classify scope).toPatch.onto stack.metadata.unpack).truncate with
            tokenType := type.reduced } := rfl
      _ = _ := by rw [hrest, honto]

/-- One more scope has its own language in force, or that of the scope around it. -/
theorem language_entering
    (hmade : Classifier.ofConfiguration initial configuration = .ok classifier)
    (hasked : classifier.Remembers asked) (stack : ScopeStack) (scope : ScopeName) :
    classifier.OwnLanguage scope (stack.entering asked scope).1.metadata.language ∨
    ((∀ other, ¬ classifier.OwnLanguage scope other) ∧
      (stack.entering asked scope).1.metadata.language = stack.metadata.language) := by
  have hlanguage := congrArg Attributes.language (unpack_entering hmade hasked stack scope)
  have hplain := (Classifier.remembers_ofConfiguration hmade).attributes_eq scope
  dsimp only [Metadata.unpack] at hlanguage
  unfold Classifier.OwnLanguage
  rw [hlanguage, hplain]
  -- Language zero is none, and leaves the one around in force.
  by_cases hzero : (classifier.classify scope).language = 0
  · right
    simp only [hzero, if_true, and_true]
    intro other hother
    exact hother.2 hother.1.symm
  · left
    simp [hzero]

/-- One more scope has its own type in force, or that of the scope around it. -/
theorem tokenType_entering
    (hmade : Classifier.ofConfiguration initial configuration = .ok classifier)
    (hsorted : Dict.Sorted configuration.tokenTypes) (hasked : classifier.Remembers asked)
    (stack : ScopeStack) (scope : ScopeName) :
    (∃ type, configuration.OwnType stack.scopes scope type ∧
      (stack.entering asked scope).1.metadata.tokenType = type.reduced) ∨
    ((∀ other, ¬ configuration.OwnType stack.scopes scope other) ∧
      (stack.entering asked scope).1.metadata.tokenType = stack.metadata.tokenType) := by
  have htype := congrArg Attributes.tokenType (unpack_entering hmade hasked stack scope)
  dsimp only [Metadata.unpack] at htype
  rw [htype]
  -- A selector for the path comes before the words of the name.
  cases Classifier.override?_spec hmade hsorted (stack.scopes ++ [scope]) with
  | inl hselected =>
    obtain ⟨o, hlast, hoverride⟩ := hselected
    left
    rw [hoverride]
    exact ⟨o.type, .selected o hlast, rfl⟩
  | inr hunselected =>
    obtain ⟨hnone, hoverride⟩ := hunselected
    rw [hoverride]
    -- Without a selector the words of the name decide, and without them the scope around it.
    cases hstandard : scope.standardType? with
    | some type =>
      left
      have hlt := ScopeName.toNat_standardType?_lt hstandard
      exact ⟨type, .standard type hnone hstandard, (TokenType.reduced_of_lt hlt).symm⟩
    | none =>
      right
      refine ⟨fun other hother => ?_, rfl⟩
      -- Neither a selector nor the name gives a type of its own.
      cases hother with
      | selected o hlast =>
        have hselects := hlast.selects
        rw [hnone o hlast.of] at hselects
        cases hselects
      | standard _ _ hother =>
        rw [hstandard] at hother
        cases hother

/-! ## Paths -/

/-- The stack has the scopes of a path, and its metadata are what is in force at the end of it. -/
structure Follows (initial : Nat) (configuration : Configuration) (classifier : Classifier)
    (root : ScopeName) (inner : List ScopeName) (stack : ScopeStack) : Prop where
  scopes : stack.scopes = root :: inner
  language : InForce (fun _ => classifier.OwnLanguage) initial root inner stack.metadata.language
  tokenType : ∃ type, InForce configuration.OwnType .other root inner type ∧
    stack.metadata.tokenType = type.reduced
  fontStyle : stack.metadata.fontStyle = .plain
  foreground : stack.metadata.foreground = 0
  background : stack.metadata.background = 0

/-- At the root there are the language of the grammar and no type. -/
private theorem follows_rootOf
    (hmade : Classifier.ofConfiguration initial configuration = .ok classifier)
    (hasked : classifier.Remembers asked) (root : ScopeName) :
    (rootOf asked root).Follows initial configuration classifier root [] := by
  obtain ⟨hnone, rfl⟩ := Classifier.ofConfiguration_eq_ok_iff.1 hmade
  have hinitial : asked.root.language = initial := hasked.initial_eq
  have hle := (Classifier.outOfRange?_eq_none_iff.1 hnone).1
  -- The language of the grammar has room, as the configuration was accepted.
  have hpatch : Patch.Fits { Patch.empty with language := some initial } := by
    refine ⟨?_, by simp [Patch.empty], by simp [Patch.empty], by simp [Patch.empty],
      by simp [Patch.empty]⟩
    intro language hlanguage
    obtain rfl := Option.some.inj hlanguage
    exact Nat.lt_succ_of_le hle
  have hunpack : (rootOf asked root).metadata.unpack = ⟨initial, .other, .plain, 0, 0⟩ := by
    have happly := Metadata.none.unpack_apply_of_fits hpatch
    rw [← hinitial] at happly ⊢
    exact happly
  obtain ⟨hlanguage, htype, hstyle, hforeground, hbackground⟩ := Attributes.mk.inj hunpack
  refine ⟨rfl, ?_, ⟨.other, inForce_nil, htype⟩, hstyle, hforeground, hbackground⟩
  rw [hlanguage]
  exact inForce_nil

/-- A stack that follows a path does so with one more scope. -/
theorem Follows.entering {stack : ScopeStack} {root : ScopeName} {inner : List ScopeName}
    (h : stack.Follows initial configuration classifier root inner)
    (hmade : Classifier.ofConfiguration initial configuration = .ok classifier)
    (hsorted : Dict.Sorted configuration.tokenTypes) (hasked : classifier.Remembers asked)
    (scope : ScopeName) :
    (stack.entering asked scope).1.Follows initial configuration classifier root
      (inner ++ [scope]) := by
  -- Font style and colors are those of the scope around.
  obtain ⟨-, -, hstyle, hforeground, hbackground⟩ :=
    Attributes.mk.inj (unpack_entering hmade hasked stack scope)
  refine ⟨by simp [ScopeStack.entering, h.scopes], ?_, ?_, hstyle.trans h.fontStyle,
    hforeground.trans h.foreground, hbackground.trans h.background⟩
  · cases language_entering hmade hasked stack scope with
    | inl hown => exact inForce_of_own hown
    | inr hinherited =>
      obtain ⟨hnone, heq⟩ := hinherited
      rw [heq]
      exact h.language.concat hnone
  · have htype := tokenType_entering hmade hsorted hasked stack scope
    rw [h.scopes] at htype
    rcases htype with ⟨type, hown, heq⟩ | ⟨hnone, heq⟩
    · exact ⟨type, inForce_of_own hown, heq⟩
    · obtain ⟨type, hinForce, hreduced⟩ := h.tokenType
      exact ⟨type, hinForce.concat hnone, heq.trans hreduced⟩

/-- The stack of a path follows the path, whatever the classifier was asked before. -/
theorem follows_ofPath (hmade : Classifier.ofConfiguration initial configuration = .ok classifier)
    (hsorted : Dict.Sorted configuration.tokenTypes) (calls : List ScopeName) (root : ScopeName)
    (inner : List ScopeName) :
    (ofPath (classifier.askAll calls).2 root inner).Follows initial configuration classifier root
      inner := by
  -- The induction is over the scopes that are left; the classifier was asked for the others.
  have hrun (outer inner : List ScopeName) (stack : ScopeStack) (asked : Classifier)
      (h : stack.Follows initial configuration classifier root outer)
      (hasked : classifier.Remembers asked) :
      (stack.enteringAll asked inner).1.Follows initial configuration classifier root
        (outer ++ inner) := by
    induction inner generalizing outer stack asked with
    | nil =>
      rw [List.append_nil]
      exact h
    | cons scope inner ih =>
      have hnext := ih (outer ++ [scope]) _ _ (h.entering hmade hsorted hasked scope)
        (hasked.ask scope).2
      rw [List.append_assoc] at hnext
      exact hnext
  have hasked := ((Classifier.remembers_ofConfiguration hmade).askAll calls).2
  exact hrun [] inner _ _ (follows_rootOf hmade hasked root) hasked

/-! ### A style sheet inside a page -/

def html : ScopeName := ⟨"text.html", by decide, by simp, by simp; decide⟩

def css : ScopeName := ⟨"source.css", by decide, by simp, by simp; decide⟩

def sheet : ScopeName := ⟨"source.css.embedded", by decide, by simp, by simp; decide⟩

def note : ScopeName := ⟨"comment.block.css", by decide, by simp, by simp; decide⟩

def page : Configuration := ⟨[(css, 2)], [("source.css comment", .regex), ("string", .other)]⟩

/-- A comment in a style sheet has the language of the sheet. -/
theorem language_note :
    ∃ classifier, Classifier.ofConfiguration 1 page = .ok classifier ∧
      Dict.Sorted page.tokenTypes ∧
      (ofPath (classifier.askAll [note]).2 html [sheet, note]).metadata.language = 2 := by
  have hsorted : Dict.Sorted page.tokenTypes := by
    unfold Dict.Sorted
    decide
  refine ⟨_, rfl, hsorted, ?_⟩
  have hfollows := @follows_ofPath 1 page _ rfl hsorted [note] html [sheet, note]
  rcases hfollows.language with ⟨around, scope, hprefix, ⟨hlanguage, hne⟩, -⟩ | ⟨hnone, -⟩
  · rw [← hlanguage] at hne ⊢
    have hscope : scope = sheet ∨ scope = note := by
      have hmem := hprefix.subset (List.mem_append_right around (List.mem_singleton_self scope))
      simpa using hmem
    rcases hscope with rfl | rfl
    · rfl
    · -- The name of the comment itself stands for no language.
      exact absurd (by rfl) hne
  · exact absurd ⟨by rfl, by decide⟩ (hnone [] sheet ⟨[note], rfl⟩ 2)

end ScopeStack

end Textmate
