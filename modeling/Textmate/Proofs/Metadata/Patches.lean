import Mathlib.Algebra.Group.Nat.Defs
import Mathlib.Logic.Function.Basic
import Textmate.Proofs.Metadata.Fields
import Textmate.Theme.Basic

/-!
# Patches one after another

A patch has a value for some of the attributes, and a word that is patched has these values, each
reduced to the width of its field, and its own ones for the rest. Two patches one after another come
to a single one, in which the values of the second patch hide those of the first. It does not matter
that the first patch is reduced to the fields of a word before the second one is applied, because an
attribute is either replaced as a whole or left as it is.

The style of a path in a theme is put together from the styles of the rules for the path in the same
way. So a word may be patched by each rule in turn, or once by the style of the path.

## Key results

- `Metadata.unpack_apply`: the attributes of a patched word
- `Metadata.apply_apply`: two patches come to a single one
- `Theme.apply_styleFor`: the rules of a theme come to the style of a path
- `Patch.composes`: all of this
-/

namespace Textmate

namespace Patch

/-- The patch with the values of the first patch, and those of the second one where the first one
has none. -/
def atop (p q : Patch) : Patch :=
  ⟨p.language.or q.language, p.tokenType.or q.tokenType, p.fontStyle.or q.fontStyle,
    p.foreground.or q.foreground, p.background.or q.background⟩

/-- The values as the fields of a word hold them. -/
def truncate (p : Patch) : Patch :=
  ⟨p.language.map (· % 0x100), p.tokenType.map fun type => ⟨UInt8.ofNat (type.bits.toNat % 0x8)⟩,
    p.fontStyle.map fun style => ⟨UInt8.ofNat (style.bits.toNat % 0x8)⟩,
    p.foreground.map (· % 0x200), p.background.map (· % 0x200)⟩

/-- Patches on top of each other are layers. -/
private theorem atop_onto (p q : Patch) (a : Attributes) :
    (p.atop q).onto a = p.onto (q.onto a) := by
  simp [atop, onto, Option.getD_or]

/-- Reducing changes the values of each patch by themselves. -/
private theorem truncate_atop (p q : Patch) : (p.atop q).truncate = p.truncate.atop q.truncate := by
  simp [atop, truncate, Option.map_or]

/-- Reducing changes the values of a patch and the attributes below it each by themselves. -/
private theorem truncate_onto (p : Patch) (a : Attributes) :
    (p.onto a).truncate = p.truncate.onto a.truncate := by
  simp [onto, truncate, Attributes.truncate, Option.getD_map]

end Patch

namespace Metadata

/-- Words with the same attributes are the same. -/
private theorem unpack_injective : Function.Injective unpack :=
  Function.LeftInverse.injective pack_unpack

/-- A patched word has the values of the patch as its fields hold them, and its own ones where the
patch has none. -/
theorem unpack_apply (w : Metadata) (p : Patch) :
    (w.apply p).unpack = p.truncate.onto w.unpack := by
  -- The attributes of a word fit already, so reducing leaves them alone.
  rw [apply, unpack_pack, Patch.truncate_onto, w.fits_unpack.truncate_eq]

/-- A patch without values changes nothing. -/
private theorem apply_empty (w : Metadata) : w.apply Patch.empty = w :=
  pack_unpack w

/-- Two patches one after another come to a single one. -/
theorem apply_apply (w : Metadata) (p q : Patch) :
    (w.apply p).apply q = w.apply (q.atop p) := by
  -- Words are equal when their attributes are, and there both sides are layers of reduced values.
  apply unpack_injective
  calc ((w.apply p).apply q).unpack
    _ = q.truncate.onto (p.truncate.onto w.unpack) := by rw [unpack_apply, unpack_apply]
    _ = (q.truncate.atop p.truncate).onto w.unpack := (Patch.atop_onto _ _ _).symm
    _ = (q.atop p).truncate.onto w.unpack := by rw [Patch.truncate_atop]
    _ = (w.apply (q.atop p)).unpack := (unpack_apply _ _).symm

end Metadata

/-! ## The rules of a theme -/

/-- A layer of styles is a layer of patches. -/
private theorem Style.toPatch_onto (a b : Style) :
    (a.onto b).toPatch = a.toPatch.atop b.toPatch :=
  rfl

namespace Theme

/-- A word with a style is patched by rules in turn, or once by the style with theirs on top. -/
private theorem foldl_apply (rules : List ThemeRule) (start : Style) (w : Metadata) :
    rules.foldl (fun word rule => word.apply rule.style.toPatch) (w.apply start.toPatch) =
      w.apply (rules.foldl (fun style rule => rule.style.onto style) start).toPatch := by
  -- The induction is for any style below, since each rule goes on top of those before it.
  induction rules generalizing start with
  | nil => rfl
  | cons rule rules ih =>
    rw [List.foldl_cons, List.foldl_cons, Metadata.apply_apply, ← Style.toPatch_onto, ih]

/-- The rules for a path, one after another, come to the style of the path. -/
theorem apply_styleFor (theme : Theme) (path : List ScopeName) (w : Metadata) :
    (theme.rules.filter (·.selector.selects path)).foldl
        (fun word rule => word.apply rule.style.toPatch) w =
      w.apply (theme.styleFor path).toPatch := by
  have hrules := foldl_apply (theme.rules.filter (·.selector.selects path)) .none w
  -- The styles of a path start from one that sets nothing.
  have hstart : w.apply Style.none.toPatch = w := w.apply_empty
  rwa [hstart] at hrules

end Theme

namespace Patch

/-- Three bits have room for the value as it was reduced. -/
private theorem toNat_ofNat_mod (bits : UInt8) :
    (UInt8.ofNat (bits.toNat % 0x8)).toNat = bits.toNat % 2 ^ 3 := by
  rw [UInt8.toNat_ofNat']
  omega

/-- Patches compose: two of them come to the one with the values of the second over those of the
first. A patched word has each value of the patch modulo the width of its field, and its own value
where the patch has none. So the rules of a theme for a path, applied in their order, come to the
style of the path. -/
theorem composes :
    (∀ (w : Metadata) (p q : Patch), (w.apply p).apply q = w.apply (q.atop p)) ∧
    (∀ (w : Metadata) (p : Patch),
      (w.apply p).language = (p.language.map (· % 2 ^ 8)).getD w.language ∧
      (w.apply p).tokenType.bits.toNat =
        (p.tokenType.map (·.bits.toNat % 2 ^ 3)).getD w.tokenType.bits.toNat ∧
      (w.apply p).fontStyle.bits.toNat =
        (p.fontStyle.map (·.bits.toNat % 2 ^ 3)).getD w.fontStyle.bits.toNat ∧
      (w.apply p).foreground = (p.foreground.map (· % 2 ^ 9)).getD w.foreground ∧
      (w.apply p).background = (p.background.map (· % 2 ^ 9)).getD w.background) ∧
    ∀ (theme : Theme) (path : List ScopeName) (w : Metadata),
      (theme.rules.filter (·.selector.selects path)).foldl
          (fun word rule => word.apply rule.style.toPatch) w =
        w.apply (theme.styleFor path).toPatch := by
  refine ⟨Metadata.apply_apply, fun w p => ?_, Theme.apply_styleFor⟩
  -- All five fields at once; the two that are bytes need one more step.
  have hunpack := w.unpack_apply p
  have htype := congrArg Attributes.tokenType hunpack
  have hstyle := congrArg Attributes.fontStyle hunpack
  refine ⟨congrArg Attributes.language hunpack, ?_, ?_, congrArg Attributes.foreground hunpack,
    congrArg Attributes.background hunpack⟩
  · -- The types and styles are bytes, whose three lowest bits are kept.
    refine (congrArg (·.bits.toNat) htype).trans ?_
    rw [onto, truncate]
    cases p.tokenType with
    | none => rfl
    | some type => exact toNat_ofNat_mod type.bits
  · refine (congrArg (·.bits.toNat) hstyle).trans ?_
    rw [onto, truncate]
    cases p.fontStyle with
    | none => rfl
    | some style => exact toNat_ofNat_mod style.bits

end Patch

end Textmate
