import Textmate.Metadata.Word

/-!
# The fields of metadata words

A packed word has each attribute reduced to the width of its field, whatever the other attributes
are. So a patch whose values fit into their fields changes the attributes that it has, and leaves
the other ones as they are.

## Key results

- `unpack_pack`: packing reduces each attribute to the width of its field
- `unpack_apply_of_fits`: what a patch that fits changes
-/

namespace Textmate

namespace Attributes

/-- The attributes as their fields hold them. -/
def truncate (a : Attributes) : Attributes :=
  ⟨a.language % 0x100, ⟨UInt8.ofNat (a.tokenType.bits.toNat % 0x8)⟩,
    ⟨UInt8.ofNat (a.fontStyle.bits.toNat % 0x8)⟩, a.foreground % 0x200, a.background % 0x200⟩

/-- Every attribute fits into its field. -/
structure Fits (a : Attributes) : Prop where
  language : a.language < 0x100
  tokenType : a.tokenType.bits.toNat < 0x8
  fontStyle : a.fontStyle.bits.toNat < 0x8
  foreground : a.foreground < 0x200
  background : a.background < 0x200

/-- Attributes that fit lose nothing. -/
theorem Fits.truncate_eq {a : Attributes} (h : a.Fits) : a.truncate = a := by
  have hbits (bits : UInt8) (hbits : bits.toNat < 0x8) :
      UInt8.ofNat (bits.toNat % 0x8) = bits := by
    rw [Nat.mod_eq_of_lt hbits, UInt8.ofNat_toNat]
  rw [truncate, Nat.mod_eq_of_lt h.language, hbits _ h.tokenType, hbits _ h.fontStyle,
    Nat.mod_eq_of_lt h.foreground, Nat.mod_eq_of_lt h.background]

end Attributes

namespace Metadata

/-- A packed word is the sum of its fields, each at its place. -/
theorem toNat_pack (a : Attributes) : (pack a).bits.toNat =
    a.language % 0x100 + a.tokenType.bits.toNat % 0x8 * 0x100 +
      a.fontStyle.bits.toNat % 0x8 * 0x800 + a.foreground % 0x200 * 0x4000 +
      a.background % 0x200 * 0x800000 := by
  rw [pack, UInt32.toNat_ofNat']
  omega

/-- Packing reduces each attribute to the width of its field. -/
theorem unpack_pack (a : Attributes) : (pack a).unpack = a.truncate := by
  -- The word is a number to mixed bases, whose digits are the truncated attributes.
  simp only [unpack, language, tokenType, fontStyle, foreground, background, toNat_pack,
    Attributes.truncate, Attributes.mk.injEq, TokenType.mk.injEq, FontStyle.mk.injEq]
  refine ⟨?_, congrArg UInt8.ofNat ?_, congrArg UInt8.ofNat ?_, ?_, ?_⟩ <;> omega

/-- The attributes of a word fit into their fields. -/
theorem fits_unpack (w : Metadata) : w.unpack.Fits where
  language := Nat.mod_lt _ (by decide)
  tokenType := by
    simp only [unpack, tokenType, UInt8.toNat_ofNat']
    omega
  fontStyle := by
    simp only [unpack, fontStyle, UInt8.toNat_ofNat']
    omega
  foreground := Nat.mod_lt _ (by decide)
  background := Nat.mod_lt _ (by decide)

end Metadata

/-- The values that the patch gives fit into their fields. -/
structure Patch.Fits (p : Patch) : Prop where
  language : ∀ language ∈ p.language, language < 0x100
  tokenType : ∀ type ∈ p.tokenType, type.bits.toNat < 0x8
  fontStyle : ∀ style ∈ p.fontStyle, style.bits.toNat < 0x8
  foreground : ∀ color ∈ p.foreground, color < 0x200
  background : ∀ color ∈ p.background, color < 0x200

/-- A patch that fits leaves attributes that fit. -/
theorem Patch.Fits.onto {p : Patch} (hp : p.Fits) {a : Attributes} (ha : a.Fits) :
    (p.onto a).Fits := by
  -- Each attribute is the value of the patch, or the old one without such a value.
  have hgetD {α : Type} {P : α → Prop} {new : Option α} {old : α} (hnew : ∀ value ∈ new, P value)
      (hold : P old) : P (new.getD old) := by
    cases new with
    | none => exact hold
    | some value => exact hnew value rfl
  exact ⟨hgetD hp.language ha.language, hgetD hp.tokenType ha.tokenType,
    hgetD hp.fontStyle ha.fontStyle, hgetD hp.foreground ha.foreground,
    hgetD hp.background ha.background⟩

namespace Metadata

/-- A patch that fits changes the attributes that it has, and no other ones. -/
theorem unpack_apply_of_fits (w : Metadata) {p : Patch} (h : p.Fits) :
    (w.apply p).unpack = p.onto w.unpack := by
  rw [apply, unpack_pack, (h.onto w.fits_unpack).truncate_eq]

end Metadata

end Textmate
