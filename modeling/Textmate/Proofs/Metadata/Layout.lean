import Mathlib.Algebra.Group.Nat.Defs
import Textmate.Proofs.Metadata.Fields

/-!
# The layout of metadata words

Renderers read metadata words by masks, so the place of each field in the word matters. A packed
word is the union of the attributes, each shifted to the offset of its field and cut to the mask of
the field; an attribute is read by cutting the word to the mask and shifting it back.

As the masks are disjoint and cover the word, packing and unpacking are inverse to each other up to
the widths of the fields.

## Key results

- `bits_pack_eq_or`: a packed word is the union of its fields
- `unpack_eq_masked`: the attributes of a word are its bits under the masks
- `pack_unpack_codec`: words correspond to attributes modulo the widths of the fields
-/

namespace Textmate.Metadata

/-! ## One field -/

/-- The field of `width` bits from bit `shift` on, by the shift to it and the mask that cuts it. -/
structure IsField (offset mask : UInt32) (shift width : Nat) : Prop where
  offset_eq : offset.toNat = shift
  mask_eq : mask.toNat = (2 ^ width - 1) <<< shift
  width_pos : 0 < width
  /-- The field lies inside the word. -/
  fits : shift + width ≤ 32

namespace IsField

variable {offset mask : UInt32} {shift width : Nat}

/-- Shifting a number to a field and cutting it to the mask keeps the low digits of the number. -/
private theorem toNat_shiftLeft_and (h : IsField offset mask shift width) (x : UInt32) :
    (x <<< offset &&& mask).toNat = x.toNat % 2 ^ width * 2 ^ shift := by
  have hpos := h.width_pos
  have hfits := h.fits
  have hshift : shift % 32 = shift := Nat.mod_eq_of_lt (by omega)
  rw [UInt32.toNat_and, UInt32.toNat_shiftLeft, h.offset_eq, h.mask_eq, hshift]
  -- Both sides have the same bits: below the field none, in it those of the number, above it none.
  apply Nat.eq_of_testBit_eq
  intro i
  rw [Nat.testBit_and, Nat.testBit_mod_two_pow, Nat.testBit_shiftLeft, Nat.testBit_shiftLeft,
    Nat.testBit_two_pow_sub_one, Nat.testBit_mul_two_pow, Nat.testBit_mod_two_pow]
  by_cases hlow : shift ≤ i
  · by_cases hhigh : i - shift < width
    · have hword : i < 32 := by omega
      simp [hlow, hhigh, hword]
    · simp [hlow, hhigh]
  · simp [hlow]

/-- Cutting a word to a mask and shifting it back reads the digits of the field. -/
private theorem toNat_and_shiftRight (h : IsField offset mask shift width) (x : UInt32) :
    ((x &&& mask) >>> offset).toNat = x.toNat / 2 ^ shift % 2 ^ width := by
  have hpos := h.width_pos
  have hfits := h.fits
  have hshift : shift % 32 = shift := Nat.mod_eq_of_lt (by omega)
  rw [UInt32.toNat_shiftRight, UInt32.toNat_and, h.offset_eq, h.mask_eq, hshift,
    Nat.shiftRight_and_distrib, Nat.shiftLeft_shiftRight, Nat.and_two_pow_sub_one_eq_mod,
    Nat.shiftRight_eq_div_pow]

end IsField

/-- The eight lowest bits have the language. -/
private theorem isField_language : IsField 0 0x000000FF 0 8 := ⟨rfl, rfl, by decide, by decide⟩

/-- The next three bits have the token type. -/
private theorem isField_tokenType : IsField 8 0x00000700 8 3 := ⟨rfl, rfl, by decide, by decide⟩

/-- The next three bits have the font style. -/
private theorem isField_fontStyle : IsField 11 0x00003800 11 3 := ⟨rfl, rfl, by decide, by decide⟩

/-- The next nine bits have the foreground. -/
private theorem isField_foreground : IsField 14 0x007FC000 14 9 := ⟨rfl, rfl, by decide, by decide⟩

/-- The nine highest bits have the background. -/
private theorem isField_background : IsField 23 0xFF800000 23 9 := ⟨rfl, rfl, by decide, by decide⟩

/-! ## All fields -/

/-- A field above a number adds to it. -/
private theorem or_field {low : Nat} (shift field : Nat) (h : low < 2 ^ shift) :
    low ||| field * 2 ^ shift = low + field * 2 ^ shift := by
  rw [Nat.mul_comm, Nat.or_comm, ← Nat.two_pow_add_eq_or_of_lt h, Nat.add_comm]

/-- A packed word is the union of its attributes, each shifted to its field and cut to it. -/
theorem bits_pack_eq_or (language foreground background : UInt32) (type : TokenType)
    (style : FontStyle) :
    (pack ⟨language.toNat, type, style, foreground.toNat, background.toNat⟩).bits =
      (language <<< (0 : UInt32) &&& 0x000000FF) |||
      (type.bits.toUInt32 <<< (8 : UInt32) &&& 0x00000700) |||
      (style.bits.toUInt32 <<< (11 : UInt32) &&& 0x00003800) |||
      (foreground <<< (14 : UInt32) &&& 0x007FC000) |||
      (background <<< (23 : UInt32) &&& 0xFF800000) := by
  apply UInt32.toNat_inj.1
  rw [toNat_pack, UInt32.toNat_or, UInt32.toNat_or, UInt32.toNat_or, UInt32.toNat_or,
    isField_language.toNat_shiftLeft_and, isField_tokenType.toNat_shiftLeft_and,
    isField_fontStyle.toNat_shiftLeft_and, isField_foreground.toNat_shiftLeft_and,
    isField_background.toNat_shiftLeft_and, UInt8.toNat_toUInt32, UInt8.toNat_toUInt32]
  -- Each field lies above the ones before it, so it adds to them.
  rw [or_field 8 _ (by omega), or_field 11 _ (by omega), or_field 14 _ (by omega),
    or_field 23 _ (by omega)]
  dsimp only
  omega

/-- The attributes of a word are its bits under the masks, shifted back. -/
theorem unpack_eq_masked (w : Metadata) :
    w.unpack =
      ⟨((w.bits &&& 0x000000FF) >>> (0 : UInt32)).toNat,
        ⟨((w.bits &&& 0x00000700) >>> (8 : UInt32)).toUInt8⟩,
        ⟨((w.bits &&& 0x00003800) >>> (11 : UInt32)).toUInt8⟩,
        ((w.bits &&& 0x007FC000) >>> (14 : UInt32)).toNat,
        ((w.bits &&& 0xFF800000) >>> (23 : UInt32)).toNat⟩ := by
  -- The flags of a word are cut down to bytes.
  have hflags (x : UInt32) : x.toUInt8 = UInt8.ofNat x.toNat := rfl
  rw [hflags, hflags, isField_language.toNat_and_shiftRight,
    isField_tokenType.toNat_and_shiftRight, isField_fontStyle.toNat_and_shiftRight,
    isField_foreground.toNat_and_shiftRight, isField_background.toNat_and_shiftRight, Nat.pow_zero,
    Nat.div_one]
  rfl

/-! ## Packing and unpacking -/

/-- Two packed words are equal exactly when all attributes agree modulo the widths of the fields. -/
private theorem pack_eq_pack_iff (a b : Attributes) :
    pack a = pack b ↔
      a.language % 2 ^ 8 = b.language % 2 ^ 8 ∧
      a.tokenType.bits.toNat % 2 ^ 3 = b.tokenType.bits.toNat % 2 ^ 3 ∧
      a.fontStyle.bits.toNat % 2 ^ 3 = b.fontStyle.bits.toNat % 2 ^ 3 ∧
      a.foreground % 2 ^ 9 = b.foreground % 2 ^ 9 ∧
      a.background % 2 ^ 9 = b.background % 2 ^ 9 := by
  constructor
  · intro h
    -- The fields are the digits of the word, so equal words have equal fields.
    have hbits : (pack a).bits.toNat = (pack b).bits.toNat := by rw [h]
    rw [toNat_pack, toNat_pack] at hbits
    omega
  · rintro ⟨hlanguage, htype, hstyle, hforeground, hbackground⟩
    have hbits : (pack a).bits.toNat = (pack b).bits.toNat := by
      rw [toNat_pack, toNat_pack]
      omega
    exact congrArg mk (UInt32.toNat_inj.1 hbits)

/-- Words correspond to attributes modulo the widths of the fields: packing the attributes of a word
gives the word, unpacking packed attributes gives each of them modulo the width of its field,
whatever the other ones are, and packed words are equal exactly when all attributes agree modulo
these widths. -/
theorem pack_unpack_codec :
    (∀ w : Metadata, pack w.unpack = w) ∧
    (∀ a : Attributes,
      (pack a).unpack.language = a.language % 2 ^ 8 ∧
      (pack a).unpack.tokenType.bits.toNat = a.tokenType.bits.toNat % 2 ^ 3 ∧
      (pack a).unpack.fontStyle.bits.toNat = a.fontStyle.bits.toNat % 2 ^ 3 ∧
      (pack a).unpack.foreground = a.foreground % 2 ^ 9 ∧
      (pack a).unpack.background = a.background % 2 ^ 9) ∧
    ∀ a b : Attributes, pack a = pack b ↔
      a.language % 2 ^ 8 = b.language % 2 ^ 8 ∧
      a.tokenType.bits.toNat % 2 ^ 3 = b.tokenType.bits.toNat % 2 ^ 3 ∧
      a.fontStyle.bits.toNat % 2 ^ 3 = b.fontStyle.bits.toNat % 2 ^ 3 ∧
      a.foreground % 2 ^ 9 = b.foreground % 2 ^ 9 ∧
      a.background % 2 ^ 9 = b.background % 2 ^ 9 := by
  refine ⟨pack_unpack, fun a => ?_, pack_eq_pack_iff⟩
  -- Flags are kept in bytes, which have room for three bits.
  have hflags (bits : UInt8) : (UInt8.ofNat (bits.toNat % 0x8)).toNat = bits.toNat % 2 ^ 3 := by
    rw [UInt8.toNat_ofNat']
    omega
  rw [unpack_pack]
  exact ⟨rfl, hflags a.tokenType.bits, hflags a.fontStyle.bits, rfl, rfl⟩

end Textmate.Metadata
