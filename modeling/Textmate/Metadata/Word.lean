import Textmate.Metadata.Flags

/-!
# Metadata words

The five highlighting attributes of a token packed into one word of 32 bits, bit 0 the least
significant:

* bits 0 to 7: the language,
* bits 8 to 10: the token type,
* bits 11 to 13: the font style,
* bits 14 to 22: the foreground color,
* bits 23 to 31: the background color.

Every attribute is reduced to the width of its field first, so none can spill into a neighbour.

Main statement: packing the attributes of a word gives the word (`pack_unpack`).
-/

namespace Textmate

/-- The highlighting attributes of a token. -/
structure Attributes where
  /-- Number of the language, zero for none. -/
  language : Nat
  /-- Class of the token. -/
  tokenType : TokenType
  fontStyle : FontStyle
  foreground : Nat
  background : Nat
  deriving Repr, DecidableEq, Inhabited

/-- The greatest language number that fits into its field. -/
def maxLanguage : Nat := 255

/-- The greatest color index that fits into its field. -/
def maxColor : Nat := 511

/-- A metadata word. -/
structure Metadata where
  bits : UInt32
  deriving Repr, DecidableEq, Inhabited

namespace Metadata

def none : Metadata := ⟨0⟩

/-- The word of the attributes. -/
def pack (a : Attributes) : Metadata :=
  ⟨UInt32.ofNat (a.language % 0x100 + a.tokenType.bits.toNat % 0x8 * 0x100 +
    a.fontStyle.bits.toNat % 0x8 * 0x800 + a.foreground % 0x200 * 0x4000 +
    a.background % 0x200 * 0x800000)⟩

def language (w : Metadata) : Nat := w.bits.toNat % 0x100

def tokenType (w : Metadata) : TokenType := ⟨UInt8.ofNat (w.bits.toNat / 0x100 % 0x8)⟩

def fontStyle (w : Metadata) : FontStyle := ⟨UInt8.ofNat (w.bits.toNat / 0x800 % 0x8)⟩

def foreground (w : Metadata) : Nat := w.bits.toNat / 0x4000 % 0x200

def background (w : Metadata) : Nat := w.bits.toNat / 0x800000 % 0x200

def unpack (w : Metadata) : Attributes :=
  ⟨w.language, w.tokenType, w.fontStyle, w.foreground, w.background⟩

/-- Packing the attributes of a word gives the word. -/
theorem pack_unpack (w : Metadata) : pack w.unpack = w := by
  obtain ⟨bits⟩ := w
  have hbits := bits.toNat_lt
  simp only [pack, unpack, language, tokenType, fontStyle, foreground, background,
    UInt8.toNat_ofNat', mk.injEq]
  -- The fields are the digits of the word to mixed bases, which add up to it.
  apply UInt32.toNat_inj.1
  simp only [UInt32.toNat_ofNat']
  omega

/-- The 32 binary digits of the word, the most significant first. -/
def binary (w : Metadata) : String :=
  String.ofList (Text.toPadded 2 32 w.bits.toNat)

/-- The eight hexadecimal digits of the word after `0x`. -/
def hex (w : Metadata) : String :=
  "0x" ++ String.ofList (Text.toPadded 16 8 w.bits.toNat)

/-- The fields of the word by their names. -/
def describe (w : Metadata) : String :=
  "MetadataWord \x7b language_id: " ++ Text.decimal w.language ++
    ", token_type: " ++ w.tokenType.describe ++ ", font_style: " ++ w.fontStyle.describe ++
    ", foreground: " ++ Text.decimal w.foreground ++
    ", background: " ++ Text.decimal w.background ++ " \x7d"

end Metadata

/-- New values for some of the attributes. -/
structure Patch where
  /-- The new language, if it changes. -/
  language : Option Nat
  /-- The new token type, if it changes. -/
  tokenType : Option TokenType
  /-- The new font style, if it changes. -/
  fontStyle : Option FontStyle
  /-- The new foreground color, if it changes. -/
  foreground : Option Nat
  /-- The new background color, if it changes. -/
  background : Option Nat
  deriving Repr, DecidableEq

namespace Patch

def empty : Patch := ⟨none, none, none, none, none⟩

/-- Takes each attribute from the patch if it changes it, and from the others if not. -/
def onto (p : Patch) (a : Attributes) : Attributes :=
  ⟨p.language.getD a.language, p.tokenType.getD a.tokenType, p.fontStyle.getD a.fontStyle,
    p.foreground.getD a.foreground, p.background.getD a.background⟩

end Patch

namespace Metadata

/-- The word with the attributes of a patch changed. -/
def apply (w : Metadata) (p : Patch) : Metadata :=
  pack (p.onto w.unpack)

end Metadata

namespace Attributes

/-- The attributes as a value. -/
def toJson (a : Attributes) : Json :=
  .ofMembers [("language_id", .natural a.language), ("token_type", a.tokenType.toJson),
    ("font_style", a.fontStyle.toJson), ("foreground", .natural a.foreground),
    ("background", .natural a.background)]

/-- The attributes that a document stands for. All of them have to be there. -/
def ofDocument? (document : Document) : Option Attributes := do
  let members ← document.record?
    ["language_id", "token_type", "font_style", "foreground", "background"] 5
  pure {
    language := ← members.required "language_id" Document.word?
    tokenType := ← members.required "token_type" TokenType.ofDocument?
    fontStyle := ← members.required "font_style" FontStyle.ofDocument?
    foreground := ← members.required "foreground" Document.word?
    background := ← members.required "background" Document.word? }

end Attributes

end Textmate
