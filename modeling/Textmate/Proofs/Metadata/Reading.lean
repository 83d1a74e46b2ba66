import Mathlib.Algebra.Group.Nat.Defs
import Textmate.Metadata.Reader
import Textmate.Proofs.Text.Digits

/-!
# Written words read back

A metadata word is written in three ways: as a decimal number, in hexadecimal digits behind `0x` and
in binary digits. Each of them is read as the word, the binary digits behind `0b`, wherever
underscores are inserted in it and whatever white space is put around it. A number that has no place
in a word is refused in any base.

## Key results

- `trim_append`: white space around a text
- `read_of_spells`: what is read from a text that spells a number
- `read_written`: written words read back
-/

namespace Textmate

namespace Text

variable {before inner after : List Char}

/-- A printable character is no white space. -/
private theorem isBlank_of_printable {c : Char} (hlow : 0x20 < c.toNat) (hhigh : c.toNat < 0x7F) :
    isBlank c = false := by
  -- There are few such characters, so all of them are tried.
  have hall : ∀ n < 0x7F, 0x20 < n → inRanges blankRanges n = false := by decide
  exact hall c.toNat hhigh hlow

/-- White space at the start is taken away. -/
private theorem trimStart_append (hbefore : ∀ c ∈ before, isBlank c = true) (cs : List Char) :
    trimStart (before ++ cs) = trimStart cs :=
  List.dropWhile_append_of_pos hbefore

/-- A text that starts with something else stays. -/
private theorem trimStart_of_not_blank (hinner : ∀ c ∈ inner, isBlank c = false)
    (hne : inner ≠ []) (cs : List Char) : trimStart (inner ++ cs) = inner ++ cs := by
  obtain ⟨c, rest, rfl⟩ := List.exists_cons_of_ne_nil hne
  exact List.dropWhile_cons_of_neg (by simp [hinner c List.mem_cons_self])

/-- White space around a text without white space is what is taken away. -/
theorem trim_append (hbefore : ∀ c ∈ before, isBlank c = true)
    (hinner : ∀ c ∈ inner, isBlank c = false) (hafter : ∀ c ∈ after, isBlank c = true)
    (hne : inner ≠ []) : trim (before ++ (inner ++ after)) = inner := by
  -- The end is trimmed as the start of the reversed text.
  have hreverse : ∀ c ∈ inner.reverse, isBlank c = false := fun c hc =>
    hinner c (List.mem_reverse.1 hc)
  have hstart := trimStart_of_not_blank hreverse (by simpa using hne) []
  rw [List.append_nil] at hstart
  rw [trim, trimStart_append hbefore, trimStart_of_not_blank hinner hne, List.reverse_append,
    trimStart_append fun c hc => hafter c (List.mem_reverse.1 hc), hstart, List.reverse_reverse]

end Text

namespace Metadata

/-! ## Underscores and white space -/

/-- The second text is the first one with underscores inserted. -/
inductive Underscored : List Char → List Char → Prop
  | nil : Underscored [] []
  | cons (c : Char) {plain spaced : List Char} (h : Underscored plain spaced) :
    Underscored (c :: plain) (c :: spaced)
  | underscore {plain spaced : List Char} (h : Underscored plain spaced) :
    Underscored plain ('_' :: spaced)

/-- The text has underscores inserted and then white space around it. -/
def Spaced (plain : List Char) (text : String) : Prop :=
  ∃ before inner after : List Char, text.toList = before ++ (inner ++ after) ∧
    Underscored plain inner ∧ (∀ c ∈ before, Text.isBlank c = true) ∧
    ∀ c ∈ after, Text.isBlank c = true

section

variable {plain spaced : List Char}

/-- Without underscores the text is what it was. -/
private theorem Underscored.filter_eq (h : Underscored plain spaced) (hplain : '_' ∉ plain) :
    spaced.filter (· ≠ '_') = plain := by
  induction h with
  | nil => rfl
  | cons c _ ih =>
    obtain ⟨hc, hrest⟩ := not_or.1 (mt List.mem_cons.2 hplain)
    rw [List.filter_cons_of_pos (by simpa using Ne.symm hc), ih hrest]
  | underscore _ ih => rw [List.filter_cons_of_neg (by simp), ih hplain]

/-- Only underscores were inserted. -/
private theorem Underscored.mem (h : Underscored plain spaced) {c : Char} (hc : c ∈ spaced) :
    c ∈ plain ∨ c = '_' := by
  induction h with
  | nil => cases hc
  | cons d _ ih =>
    rcases List.mem_cons.1 hc with rfl | hc
    · exact Or.inl List.mem_cons_self
    · exact (ih hc).imp_left (List.mem_cons_of_mem d)
  | underscore _ ih =>
    rcases List.mem_cons.1 hc with rfl | hc
    · exact Or.inr rfl
    · exact ih hc

/-- Inserting leaves no text empty. -/
private theorem Underscored.ne_nil (h : Underscored plain spaced) (hne : plain ≠ []) :
    spaced ≠ [] := by
  cases h with
  | nil => exact hne
  | cons => exact List.cons_ne_nil _ _
  | underscore => exact List.cons_ne_nil _ _

/-- Without underscores and white space the text is what it was. -/
private theorem Spaced.filter_trim_eq {text : String} (h : Spaced plain text) (hne : plain ≠ [])
    (hplain : ∀ c ∈ plain, c ≠ '_' ∧ Text.isBlank c = false) :
    (Text.trim text.toList).filter (· ≠ '_') = plain := by
  obtain ⟨before, inner, after, htext, hinner, hbefore, hafter⟩ := h
  -- Underscores are no white space either, so they stay when the text is trimmed.
  have hvisible : ∀ c ∈ inner, Text.isBlank c = false := by
    intro c hc
    rcases hinner.mem hc with hplainc | rfl
    · exact (hplain c hplainc).2
    · decide
  rw [htext, Text.trim_append hbefore hvisible hafter (hinner.ne_nil hne)]
  exact hinner.filter_eq fun hmem => (hplain '_' hmem).1 rfl

end

/-! ## Numbers -/

/-- What stands in front of the digits of a base. -/
inductive Marks : List Char → Nat → Prop
  | decimal : Marks [] 10
  | hexadecimal : Marks ['0', 'x'] 16
  | binary : Marks ['0', 'b'] 2

/-- The text has digits of a base that make up the number, behind the mark of the base and with or
without a plus sign. -/
inductive Spells : List Char → Nat → Prop
  | intro {mark sign digits : List Char} {base n : Nat} (hmark : Marks mark base)
    (hsign : sign = [] ∨ sign = ['+']) (hne : digits ≠ [])
    (hdigits : Text.ofDigits? base digits = some n) : Spells (mark ++ (sign ++ digits)) n

section

variable {plain : List Char} {base n : Nat}

/-- The bases have at least two digits. -/
private theorem Marks.two_le {mark : List Char} (h : Marks mark base) : 2 ≤ base := by
  cases h <;> decide

/-- The base is read off its mark. -/
private theorem Marks.baseAndDigits_eq {mark sign digits : List Char} (h : Marks mark base)
    (hsign : sign = [] ∨ sign = ['+']) (hdigits : Text.ofDigits? base digits = some n) :
    baseAndDigits (mark ++ (sign ++ digits)) = (base, sign ++ digits) := by
  cases h with
  | hexadecimal => rfl
  | binary => rfl
  | decimal =>
    -- The letters of the other marks are no decimal digits.
    have hletter (c : Char) (hc : Text.digitValue? 10 c = Option.none) : c ∉ digits := by
      intro hmem
      have hsome := Text.isSome_digitValue?_of_mem hdigits c hmem
      rw [hc] at hsome
      cases hsome
    have hx := hletter 'x' (by decide)
    have hb := hletter 'b' (by decide)
    rcases hsign with rfl | rfl
    · rw [List.nil_append, List.nil_append]
      unfold baseAndDigits
      split
      · simp at hx
      · simp at hb
      · rfl
    · rfl

/-- Marks have neither underscores nor white space. -/
private theorem Marks.visible {mark : List Char} (h : Marks mark base) :
    ∀ c ∈ mark, c ≠ '_' ∧ Text.isBlank c = false := by
  have hall : (mark.all fun c => c != '_' && !Text.isBlank c) = true := by cases h <;> decide
  simpa using hall

/-- Spelled numbers have neither underscores nor white space. -/
private theorem Spells.visible (h : Spells plain n) :
    ∀ c ∈ plain, c ≠ '_' ∧ Text.isBlank c = false := by
  obtain ⟨hmark, hsign, -, hdigits⟩ := h
  intro c hc
  -- A character belongs to the mark, to the sign or to the digits.
  rcases List.mem_append.1 hc with hc | hc
  · exact hmark.visible c hc
  rcases List.mem_append.1 hc with hc | hc
  · rcases hsign with rfl | rfl
    · cases hc
    · obtain rfl := List.mem_singleton.1 hc
      decide
  · -- Digits are letters and numerals of the printable range.
    have hdigit :=
      Text.alphanumeric_of_digitValue? (Text.isSome_digitValue?_of_mem hdigits c hc)
    refine ⟨?_, Text.isBlank_of_printable (by omega) (by omega)⟩
    rintro rfl
    revert hdigit
    decide

/-- A number is spelled with at least one digit. -/
private theorem Spells.ne_nil (h : Spells plain n) : plain ≠ [] := by
  obtain ⟨-, -, hne, -⟩ := h
  simp [hne]

/-- From a text that spells a number, the word with the number is read if there is one. -/
theorem read_of_spells (h : Spells plain n) {text : String} (hspaced : Spaced plain text) :
    read text = if n < UInt32.size then .ok ⟨UInt32.ofNat n⟩ else .error .tooLarge := by
  -- White space and underscores are gone before the mark of the base is looked for.
  have hplain := hspaced.filter_trim_eq h.ne_nil h.visible
  obtain ⟨hmark, hsign, hne, hdigits⟩ := h
  have hbase := hmark.two_le
  have hbound : 0 < UInt32.size := by decide
  -- The digits are read with the sign in front of them.
  have hnumber := Text.readNumber_of_ofDigits? (by omega) hbound hsign hne hdigits
  rw [read, hplain, hmark.baseAndDigits_eq hsign hdigits]
  dsimp only
  rw [hnumber]
  split <;> rfl

end

/-! ## Words -/

/-- The ways in which a word is written. -/
private theorem spells_decimal (w : Metadata) :
    Spells (Text.decimal w.bits.toNat).toList w.bits.toNat := by
  rw [Text.decimal, String.toList_ofList]
  exact .intro .decimal (.inl rfl) (Text.toDigits_ne_nil _ _)
    (Text.ofDigits?_toDigits (by decide) (by decide) _)

/-- Hexadecimal digits are written behind their mark. -/
private theorem spells_hex (w : Metadata) : Spells w.hex.toList w.bits.toNat := by
  have hlist : w.hex.toList = ['0', 'x'] ++ ([] ++ Text.toPadded 16 8 w.bits.toNat) := by simp [hex]
  rw [hlist]
  exact .intro .hexadecimal (.inl rfl) (Text.toPadded_ne_nil _ _ _)
    (Text.ofDigits?_toPadded (by decide) (by decide) _ _)

/-- Binary digits are written without a mark, which is put in front of them. -/
private theorem spells_binary (w : Metadata) : Spells ("0b" ++ w.binary).toList w.bits.toNat := by
  have hlist : ("0b" ++ w.binary).toList =
      ['0', 'b'] ++ ([] ++ Text.toPadded 2 32 w.bits.toNat) := by simp [binary]
  rw [hlist]
  exact .intro .binary (.inl rfl) (Text.toPadded_ne_nil _ _ _)
    (Text.ofDigits?_toPadded (by decide) (by decide) _ _)

/-- A written word is read back, wherever underscores are inserted in it and whatever white space is
put around it; and a text that spells a number of more than 32 bits is refused. -/
theorem read_written :
    (∀ (w : Metadata) (form : String),
      form ∈ [Text.decimal w.bits.toNat, w.hex, "0b" ++ w.binary] →
        ∀ text, Spaced form.toList text → read text = .ok w) ∧
    ∀ (plain : List Char) (n : Nat) (text : String), Spells plain n → 2 ^ 32 ≤ n →
      Spaced plain text → read text = .error .tooLarge := by
  constructor
  · intro w form hform text hspaced
    -- All three forms spell the number of the word, with digits of their own.
    have hspells : Spells form.toList w.bits.toNat := by
      simp only [List.mem_cons, List.not_mem_nil, or_false] at hform
      rcases hform with rfl | rfl | rfl
      · exact spells_decimal w
      · exact spells_hex w
      · exact spells_binary w
    rw [read_of_spells hspells hspaced, if_pos w.bits.toNat_lt, UInt32.ofNat_toNat]
  · intro plain n text hspells hlarge hspaced
    have hsize : ¬ n < UInt32.size := Nat.not_lt.2 hlarge
    rw [read_of_spells hspells hspaced, if_neg hsize]

/-- Hexadecimal digits with underscores between blanks are read, and the first number that has no
place in a word is not. -/
theorem read_written_of_underscores :
    (Spaced (hex ⟨0x804201⟩).toList " 0x_0080_4201\t" ∧
      read " 0x_0080_4201\t" = .ok ⟨0x804201⟩) ∧
    (Spells "4294967296".toList (2 ^ 32) ∧ Spaced "4294967296".toList "4_294967296__" ∧
      read "4_294967296__" = .error .tooLarge) := by
  have hhex : hex ⟨0x804201⟩ = "0x00804201" := by decide +kernel
  -- The first character stays first, and underscores come anywhere behind it.
  have hspaced : Spaced (hex ⟨0x804201⟩).toList " 0x_0080_4201\t" := by
    rw [hhex]
    refine ⟨[' '], "0x_0080_4201".toList, ['\t'], by decide, ?_, by simp; decide, by simp; decide⟩
    exact .cons _ (.cons _ (.underscore (.cons _ (.cons _ (.cons _ (.cons _ (.underscore
      (.cons _ (.cons _ (.cons _ (.cons _ .nil)))))))))))
  have hspells : Spells "4294967296".toList (2 ^ 32) :=
    .intro .decimal (.inl rfl) (by decide) (by decide)
  have hlarge : Spaced "4294967296".toList "4_294967296__" := by
    refine ⟨[], "4_294967296__".toList, [], by decide, ?_, by simp, by simp⟩
    exact .cons _ (.underscore (.cons _ (.cons _ (.cons _ (.cons _ (.cons _ (.cons _ (.cons _
      (.cons _ (.cons _ (.underscore (.underscore .nil))))))))))))
  obtain ⟨hread, hrefuse⟩ := read_written
  exact ⟨⟨hspaced, hread ⟨0x804201⟩ _ (by simp) _ hspaced⟩,
    hspells, hlarge, hrefuse _ _ _ hspells (Nat.le_refl _) hlarge⟩

end Metadata

end Textmate
