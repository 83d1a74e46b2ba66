import Mathlib.Data.List.Infix
import Textmate.Text.Split

/-!
# Texts around separators

Cutting a text at a separator that stands somewhere in it cuts the two sides apart. So the pieces of
one text begin with those of another one when the text is the other one, or goes on with a separator
behind it; joining pieces is the way back.

## Key results

- `splitBy_append_cons`: the pieces around a separator
- `splitBy_intercalate`: the pieces of texts that are joined by a separator
- `split_isPrefix_iff`: which texts have pieces that begin with those of another text
-/

namespace List

variable {α : Type}

/-- Pieces that are joined in two parts have a separator between the parts. -/
theorem intercalate_append_cons {sep : List α} {pieces : List (List α)} (h : pieces ≠ [])
    (piece : List α) (more : List (List α)) :
    sep.intercalate (pieces ++ piece :: more) =
      sep.intercalate pieces ++ sep ++ sep.intercalate (piece :: more) := by
  induction pieces with
  | nil => exact absurd rfl h
  | cons first pieces ih =>
    cases pieces with
    | nil => simp [intercalate_cons_cons]
    | cons second pieces =>
      -- There is a separator behind the first piece, on both sides.
      rw [cons_append, cons_append, intercalate_cons_cons, intercalate_cons_cons, ← cons_append,
        ih (cons_ne_nil _ _)]
      simp

/-- What joined pieces consist of comes from the separator or from a piece. -/
theorem mem_of_mem_intercalate {sep : List α} {pieces : List (List α)} {a : α}
    (h : a ∈ sep.intercalate pieces) : a ∈ sep ∨ ∃ piece ∈ pieces, a ∈ piece := by
  induction pieces with
  | nil => simp at h
  | cons first pieces ih =>
    cases pieces with
    | nil => exact .inr ⟨first, mem_cons_self, by simpa using h⟩
    | cons second pieces =>
      rw [intercalate_cons_cons, append_assoc, mem_append, mem_append] at h
      obtain hfirst | hsep | hrest := h
      · exact .inr ⟨first, mem_cons_self, hfirst⟩
      · exact .inl hsep
      · exact (ih hrest).imp_right fun ⟨piece, hmem, ha⟩ => ⟨piece, mem_cons_of_mem _ hmem, ha⟩

end List

namespace Textmate.Text

/-! ## The two sides of a separator -/

/-- The pieces around a separator are those in front of it and those behind it. -/
theorem splitBy_append_cons {isSep : Char → Bool} {sep : Char} (h : isSep sep = true)
    (before after : List Char) :
    splitBy isSep (before ++ sep :: after) = splitBy isSep before ++ splitBy isSep after := by
  induction before with
  | nil => exact splitBy_cons_sep h after
  | cons c before ih =>
    rw [List.cons_append]
    cases hc : isSep c with
    | true => rw [splitBy_cons_sep hc, splitBy_cons_sep hc, ih, List.cons_append]
    | false =>
      rw [splitBy_cons_other hc, splitBy_cons_other hc]
      -- The character joins the first piece, which is the same on both sides.
      simp only [splitBy, List.cons_append, List.cons.injEq] at ih
      rw [ih.1, ih.2, List.cons_append, splitBy]

/-- The pieces of joined texts are those of the texts. -/
theorem splitBy_intercalate {isSep : Char → Bool} {sep : Char} (h : isSep sep = true)
    {texts : List (List Char)} (hne : texts ≠ []) :
    splitBy isSep ([sep].intercalate texts) = texts.flatMap (splitBy isSep) := by
  induction texts with
  | nil => exact absurd rfl hne
  | cons first texts ih =>
    cases texts with
    | nil => simp
    | cons second texts =>
      rw [List.flatMap_cons, List.intercalate_cons_cons, List.append_assoc, List.singleton_append,
        splitBy_append_cons h, ih (List.cons_ne_nil _ _)]

/-- Pieces consist of characters of the text. -/
theorem mem_of_mem_splitBy {isSep : Char → Bool} {cs piece : List Char}
    (h : piece ∈ splitBy isSep cs) : ∀ c ∈ piece, c ∈ cs := by
  induction cs generalizing piece with
  | nil => simp_all
  | cons c cs ih =>
    intro d hd
    cases hc : isSep c with
    | true =>
      -- A separator begins a new piece, and any other character goes on with one.
      rw [splitBy_cons_sep hc, List.mem_cons] at h
      rcases h with rfl | h
      · simp at hd
      · exact List.mem_cons_of_mem _ (ih h d hd)
    | false =>
      rw [splitBy_cons_other hc, List.mem_cons] at h
      rcases h with rfl | h
      · rcases List.mem_cons.1 hd with rfl | hd
        · exact List.mem_cons_self
        · exact List.mem_cons_of_mem _ (ih (by simp [splitBy]) d hd)
      · exact List.mem_cons_of_mem _ (ih (by simp [splitBy, h]) d hd)

/-! ## Pieces in front of other pieces -/

section

variable {sep : Char} {start cs : List Char}

/-- A text is cut apart at a separator. -/
theorem split_append_cons (sep : Char) (before after : List Char) :
    split sep (before ++ sep :: after) = split sep before ++ split sep after :=
  @splitBy_append_cons (· == sep) sep (beq_self_eq_true sep) before after

/-- Different texts have different pieces. -/
theorem split_injective (sep : Char) : Function.Injective (split sep) :=
  Function.LeftInverse.injective (g := [sep].intercalate) (intercalate_split sep)

/-- The pieces of a text begin with those of another one exactly when the text is the other one or
goes on with a separator behind it. -/
theorem split_isPrefix_iff :
    split sep start <+: split sep cs ↔ cs = start ∨ ∃ rest, cs = start ++ sep :: rest := by
  constructor
  · rintro ⟨more, hmore⟩
    -- Joining the pieces gives the text back.
    have hcs : [sep].intercalate (split sep start ++ more) = cs := by rw [hmore, intercalate_split]
    cases more with
    | nil =>
      rw [List.append_nil, intercalate_split] at hcs
      exact Or.inl hcs.symm
    | cons piece more =>
      -- The pieces that are left begin behind a separator.
      rw [List.intercalate_append_cons (by simp [split, splitBy]), intercalate_split] at hcs
      exact Or.inr ⟨[sep].intercalate (piece :: more), by simp [← hcs]⟩
  · rintro (rfl | ⟨rest, rfl⟩)
    · exact List.prefix_refl _
    · rw [split_append_cons]
      exact List.prefix_append _ _

end

/-! ## Strings -/

/-- Different strings have different pieces. -/
theorem splitString_injective (sep : Char) : Function.Injective (splitString sep) := by
  intro a b h
  have hpieces := List.map_injective_iff.2 (fun _ _ => String.ofList_injective) h
  exact String.toList_injective (split_injective sep hpieces)

/-- The pieces of a string begin with those of another one when the string is that one or goes on
with a separator. -/
theorem splitString_isPrefix_iff {sep : Char} {start text : String} :
    splitString sep start <+: splitString sep text ↔
      text.toList = start.toList ∨ ∃ rest, text.toList = start.toList ++ sep :: rest := by
  rw [splitString, splitString, List.prefix_map_iff_of_injective fun _ _ => String.ofList_injective,
    split_isPrefix_iff]

/-- A text without the separator is its own single piece. -/
theorem splitString_of_not_mem {sep : Char} {name : String} (h : sep ∉ name.toList) :
    splitString sep name = [name] := by
  have hsingle : split sep name.toList = [name.toList] :=
    splitBy_eq_singleton fun c hc => beq_false_of_ne fun heq => h (heq ▸ hc)
  rw [splitString, hsingle, List.map_singleton, String.ofList_toList]

/-- Behind a separator, a text without it is the last piece. -/
theorem splitString_append {sep : Char} {name : String} (hname : sep ∉ name.toList)
    (text : String) :
    splitString sep (text ++ String.singleton sep ++ name) = splitString sep text ++ [name] := by
  rw [← splitString_of_not_mem hname, splitString, splitString, splitString, ← List.map_append,
    ← split_append_cons]
  simp

/-- The pieces of joined strings are those of the strings. -/
theorem splitString_joinWith (sep : Char) {texts : List String} (hne : texts ≠ []) :
    splitString sep (joinWith (String.singleton sep) texts) = texts.flatMap (splitString sep) := by
  have hlist : texts.map String.toList ≠ [] := by simpa using hne
  have hsplit := @splitBy_intercalate (· == sep) sep (beq_self_eq_true sep) _ hlist
  rw [splitString, joinWith, String.toList_intercalate, String.toList_singleton, split, hsplit,
    List.flatMap_map, List.map_flatMap]
  rfl

end Textmate.Text
