/-!
# Cutting texts into pieces

A text is cut at separators into pieces, which may be empty. `cut` keeps the first piece apart, so
that the list of pieces is never empty by its type; `split` and `splitOnce` are the two ways in
which the rest of the library asks for pieces.

Main statements: no character is lost (`intercalate_split`), no piece holds a separator
(`not_mem_of_mem_splitBy`), and `splitOnce` cuts at the first separator (`splitOnce_eq_some_iff`).
-/

namespace Textmate.Text

/-- Cuts a text at every character of a class: the piece before the first separator, and the
pieces after each of the separators. -/
def cut (isSep : Char → Bool) : List Char → List Char × List (List Char)
  | [] => ([], [])
  | c :: cs =>
    let (piece, rest) := cut isSep cs
    if isSep c then ([], piece :: rest) else (c :: piece, rest)

/-- The pieces of a text between separators of a class, in order. There is one more piece than
there are separators. -/
def splitBy (isSep : Char → Bool) (cs : List Char) : List (List Char) :=
  (cut isSep cs).1 :: (cut isSep cs).2

/-- The pieces of a text between the occurrences of one character. -/
def split (sep : Char) (cs : List Char) : List (List Char) :=
  splitBy (· == sep) cs

/-- The text before and after the first occurrence of a character. -/
def splitOnce (sep : Char) : List Char → Option (List Char × List Char)
  | [] => none
  | c :: cs =>
    if c = sep then some ([], cs)
    else (splitOnce sep cs).map fun (before, after) => (c :: before, after)

/-- The rest of a text after a given start. -/
def afterStart? : List Char → List Char → Option (List Char)
  | [], cs => some cs
  | s :: start, c :: cs => if s = c then afterStart? start cs else none
  | _ :: _, [] => none

/-- The pieces of a string between the occurrences of one character, as strings. -/
def splitString (sep : Char) (s : String) : List String :=
  (split sep s.toList).map String.ofList

def joinWith (sep : String) (parts : List String) : String :=
  sep.intercalate parts

/-- The empty text is one empty piece. -/
@[simp] theorem splitBy_nil (isSep : Char → Bool) : splitBy isSep [] = [[]] := rfl

/-- A separator ends an empty piece. -/
theorem splitBy_cons_sep {isSep : Char → Bool} {c : Char} (h : isSep c = true) (cs : List Char) :
    splitBy isSep (c :: cs) = [] :: splitBy isSep cs := by
  simp [splitBy, cut, h]

/-- Another character goes in front of the first piece. -/
theorem splitBy_cons_other {isSep : Char → Bool} {c : Char} (h : isSep c = false) (cs : List Char) :
    splitBy isSep (c :: cs) = (c :: (cut isSep cs).1) :: (cut isSep cs).2 := by
  simp [splitBy, cut, h]

/-- Without a separator the text is its own single piece. -/
theorem splitBy_eq_singleton {isSep : Char → Bool} {cs : List Char}
    (h : ∀ c ∈ cs, isSep c = false) : splitBy isSep cs = [cs] := by
  induction cs with
  | nil => rfl
  | cons c cs ih =>
    have hc := h c (by simp)
    have hcs := ih fun d hd => h d (by simp [hd])
    simp only [splitBy, List.cons.injEq] at hcs
    simp [splitBy_cons_other hc, hcs.1, hcs.2]

/-- Pieces hold no separator. -/
theorem not_mem_of_mem_splitBy {isSep : Char → Bool} {cs piece : List Char}
    (h : piece ∈ splitBy isSep cs) : ∀ c ∈ piece, isSep c = false := by
  induction cs generalizing piece with
  | nil =>
    simp only [splitBy_nil, List.mem_singleton] at h
    simp [h]
  | cons c cs ih =>
    cases hc : isSep c with
    | true =>
      rw [splitBy_cons_sep hc, List.mem_cons] at h
      rcases h with rfl | h
      · simp
      · exact ih h
    | false =>
      rw [splitBy_cons_other hc, List.mem_cons] at h
      rcases h with rfl | h
      · intro d hd
        -- The first piece is this character with the first piece of the rest.
        rcases List.mem_cons.1 hd with rfl | hd
        · exact hc
        · exact ih (by simp [splitBy]) d hd
      · exact ih (by simp [splitBy, h])

/-- The pieces joined by the separator give the text back. -/
theorem intercalate_split (sep : Char) (cs : List Char) :
    [sep].intercalate (split sep cs) = cs := by
  induction cs with
  | nil => rfl
  | cons c cs ih =>
    unfold split at *
    cases hc : c == sep with
    | true =>
      obtain rfl : c = sep := by simpa using hc
      rw [splitBy_cons_sep (by simp)]
      simpa [splitBy, List.intercalate] using ih
    | false =>
      rw [splitBy_cons_other (by simpa using hc)]
      unfold splitBy at ih
      -- The character belongs to the first piece, behind which others may follow.
      cases hrest : (cut (· == sep) cs).2 with
      | nil => simpa [hrest, List.intercalate] using ih
      | cons piece rest => simpa [hrest, List.intercalate] using ih

/-- `splitOnce` cuts at the first occurrence. -/
theorem splitOnce_eq_some_iff {sep : Char} {cs before after : List Char} :
    splitOnce sep cs = some (before, after) ↔ cs = before ++ sep :: after ∧ sep ∉ before := by
  induction cs generalizing before with
  | nil => simp [splitOnce]
  | cons c cs ih =>
    by_cases hc : c = sep
    · subst hc
      -- The text is cut at its first character, and nowhere further on.
      cases before with
      | nil => simp [splitOnce]
      | cons b before =>
        simp only [splitOnce, if_true, Option.some.injEq, Prod.mk.injEq, List.cons_append,
          List.cons.injEq, List.mem_cons, not_or]
        grind
    · cases before with
      | nil =>
        simp [splitOnce, hc]
      | cons b before =>
        simp only [splitOnce, hc, if_false, Option.map_eq_some_iff, Prod.exists, Prod.mk.injEq,
          List.cons_append, List.cons.injEq, List.mem_cons, not_or]
        constructor
        · rintro ⟨_, _, h, ⟨rfl, rfl⟩, rfl⟩
          have := ih.1 h
          grind
        · rintro ⟨⟨rfl, h⟩, _, hb⟩
          exact ⟨before, after, ih.2 ⟨h, hb⟩, ⟨rfl, rfl⟩, rfl⟩

/-- `splitOnce` fails exactly when the character does not occur. -/
theorem splitOnce_eq_none_iff {sep : Char} {cs : List Char} :
    splitOnce sep cs = none ↔ sep ∉ cs := by
  induction cs with
  | nil => simp [splitOnce]
  | cons c cs ih =>
    by_cases hc : c = sep
    · simp [splitOnce, hc]
    · have hs : sep ≠ c := fun h => hc h.symm
      simp [splitOnce, hc, hs, ih]

/-- `afterStart?` succeeds exactly on texts with the given start. -/
theorem afterStart?_eq_some_iff {start cs rest : List Char} :
    afterStart? start cs = some rest ↔ cs = start ++ rest := by
  induction start generalizing cs with
  | nil => simp [afterStart?, eq_comm]
  | cons s start ih =>
    cases cs with
    | nil => simp [afterStart?]
    | cons c cs =>
      by_cases h : s = c
      · simp [afterStart?, h, ih]
      · have h' : c ≠ s := fun e => h e.symm
        simp [afterStart?, h, h']

end Textmate.Text
