import Mathlib.Data.List.Lex
import Mathlib.Data.Prod.Lex
import Mathlib.Data.String.Basic
import Textmate.Files.Path
import Textmate.Proofs.Text.Split

/-!
# Names behind paths and the order of paths

A name that is put behind a path becomes its last piece, and the last part of the key by which the
path is sorted. The comparison of paths is the lexicographic order of their keys, so below one
directory paths are sorted as their names are.

## Key results

- `Path.exists_pieces_join`: the pieces of a path with a name behind it
- `Path.sortLE_iff`: the comparison of paths is a total order of their keys
- `Path.sortLE_names`: behind the same start, paths are compared by their names
-/

namespace List

variable {α : Type*} [LinearOrder α] {a b : α} {as bs : List α}

/-- No list comes before the empty one. -/
private theorem lex_nil_le : [] ≤ as :=
  not_lt.1 (not_lt_nil as)

/-- Lists are compared at their first elements and, where these are equal, behind them. -/
private theorem lex_cons_le_cons_iff : a :: as ≤ b :: bs ↔ a < b ∨ a = b ∧ as ≤ bs := by
  rw [le_iff_lt_or_eq, cons_lt_cons_iff, le_iff_lt_or_eq, cons.injEq]
  tauto

end List

namespace Textmate

namespace Path

/-- A text that can name a place in a directory. -/
def IsName (name : String) : Prop :=
  isIdle name = false ∧ name ≠ ".." ∧ '/' ∉ name.toList

instance (name : String) : Decidable (IsName name) :=
  inferInstanceAs (Decidable (_ ∧ _))

/-- A name is not empty. -/
theorem IsName.ne_empty {name : String} (h : IsName name) : name ≠ "" := by
  rintro rfl
  exact Bool.noConfusion h.1

/-- A name is not the dot of the directory itself. -/
private theorem IsName.ne_dot {name : String} (h : IsName name) : name ≠ "." := by
  rintro rfl
  exact Bool.noConfusion h.1

/-! ## Pieces -/

/-- A text without slashes is one piece. -/
theorem pieces_of_not_mem {name : String} (h : '/' ∉ name.toList) : pieces name = [name] :=
  Text.splitString_of_not_mem h

/-- A piece has no slash. -/
theorem not_mem_of_mem_pieces {path piece : String} (h : piece ∈ pieces path) :
    '/' ∉ piece.toList := by
  obtain ⟨cs, hcs, rfl⟩ := List.mem_map.1 h
  intro hmem
  exact absurd (Text.not_mem_of_mem_splitBy hcs '/' (by simpa using hmem)) (by simp)

/-- The characters of a piece are characters of the path. -/
theorem mem_of_mem_pieces {path piece : String} (h : piece ∈ pieces path) :
    ∀ c ∈ piece.toList, c ∈ path.toList := by
  obtain ⟨cs, hcs, rfl⟩ := List.mem_map.1 h
  intro c hc
  exact Text.mem_of_mem_splitBy hcs c (by simpa using hc)

/-- The first piece of an absolute path is empty, and that of another path is not. -/
theorem isAbsolute_iff {path first : String} {rest : List String} (hpath : path ≠ "")
    (h : pieces path = first :: rest) : isAbsolute path = true ↔ first = "" := by
  obtain ⟨c, cs, hcs⟩ := List.exists_cons_of_ne_nil fun h => hpath (String.toList_eq_nil_iff.1 h)
  -- The first piece is empty exactly when the path starts with the slash that ends it.
  rw [pieces, Text.splitString, Text.split, Text.splitBy, hcs, List.map_cons, List.cons.injEq,
    Text.cut] at h
  cases hc : c == '/' with
  | true => simp [isAbsolute, hcs, eq_of_beq hc, ← h.1]
  | false =>
    have hne : c ≠ '/' := ne_of_beq_false hc
    rw [← h.1, ← String.toList_eq_nil_iff]
    simp [isAbsolute, hcs, hne]

/-- A text without slashes is not absolute. -/
theorem isAbsolute_of_not_mem {name : String} (h : '/' ∉ name.toList) :
    isAbsolute name = false := by
  rw [isAbsolute, beq_eq_false_iff_ne]
  intro hhead
  exact h (List.mem_of_mem_head? hhead)

/-- A name goes behind a path with a slash between them, which the path may already have. -/
private theorem join_cases {path name : String} (hpath : path ≠ "") (hname : '/' ∉ name.toList) :
    (∃ front, path = front ++ "/" ∧ join path name = front ++ "/" ++ name) ∨
      join path name = path ++ "/" ++ name := by
  have hjoin : join path name =
      if path.toList.getLast? == some '/' then path ++ name else path ++ "/" ++ name := by
    simp [join, isAbsolute_of_not_mem hname, hpath]
  rw [hjoin]
  split
  · rename_i hlast
    obtain ⟨front, hfront⟩ := List.getLast?_eq_some_iff.1 (eq_of_beq hlast)
    -- The slash that the path has already is the one between them.
    have heq : path = String.ofList front ++ "/" := by
      apply String.toList_injective
      simp [hfront]
    exact .inl ⟨String.ofList front, heq, by rw [← heq]⟩
  · exact .inr rfl

/-- A name behind a path becomes the last piece. A slash at the end of the path does not count. -/
theorem exists_pieces_join {path name : String} (hpath : path ≠ "") (hname : '/' ∉ name.toList) :
    ∃ front, front ≠ [] ∧ pieces (join path name) = front ++ [name] ∧
      (pieces path = front ∨ pieces path = front ++ [""]) := by
  -- There is at least one piece.
  have hne (text : String) : pieces text ≠ [] := by simp [pieces, Text.splitString, Text.split,
    Text.splitBy]
  rcases join_cases hpath hname with ⟨front, rfl, hjoin⟩ | hjoin
  · -- The slash of the path is the one in front of the name.
    refine ⟨pieces front, hne front, ?_, .inr ?_⟩
    · rw [hjoin]
      exact Text.splitString_append hname front
    · have hempty : '/' ∉ "".toList := by simp
      have hsplit := Text.splitString_append hempty front
      rwa [String.append_empty] at hsplit
  · refine ⟨pieces path, hne path, ?_, .inl rfl⟩
    rw [hjoin]
    exact Text.splitString_append hname path

/-- A path with a name behind it is not empty. -/
theorem join_ne_empty {path name : String} (hpath : path ≠ "") (hname : '/' ∉ name.toList) :
    join path name ≠ "" := by
  rw [Ne, ← String.toList_eq_nil_iff]
  rcases join_cases hpath hname with ⟨front, -, hjoin⟩ | hjoin <;> simp [hjoin]

/-- A name behind a path leaves it absolute or relative. -/
theorem isAbsolute_join {path name : String} (hpath : path ≠ "") (hname : '/' ∉ name.toList) :
    isAbsolute (join path name) = isAbsolute path := by
  -- A path that is not empty decides by its first character.
  have happend (other : String) : isAbsolute (path ++ other) = isAbsolute path := by
    obtain ⟨c, cs, hcs⟩ := List.exists_cons_of_ne_nil fun h => hpath (String.toList_eq_nil_iff.1 h)
    simp [isAbsolute, hcs]
  rcases join_cases hpath hname with ⟨front, heq, hjoin⟩ | hjoin
  · rw [hjoin, ← heq, happend]
  · rw [hjoin, String.append_assoc, happend]

/-! ## Keys -/

/-- The part of a key that comes from the pieces behind the head of a path. -/
def bodyKey (body : List String) : List (Nat × String) :=
  (body.filter (!isIdle ·)).map fun piece => if piece = ".." then (2, "") else (3, piece)

/-- The key of pieces is made piece by piece. -/
@[simp] theorem bodyKey_append (body other : List String) :
    bodyKey (body ++ other) = bodyKey body ++ bodyKey other := by
  simp [bodyKey]

/-- A slash at the end leaves no trace in the key. -/
@[simp] theorem bodyKey_empty : bodyKey [""] = [] := rfl

/-- A name has one part of the key, which is itself. -/
theorem bodyKey_name {name : String} (h : IsName name) : bodyKey [name] = [(3, name)] := by
  simp [bodyKey, h.1, h.2.1]

/-- A leading dot is no part of the names. -/
theorem dot_not_mem_bodyKey (body : List String) : (1, "") ∉ bodyKey body := by
  intro hmem
  obtain ⟨piece, -, heq⟩ := List.mem_map.1 hmem
  split at heq <;> simp at heq

/-- The first piece decides how the key begins. -/
theorem sortKey_of_pieces {path first : String} {rest : List String}
    (h : pieces path = first :: rest) :
    sortKey path =
      if first = "" then (0, "") :: bodyKey rest
      else if first = "." then (1, "") :: bodyKey rest
      else bodyKey (first :: rest) := by
  unfold sortKey headAndBody
  rw [h]
  by_cases hroot : first = ""
  · subst hroot
    rfl
  · by_cases hdot : first = "."
    · subst hdot
      rfl
    · simp [hroot, hdot, bodyKey]

/-- The key of a name is the name. -/
theorem sortKey_name {name : String} (h : IsName name) : sortKey name = [(3, name)] := by
  rw [sortKey_of_pieces (pieces_of_not_mem h.2.2), if_neg h.ne_empty, if_neg h.ne_dot,
    bodyKey_name h]

/-- What a piece behind a path adds to the key. -/
theorem sortKey_join {path piece : String} (hpath : path ≠ "") (hpiece : '/' ∉ piece.toList) :
    sortKey (join path piece) = sortKey path ++ bodyKey [piece] := by
  obtain ⟨front, hfront, hjoin, hpieces⟩ := exists_pieces_join hpath hpiece
  obtain ⟨first, rest, rfl⟩ := List.exists_cons_of_ne_nil hfront
  -- A slash at the end of the path adds an empty piece, which the key leaves out.
  have hkey : ∃ body, pieces path = first :: body ∧ bodyKey body = bodyKey rest := by
    rcases hpieces with h | h
    · exact ⟨rest, h, rfl⟩
    · exact ⟨rest ++ [""], h, by simp⟩
  obtain ⟨body, hbody, hsame⟩ := hkey
  rw [List.cons_append] at hjoin
  have hcons (body : List String) : bodyKey (first :: body) = bodyKey [first] ++ bodyKey body :=
    bodyKey_append [first] body
  rw [sortKey_of_pieces hjoin, sortKey_of_pieces hbody, hcons body, hcons (rest ++ [piece]),
    bodyKey_append, hsame]
  split
  · rfl
  · split
    · rfl
    · rw [List.append_assoc]

/-- Names behind a path are the last parts of the key. -/
theorem sortKey_foldl_join {path : String} {names : List String} (hpath : path ≠ "")
    (hnames : ∀ name ∈ names, IsName name) :
    sortKey (names.foldl join path) = sortKey path ++ names.map (3, ·) := by
  induction names generalizing path with
  | nil => simp
  | cons name names ih =>
    obtain ⟨hname, hrest⟩ := List.forall_mem_cons.1 hnames
    -- Each name adds its part behind those of the names before it.
    rw [List.foldl_cons, ih (join_ne_empty hpath hname.2.2) hrest, sortKey_join hpath hname.2.2,
      bodyKey_name hname, List.append_assoc, List.singleton_append, List.map_cons]

/-! ## The order -/

/-- The comparison of keys is the lexicographic order. -/
private theorem sortLE_go_iff (a b : List (Nat × String)) :
    sortLE.go a b = true ↔ a.map toLex ≤ b.map toLex := by
  fun_induction sortLE.go a b with
  | case1 b => simp [List.lex_nil_le]
  | case2 part a => simp [← not_lt]
  | case3 r s a r' s' b heq ih =>
    -- Equal parts: the rest of the keys decides.
    obtain ⟨rfl, rfl⟩ := heq
    rw [ih, List.map_cons, List.map_cons, List.lex_cons_le_cons_iff]
    simp
  | case4 r s a r' s' b hne =>
    -- Different parts decide.
    have hlex : toLex (r, s) ≠ toLex (r', s') := fun h =>
      hne (Prod.mk.inj (toLex.injective h))
    rw [List.map_cons, List.map_cons, List.lex_cons_le_cons_iff]
    simp [hlex, Prod.Lex.toLex_lt_toLex]

/-- The comparison of paths is the order of their keys. -/
theorem sortLE_iff {a b : String} :
    sortLE a b = true ↔ (sortKey a).map toLex ≤ (sortKey b).map toLex :=
  sortLE_go_iff _ _

/-- Of three paths in a row the first comes before the last. -/
theorem sortLE_trans (a b c : String) (hab : sortLE a b = true) (hbc : sortLE b c = true) :
    sortLE a c = true :=
  sortLE_iff.2 (le_trans (sortLE_iff.1 hab) (sortLE_iff.1 hbc))

/-- Of two paths one comes before the other. -/
theorem sortLE_total (a b : String) : (sortLE a b || sortLE b a) = true := by
  rw [Bool.or_eq_true, sortLE_iff, sortLE_iff]
  exact le_total _ _

/-- Behind the same start, paths are compared by their names. -/
theorem sortLE_names {a b : String} {start : List (Nat × String)} {names others : List String}
    (ha : sortKey a = start ++ names.map (3, ·)) (hb : sortKey b = start ++ others.map (3, ·)) :
    sortLE a b = decide (names ≤ others) := by
  -- What both keys start with decides nothing.
  have hgo (start : List (Nat × String)) (a b : List (Nat × String)) :
      sortLE.go (start ++ a) (start ++ b) = sortLE.go a b := by
    induction start with
    | nil => rfl
    | cons part start ih => simpa [sortLE.go] using ih
  rw [sortLE, ha, hb, hgo]
  clear ha hb
  induction names generalizing others with
  | nil => simp [sortLE.go, List.lex_nil_le]
  | cons name names ih =>
    cases others with
    | nil => simp [sortLE.go, ← not_lt]
    | cons other others =>
      simp only [List.map_cons, sortLE.go, true_and, ih, List.lex_cons_le_cons_iff]
      by_cases heq : name = other <;> simp [heq]

end Path

end Textmate
