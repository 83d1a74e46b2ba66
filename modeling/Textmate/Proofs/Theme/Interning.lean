import Textmate.Proofs.Theme.Colors

/-!
# Interning color after color

A map that answers calls one after another keeps what it answered: a color has its index from the
first call on, no other color gets it, and the entry with the index is the color. A growable map has
room for as many entries as the indices of a metadata word can reach; a fixed map never changes. A
call fails when the color is not there and cannot be added, and then it adds nothing.

## Key results

- `intern_eq_error_iff`: when a call fails, and why
- `idOf?_eq_some_iff`: looking a color up is interning it without a change
- `extends_afterAll`: what any number of calls keeps
- `interns_afterAll`: the answers of a map after any number of calls
-/

namespace Textmate

namespace ColorMap

variable {map later : ColorMap} {color other : String} {id : Nat}

/-! ## Colors that a map has -/

/-- Looking a color up depends on its upper case only. -/
private theorem idOf?_congr (h : Text.upperString other = Text.upperString color) :
    map.idOf? other = map.idOf? color := by
  unfold idOf?
  rw [h]

/-- A map has an index for the colors among its entries. -/
theorem idOf?_eq_none_iff (hne : color ≠ "") :
    map.idOf? color = none ↔ Text.upperString color ∉ map.colors := by
  cases map with
  | growable added => simp [idOf?, find?, colors, hne]
  | fixed table =>
    simp [idOf?, find?, lastIndex?, colors, hne]

/-! ## Answers and failures -/

/-- Interning a color that the map has gives its index and changes nothing. -/
theorem intern_of_idOf? (h : map.idOf? color = some id) : map.intern color = .ok (id, map) := by
  unfold idOf? at h
  unfold intern
  simp only [h]

/-- Looking a color up gives the index that interning gives without a change. -/
theorem idOf?_eq_some_iff : map.idOf? color = some id ↔ map.intern color = .ok (id, map) := by
  constructor
  · exact intern_of_idOf?
  · intro h
    cases intern_cases h with
    | inl hfound => exact hfound.1
    | inr hadded =>
      -- A map to which a color was added is another one.
      obtain ⟨added, rfl, _, _, _, hgrown⟩ := hadded
      simp at hgrown

/-- The index is not the one that stands for no color. -/
theorem id_ne_zero_of_idOf? (hgrowable : map.isFixed = false) (h : map.idOf? color = some id) :
    id ≠ 0 := by
  cases map with
  | growable added =>
    -- Indices of added colors are counted from one.
    obtain ⟨index, _, rfl⟩ := Option.map_eq_some_iff.1 h
    omega
  | fixed table => cases hgrowable

/-- A color that a growable map does not have is added if there is room for it. -/
theorem intern_growable {added : List String} (h : Text.upperString color ∉ added) :
    (growable added).intern color =
      if added.length + 1 < capacity then
        .ok (added.length + 1, .growable (added ++ [Text.upperString color]))
      else .error (.full (Text.upperString color)) := by
  have hnone : find? (Text.upperString color) (growable added) = none := by simpa [find?] using h
  simp only [intern, hnone]

/-- A call fails when the map does not have the color and cannot add it. -/
theorem intern_eq_error_iff {problem : Problem} (hfits : map.Fits) (hne : color ≠ "") :
    map.intern color = .error problem ↔ Text.upperString color ∉ map.colors ∧
      (map.isFixed = true ∧ problem = .missing (Text.upperString color) ∨
        map.isFixed = false ∧ map.size = 512 ∧ problem = .full (Text.upperString color)) := by
  rw [← idOf?_eq_none_iff hne]
  cases hid : map.idOf? color with
  | some id => simp [intern_of_idOf? hid]
  | none =>
    cases map with
    | fixed table =>
      unfold idOf? at hid
      simp [intern, hid, isFixed, eq_comm]
    | growable added =>
      have hnew : Text.upperString color ∉ added := by simpa [idOf?, find?] using hid
      have hle : added.length + 1 ≤ 512 := hfits
      have hcapacity : capacity = 512 := rfl
      simp only [intern_growable hnew, isFixed, size, colors, List.length_cons]
      -- There is room for the color unless all entries are taken.
      by_cases hfull : added.length + 1 = 512
      · have hroom : ¬ added.length + 1 < capacity := by omega
        rw [if_neg hroom]
        simp [hfull, eq_comm]
      · have hroom : added.length + 1 < capacity := by omega
        rw [if_pos hroom]
        simp [hfull]

/-! ## Call after call -/

/-- The map behind a call. A call that fails leaves the map as it is. -/
def after (map : ColorMap) (color : String) : ColorMap :=
  match map.intern color with
  | .ok (_, later) => later
  | .error _ => map

/-- The map behind calls one after another. -/
def afterAll (map : ColorMap) (calls : List String) : ColorMap :=
  calls.foldl after map

/-- A call extends the map, whether it succeeds or not. -/
private theorem extends_after (map : ColorMap) (color : String) :
    map.Extends (map.after color) := by
  unfold after
  split
  · rename_i answer later h
    exact extends_of_intern h
  · exact .refl map

/-- However many calls follow, the entries stay and every color keeps its index. -/
theorem extends_afterAll (map : ColorMap) (calls : List String) :
    map.Extends (map.afterAll calls) := by
  induction calls generalizing map with
  | nil => exact .refl map
  | cons color calls ih => exact (extends_after map color).trans (ih _)

/-- A call does not change a fixed map. -/
private theorem after_of_isFixed (h : map.isFixed = true) (color : String) :
    map.after color = map := by
  cases map with
  | growable added => cases h
  | fixed table =>
    unfold after
    split
    · rename_i answer later hintern
      -- The map behind the call is the same, or it has one color more.
      cases intern_cases hintern with
      | inl hfound => exact hfound.2
      -- Only growable maps take up a color.
      | inr hadded =>
        obtain ⟨_, hgrowable, _⟩ := hadded
        cases hgrowable
    · rfl

/-- No number of calls changes a fixed map. -/
private theorem afterAll_of_isFixed (h : map.isFixed = true) (calls : List String) :
    map.afterAll calls = map := by
  induction calls with
  | nil => rfl
  | cons color calls ih =>
    -- The first call leaves the map alone, and so do the others.
    show (map.after color).afterAll calls = map
    rw [after_of_isFixed h color, ih]

/-- A map into which nothing was interned: an empty one, or that of a table with room for it. -/
inductive Initial : ColorMap → Prop
  | growable : Initial .empty
  | fixed {table : List String} {start : ColorMap} (h : ofTable table = .ok start) : Initial start

/-- A map at its start is not too large. -/
theorem Initial.fits (h : map.Initial) : map.Fits := by
  cases h with
  | growable => exact (by decide : ColorMap.empty.size ≤ capacity)
  | fixed h =>
    -- A table that is too long makes no map.
    unfold ofTable at h
    split at h
    · rename_i hle
      cases h
      simpa [Fits, size, colors] using hle
    · cases h

/-- What a map answers, and what its answers are worth after more calls. -/
structure Interns (map : ColorMap) : Prop where
  /-- Indices of a metadata word can reach all entries. -/
  size_le : map.size ≤ 512
  /-- The entry with the index is the color. -/
  entry : ∀ color id later, map.intern color = .ok (id, later) →
    later.colors[id]? = some (Text.upperString color)
  /-- The index is one of an entry and fits into a metadata word. -/
  id_lt : ∀ color id later, map.intern color = .ok (id, later) → id < later.size ∧ id ≤ 511
  /-- No color of a growable map gets the index that stands for no color. -/
  id_ne_zero : map.isFixed = false →
    ∀ color id later, map.intern color = .ok (id, later) → id ≠ 0
  /-- The color, however its letters are written, has the index ever after. -/
  again : ∀ color id later, map.intern color = .ok (id, later) →
    ∀ calls other, Text.upperString other = Text.upperString color →
      (later.afterAll calls).intern other = .ok (id, later.afterAll calls)
  /-- No other color ever gets the index. -/
  distinct : ∀ color id later, map.intern color = .ok (id, later) →
    ∀ calls other id' later', (later.afterAll calls).intern other = .ok (id', later') →
      Text.upperString other ≠ Text.upperString color → id' ≠ id
  /-- Entries are appended and never change. -/
  grows : ∀ calls, map.colors <+: (map.afterAll calls).colors
  /-- A fixed map stays as it is. -/
  fixed : map.isFixed = true → ∀ calls, map.afterAll calls = map
  /-- A call fails when the color is not there and cannot be added. -/
  fails_iff : ∀ color, color ≠ "" → ((∃ problem, map.intern color = .error problem) ↔
    Text.upperString color ∉ map.colors ∧ (map.isFixed = true ∨ map.size = 512))
  /-- A call that fails adds nothing. -/
  unchanged : ∀ color problem, map.intern color = .error problem → map.after color = map
  /-- Looking a color up gives the index that interning gives without a new entry. -/
  idOf?_iff : ∀ color id, map.idOf? color = some id ↔ map.intern color = .ok (id, map)

/-- Indices of a metadata word reaching all entries is all that the answers of a map rest on. -/
private theorem Fits.interns (h : map.Fits) : map.Interns where
  size_le := h
  entry := fun color id later hintern => getElem?_of_idOf? (idOf?_of_intern hintern)
  id_lt := by
    intro color id later hintern
    have hid := idOf?_of_intern hintern
    -- The index is one of the later map, which is not too large either.
    have hlater := (extends_of_intern hintern).fits h
    exact ⟨(List.getElem?_eq_some_iff.1 (getElem?_of_idOf? hid)).1, le_maxColor_of_idOf? hlater hid⟩
  id_ne_zero := by
    intro hgrowable color id later hintern
    refine id_ne_zero_of_idOf? ?_ (idOf?_of_intern hintern)
    cases intern_cases hintern with
    | inl hfound => rw [hfound.2, hgrowable]
    | inr hadded =>
      -- A map stays growable when it has grown.
      obtain ⟨added, _, _, _, _, rfl⟩ := hadded
      rfl
  again := by
    intro color id later hintern calls other hupper
    -- A color keeps its index over the calls, and its letters may be written in any way.
    have hid := (extends_afterAll later calls).idOf?_eq color id (idOf?_of_intern hintern)
    exact intern_of_idOf? ((idOf?_congr hupper).trans hid)
  distinct := by
    intro color id later hintern calls other id' later' hintern' hupper heq
    subst heq
    -- The entry with the index is still the color, and it would be the other one.
    have hkept := ((extends_afterAll later calls).trans (extends_of_intern hintern')).idOf?_eq
      color id' (idOf?_of_intern hintern)
    have hentry := getElem?_of_idOf? hkept
    rw [getElem?_of_idOf? (idOf?_of_intern hintern')] at hentry
    exact hupper (Option.some.inj hentry)
  grows := by
    intro calls
    have hextends := extends_afterAll map calls
    exact hextends.colors_prefix
  fixed := fun hfixed calls => afterAll_of_isFixed hfixed calls
  fails_iff := by
    intro color hne
    simp only [intern_eq_error_iff h hne, exists_and_left, exists_or, exists_eq, and_true]
    cases map.isFixed <;> simp
  unchanged := by
    intro color problem hintern
    rw [after, hintern]
  idOf?_iff := fun color id => idOf?_eq_some_iff

/-- So a map answers after any number of calls, be it growable or fixed at the start. -/
theorem interns_afterAll {start : ColorMap} (h : start.Initial) (calls : List String) :
    (start.afterAll calls).Interns :=
  ((extends_afterAll start calls).fits h.fits).interns

/-- A table with a color in two entries keeps answering with the later one, and does not take up a
color that is not in it. -/
theorem interns_afterAll_of_repeated_entry :
    let table := ["", "#aaa", "#bbb", "#AAA"]
    ∃ start, ofTable table = .ok start ∧ start.Initial ∧
      (start.afterAll ["#ccc", "#aAa"]).Interns ∧
      (start.afterAll ["#ccc", "#aAa"]).colors = ["", "#AAA", "#BBB", "#AAA"] ∧
      (start.afterAll ["#ccc"]).idOf? "#aAa" = some 3 := by
  intro table
  have hstart : ofTable table = .ok (.fixed ["", "#AAA", "#BBB", "#AAA"]) := by rfl
  have hinitial : (ColorMap.fixed ["", "#AAA", "#BBB", "#AAA"]).Initial := .fixed hstart
  exact ⟨_, hstart, hinitial, interns_afterAll hinitial _, by rfl, by rfl⟩

end ColorMap

end Textmate
