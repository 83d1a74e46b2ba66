import Mathlib.Data.List.Infix
import Textmate.Theme.ColorMap

/-!
# Interning colors

The index that a map has for a color is the place of the color, in upper case, among its entries.
Interning gives such an index, and the index of a color never changes from then on.

## Key results

- `intern_cases`: what interning does
- `getElem?_of_idOf?`: the entry with the index of a color is the color
- `Extends`: what interning keeps
-/

namespace Textmate

namespace ColorMap

/-- Indices of a metadata word can reach all entries. -/
def Fits (map : ColorMap) : Prop :=
  map.size ≤ capacity

/-! ## The index of a color -/

/-- The last index of a color in a table is that of the color. -/
private theorem getElem?_of_lastIndex? {color : String} {table : List String} {id : Nat}
    (h : lastIndex? color table = some id) : table[id]? = some color := by
  obtain ⟨index, hindex, rfl⟩ := Option.map_eq_some_iff.1 h
  obtain ⟨hlt, heq, -⟩ := List.idxOf?_eq_some_iff.1 hindex
  -- The last place of a color is the first one in the reversed table.
  rw [List.length_reverse] at hlt
  rw [List.getElem_reverse] at heq
  rw [List.getElem?_eq_getElem (by omega), heq]

/-- The entry with the index of a color is the color. -/
private theorem getElem?_of_find? {map : ColorMap} {color : String} {id : Nat}
    (h : map.find? color = some id) : map.colors[id]? = some color := by
  cases map with
  | growable added =>
    obtain ⟨index, hindex, rfl⟩ := Option.map_eq_some_iff.1 h
    obtain ⟨hlt, heq, -⟩ := List.idxOf?_eq_some_iff.1 hindex
    -- A map that grows has an entry of no color before those that were added.
    rw [colors, List.getElem?_cons_succ, List.getElem?_eq_getElem hlt, heq]
  | fixed table =>
    simp only [find?] at h
    split at h
    · cases h
    · exact getElem?_of_lastIndex? h

/-- The entry with the index of a color is the color in upper case. -/
theorem getElem?_of_idOf? {map : ColorMap} {color : String} {id : Nat}
    (h : map.idOf? color = some id) : map.colors[id]? = some (Text.upperString color) :=
  getElem?_of_find? h

/-- The color with an index is the one that was interned, unless it is empty. -/
theorem color?_of_idOf? {map : ColorMap} {color : String} {id : Nat}
    (h : map.idOf? color = some id) (hne : Text.upperString color ≠ "") :
    map.color? id = some (Text.upperString color) := by
  rw [color?, getElem?_of_idOf? h, Option.filter_some, if_pos (decide_eq_true hne)]

/-- Indices fit into the field of a word when the map is not too large. -/
theorem le_maxColor_of_idOf? {map : ColorMap} (hfits : map.Fits) {color : String} {id : Nat}
    (h : map.idOf? color = some id) : id ≤ maxColor := by
  obtain ⟨hlt, -⟩ := List.getElem?_eq_some_iff.1 (getElem?_of_idOf? h)
  have : map.colors.length ≤ maxColor + 1 := hfits
  omega

/-! ## Interning -/

/-- Interning finds the color, or adds it to a growable map that has room for it. -/
theorem intern_cases {map later : ColorMap} {color : String} {id : Nat}
    (h : map.intern color = .ok (id, later)) :
    map.idOf? color = some id ∧ later = map ∨
    ∃ added, map = .growable added ∧ Text.upperString color ∉ added ∧ id = added.length + 1 ∧
      id < capacity ∧ later = .growable (added ++ [Text.upperString color]) := by
  unfold intern at h
  dsimp only at h
  split at h
  · rename_i found hfound
    cases h
    exact Or.inl ⟨hfound, rfl⟩
  · cases h
  · rename_i added hnone
    split at h
    · -- A growable map with room takes the color as its last one.
      rename_i hroom
      cases h
      refine Or.inr ⟨added, rfl, ?_, rfl, hroom, rfl⟩
      exact List.idxOf?_eq_none_iff.1 (Option.map_eq_none_iff.1 hnone)
    · cases h

/-- A map to which colors were added. -/
structure Extends (map later : ColorMap) : Prop where
  colors_prefix : map.colors <+: later.colors
  /-- A color keeps its index. -/
  idOf?_eq : ∀ color id, map.idOf? color = some id → later.idOf? color = some id
  fits : map.Fits → later.Fits

/-- A map extends itself. -/
theorem Extends.refl (map : ColorMap) : map.Extends map :=
  ⟨List.prefix_refl _, fun _ _ h => h, id⟩

/-- An extension of an extension is one. -/
theorem Extends.trans {map middle later : ColorMap} (h : map.Extends middle)
    (h' : middle.Extends later) : map.Extends later :=
  ⟨h.colors_prefix.trans h'.colors_prefix,
    fun color id hid => h'.idOf?_eq color id (h.idOf?_eq color id hid),
    fun hfits => h'.fits (h.fits hfits)⟩

/-- An added color changes the index of no other one. -/
private theorem extends_growable {added : List String} (color : String)
    (hroom : added.length + 1 < capacity) :
    (growable added).Extends (growable (added ++ [color])) := by
  refine ⟨⟨[color], rfl⟩, fun other id h => ?_, fun _ => ?_⟩
  · obtain ⟨index, hindex, rfl⟩ := Option.map_eq_some_iff.1 h
    simp only [idOf?, find?, List.idxOf?] at hindex ⊢
    -- Looking from the front, an entry is found before one that is added behind it.
    rw [List.findIdx?_append, hindex]
    rfl
  · simp only [Fits, size, colors, List.length_cons, List.length_append, List.length_nil]
    omega

/-- Interning changes the index of no color. -/
theorem extends_of_intern {map later : ColorMap} {color : String} {id : Nat}
    (h : map.intern color = .ok (id, later)) : map.Extends later := by
  rcases intern_cases h with ⟨-, rfl⟩ | ⟨added, rfl, -, rfl, hroom, rfl⟩
  · exact .refl _
  · exact extends_growable _ hroom

/-- Interning gives the index that the color has from then on. -/
theorem idOf?_of_intern {map later : ColorMap} {color : String} {id : Nat}
    (h : map.intern color = .ok (id, later)) : later.idOf? color = some id := by
  rcases intern_cases h with ⟨hid, rfl⟩ | ⟨added, rfl, hnew, rfl, -, rfl⟩
  · exact hid
  · simp only [idOf?, find?, List.idxOf?]
    -- The color was not among the others, so its first place is the new one.
    have hnone : added.findIdx? (· == Text.upperString color) = none :=
      List.idxOf?_eq_none_iff.2 hnew
    rw [List.findIdx?_append, hnone]
    simp

end ColorMap

end Textmate
