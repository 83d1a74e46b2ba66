/-!
# Dictionaries

A dictionary is a list of key and value pairs. `Dict.insert` keeps the keys in increasing order and
unique, so a dictionary built by insertions lists its entries in the order of the keys, and two
dictionaries with the same entries are the same list.

Main statements: `find?_insert` says what an insertion changes, and `mem_keys_iff_find?` that a key
is found exactly when it is there.
-/

namespace Textmate.Dict

variable {κ α : Type} [DecidableEq κ]

def find? (key : κ) : List (κ × α) → Option α
  | [] => none
  | (k, v) :: rest => if k = key then some v else find? key rest

def contains (key : κ) (d : List (κ × α)) : Bool :=
  (find? key d).isSome

def keys (d : List (κ × α)) : List κ :=
  d.map (·.1)

/-- The values in the order of their keys. -/
def values (d : List (κ × α)) : List α :=
  d.map (·.2)

/-- A key is found exactly when it is one of the keys. -/
theorem mem_keys_iff_find? (key : κ) (d : List (κ × α)) :
    key ∈ keys d ↔ ∃ value, find? key d = some value := by
  induction d with
  | nil => simp [keys, find?]
  | cons entry rest ih =>
    obtain ⟨k, v⟩ := entry
    by_cases h : k = key
    · simp [keys, find?, h]
    · have hne : key ≠ k := fun e => h e.symm
      simp only [keys, List.map_cons, List.mem_cons, hne, false_or, find?, if_neg h]
      exact ih

/-- Nothing is found exactly when the key does not occur. -/
theorem find?_eq_none_iff (key : κ) (d : List (κ × α)) : find? key d = none ↔ key ∉ keys d := by
  rw [mem_keys_iff_find?, ← Option.not_isSome_iff_eq_none, Option.isSome_iff_exists]

/-- What is found is an entry. -/
theorem mem_of_find? {key : κ} {value : α} {d : List (κ × α)} (h : find? key d = some value) :
    (key, value) ∈ d := by
  induction d with
  | nil => exact nomatch h
  | cons entry rest ih =>
    obtain ⟨k, v⟩ := entry
    by_cases hk : k = key
    · simp only [find?, if_pos hk, Option.some.injEq] at h
      rw [← h, ← hk]
      exact List.mem_cons_self
    · simp only [find?, if_neg hk] at h
      exact List.mem_cons_of_mem _ (ih h)

/-- An entry is found if no key occurs twice. -/
theorem find?_of_mem {key : κ} {value : α} {d : List (κ × α)} (hd : (keys d).Nodup)
    (h : (key, value) ∈ d) : find? key d = some value := by
  induction d with
  | nil => exact nomatch h
  | cons entry rest ih =>
    obtain ⟨k, v⟩ := entry
    simp only [keys, List.map_cons, List.nodup_cons] at hd
    rcases List.mem_cons.1 h with heq | hrest
    · cases heq
      simp [find?]
    · -- The entry lies behind one with another key, as no key occurs twice.
      have hne : k ≠ key := by
        rintro rfl
        exact hd.1 (List.mem_map_of_mem (f := (·.1)) hrest)
      simp only [find?, if_neg hne]
      exact ih hd.2 hrest

/-- An entry behind the others is found if its key is new. -/
theorem find?_append_singleton (key other : κ) (value : α) (d : List (κ × α)) :
    find? other (d ++ [(key, value)]) =
      (find? other d).or (if key = other then some value else none) := by
  induction d with
  | nil => simp [find?]
  | cons entry rest ih =>
    obtain ⟨k, v⟩ := entry
    by_cases h : k = other
    · simp [find?, h]
    · simp only [List.cons_append, find?, if_neg h]
      exact ih

variable [LT κ] [DecidableLT κ]

/-- Sets the value of a key, at the place of the key in the order. -/
def insert (key : κ) (value : α) : List (κ × α) → List (κ × α)
  | [] => [(key, value)]
  | (k, v) :: rest =>
    if key = k then (key, value) :: rest
    else if key < k then (key, value) :: (k, v) :: rest
    else (k, v) :: insert key value rest

def erase (key : κ) (d : List (κ × α)) : List (κ × α) :=
  d.filter fun (k, _) => k ≠ key

/-- The dictionary of a list of entries; of several entries of one key the last one counts. -/
def ofList (entries : List (κ × α)) : List (κ × α) :=
  entries.foldl (fun d (k, v) => insert k v d) []

/-- What an insertion changes: the value of its own key and nothing else. -/
theorem find?_insert (key other : κ) (value : α) (d : List (κ × α)) :
    find? other (insert key value d) = if key = other then some value else find? other d := by
  induction d with
  | nil => simp [insert, find?]
  | cons entry rest ih =>
    obtain ⟨k, v⟩ := entry
    unfold insert
    -- The key goes before the first greater one, or further on.
    split
    · subst_vars
      by_cases h : k = other <;> simp [find?, h]
    · split
      · by_cases h : key = other <;> simp [find?, h]
      · by_cases h : k = other
        · have hne : key ≠ other := by rintro rfl; simp_all
          simp [find?, h, hne]
        · simp [find?, h, ih]

end Textmate.Dict
