import Mathlib.Data.List.Nodup
import Textmate.Dict

/-!
# Sorted dictionaries

The keys of a dictionary that was built by insertions increase. Such a dictionary holds no key
twice, and it is determined by what is found in it.

Key results:
* `insert_comm`: insertions under different keys may change places
* `find?_ofList`: a dictionary of a list holds the last entry of every key
* `sorted_ofList`: it is sorted
* `Sorted.ext`: sorted dictionaries in which the same is found are equal
* `ofList_eq_self`: a sorted dictionary is the dictionary of its entries
-/

namespace Textmate.Dict

variable {κ α β γ : Type}

/-! ## Other values under the same keys -/

/-- The dictionary with other values. -/
def mapValues (f : κ → α → β) (d : List (κ × α)) : List (κ × β) :=
  d.map fun (key, value) => (key, f key value)

/-- The dictionary with other values, without the entries that get none. -/
def filterMapValues (f : κ → α → Option β) (d : List (κ × α)) : List (κ × β) :=
  d.filterMap fun (key, value) => (f key value).map fun other => (key, other)

/-- Values are replaced entry by entry. -/
@[simp] theorem mapValues_cons (f : κ → α → β) (key : κ) (value : α) (d : List (κ × α)) :
    mapValues f ((key, value) :: d) = (key, f key value) :: mapValues f d := rfl

/-- There is nothing to replace in an empty dictionary. -/
@[simp] theorem filterMapValues_nil (f : κ → α → Option β) : filterMapValues f [] = [] := rfl

/-- The first entry gets its value or is left out, and so do the others. -/
theorem filterMapValues_cons (f : κ → α → Option β) (key : κ) (value : α) (d : List (κ × α)) :
    filterMapValues f ((key, value) :: d) =
      ((f key value).map fun other => (key, other)).toList ++ filterMapValues f d := by
  cases h : f key value <;> simp [filterMapValues, h]

/-- Values are replaced in two parts of a dictionary as in the whole. -/
theorem filterMapValues_append (f : κ → α → Option β) (d e : List (κ × α)) :
    filterMapValues f (d ++ e) = filterMapValues f d ++ filterMapValues f e :=
  List.filterMap_append

/-- Other values stand under the same keys. -/
@[simp] theorem keys_mapValues (f : κ → α → β) (d : List (κ × α)) :
    keys (mapValues f d) = keys d := by
  simp [keys, mapValues]

/-- Entries that are left out are all that the keys lose. -/
theorem keys_filterMapValues_sublist (f : κ → α → Option β) (d : List (κ × α)) :
    (keys (filterMapValues f d)).Sublist (keys d) := by
  induction d with
  | nil => exact .slnil
  | cons entry d ih =>
    obtain ⟨key, value⟩ := entry
    rw [filterMapValues_cons]
    cases f key value with
    | none => exact ih.cons key
    | some other => exact ih.cons_cons key

/-- The key of an entry is among the keys. -/
theorem mem_keys_of_mem {key : κ} {value : α} {d : List (κ × α)} (h : (key, value) ∈ d) :
    key ∈ keys d :=
  List.mem_map.2 ⟨_, h, rfl⟩

/-- Values may be replaced before entries are left out. -/
theorem filterMapValues_eq (f : κ → α → Option β) (d : List (κ × α)) :
    filterMapValues f d = filterMapValues (fun _ other => other) (mapValues f d) := by
  unfold filterMapValues mapValues
  rw [List.filterMap_map]
  rfl

/-! ## What is found -/

section Find

variable [DecidableEq κ]

/-- What the first part has is found before what the second part has. -/
theorem find?_append (key : κ) (d e : List (κ × α)) :
    find? key (d ++ e) = (find? key d).or (find? key e) := by
  induction d with
  | nil => rfl
  | cons entry d ih =>
    obtain ⟨k, v⟩ := entry
    by_cases h : k = key
    · simp [find?, h]
    · simp [find?, h, ih]

/-- Without repeated keys, what is found is what there is. -/
theorem find?_eq_some_iff {key : κ} {value : α} {d : List (κ × α)} (hd : (keys d).Nodup) :
    find? key d = some value ↔ (key, value) ∈ d :=
  ⟨mem_of_find?, find?_of_mem hd⟩

/-- What is found does not depend on the order of the entries. -/
theorem find?_perm (key : κ) {d e : List (κ × α)} (hd : (keys d).Nodup) (h : d.Perm e) :
    find? key d = find? key e := by
  -- Both lists have the same entries, and neither repeats a key.
  have he : (keys e).Nodup := (h.map _).nodup_iff.1 hd
  refine Option.ext fun value => ?_
  rw [find?_eq_some_iff hd, find?_eq_some_iff he, h.mem_iff]

/-- With other values, the other value is found. -/
theorem find?_mapValues (f : κ → α → β) (key : κ) (d : List (κ × α)) :
    find? key (mapValues f d) = (find? key d).map (f key) := by
  induction d with
  | nil => rfl
  | cons entry d ih =>
    obtain ⟨k, v⟩ := entry
    by_cases h : k = key
    · simp [find?, h]
    · simp [find?, h, ih]

/-- With values that may be left out, the value that a key gets is found. -/
theorem find?_filterMapValues (f : κ → α → Option β) (key : κ) {d : List (κ × α)}
    (hd : (keys d).Nodup) : find? key (filterMapValues f d) = (find? key d).bind (f key) := by
  induction d with
  | nil => rfl
  | cons entry d ih =>
    obtain ⟨k, v⟩ := entry
    -- If the first entry is left out, nothing else may be found under its key.
    obtain ⟨hnew, hrest⟩ := List.nodup_cons.1 hd
    rw [filterMapValues_cons, find?_append, ih hrest]
    by_cases h : k = key
    · subst h
      have hnone : find? k d = none := (find?_eq_none_iff k d).2 hnew
      cases hf : f k v <;> simp [find?, hf, hnone]
    · cases hf : f k v <;> simp [find?, h]

/-- In the entries whose keys have a property, only such keys are found. -/
theorem find?_filter_keys (p : κ → Bool) (key : κ) (d : List (κ × α)) :
    find? key (d.filter (p ·.1)) = if p key = true then find? key d else none := by
  induction d with
  | nil => simp [find?]
  | cons entry d ih =>
    obtain ⟨k, v⟩ := entry
    rw [List.filter_cons]
    -- The entry with the key stays if the key has the property, as any other such entry would.
    by_cases h : k = key
    · subst h
      by_cases hp : p k = true <;> simp [find?, hp, ih]
    · by_cases hp : p k = true <;> simp [find?, hp, h, ih]

end Find

/-! ## Several insertions -/

section Insertions

variable [DecidableEq κ] [LT κ] [DecidableLT κ]

/-- Of two insertions under one key the second one counts. -/
theorem insert_insert (key : κ) (first second : α) (d : List (κ × α)) :
    insert key second (insert key first d) = insert key second d := by
  induction d with
  | nil => simp [insert]
  | cons entry d ih =>
    obtain ⟨k, v⟩ := entry
    simp only [insert]
    split
    · simp [insert]
    · split
      · simp [insert]
      · simp_all [insert]

/-- The first entry is replaced under its key. -/
theorem insert_cons_self (key : κ) (value old : α) (d : List (κ × α)) :
    insert key value ((key, old) :: d) = (key, value) :: d := by
  rw [insert, if_pos rfl]

variable [Std.Irrefl fun a b : κ => a < b]

/-- A smaller key goes to the front. -/
theorem insert_cons_of_lt {key k : κ} (h : key < k) (value v : α) (d : List (κ × α)) :
    insert key value ((k, v) :: d) = (key, value) :: (k, v) :: d := by
  have hne : key ≠ k := by
    rintro rfl
    exact Std.Irrefl.irrefl key h
  rw [insert, if_neg hne, if_pos h]

variable [Trans (fun a b : κ => a < b) (fun a b : κ => a < b) fun a b : κ => a < b]

/-- A greater key goes behind the first entry. -/
theorem insert_cons_of_gt {key k : κ} (h : k < key) (value v : α) (d : List (κ × α)) :
    insert key value ((k, v) :: d) = (k, v) :: insert key value d := by
  have hne : key ≠ k := by
    rintro rfl
    exact Std.Irrefl.irrefl key h
  have hnot : ¬ key < k := fun hlt => Std.Irrefl.irrefl key (Trans.trans hlt h)
  rw [insert, if_neg hne, if_neg hnot]

variable [Std.Trichotomous fun a b : κ => a < b]

/-- Insertions under different keys may change places, the smaller key named first. -/
private theorem insert_comm_of_lt {a b : κ} (h : a < b) (x y : α) (d : List (κ × α)) :
    insert a x (insert b y d) = insert b y (insert a x d) := by
  induction d with
  | nil => exact (insert_cons_of_lt h x y []).trans (insert_cons_of_gt h y x []).symm
  | cons entry d ih =>
    obtain ⟨k, v⟩ := entry
    obtain hlt | rfl | hgt :=
      Std.Trichotomous.rel_or_eq_or_rel_swap (r := fun a b : κ => a < b) (a := a) (b := k)
    · -- The smaller key comes first, wherever the other one goes.
      rw [insert_cons_of_lt hlt, insert_cons_of_gt h]
      obtain hbefore | rfl | hbehind :=
        Std.Trichotomous.rel_or_eq_or_rel_swap (r := fun a b : κ => a < b) (a := b) (b := k)
      · rw [insert_cons_of_lt hbefore, insert_cons_of_lt h]
      · rw [insert_cons_self, insert_cons_of_lt h]
      · rw [insert_cons_of_gt hbehind, insert_cons_of_lt hlt]
    · -- The smaller key is that of the first entry.
      rw [insert_cons_self, insert_cons_of_gt h, insert_cons_of_gt h, insert_cons_self]
    · -- Both keys go behind the first entry.
      have hlast : k < b := Trans.trans hgt h
      rw [insert_cons_of_gt hlast, insert_cons_of_gt hgt, insert_cons_of_gt hgt,
        insert_cons_of_gt hlast, ih]

/-- It does not matter in which order values are set under different keys. -/
theorem insert_comm {a b : κ} (h : a ≠ b) (x y : α) (d : List (κ × α)) :
    insert a x (insert b y d) = insert b y (insert a x d) := by
  obtain hlt | heq | hgt :=
    Std.Trichotomous.rel_or_eq_or_rel_swap (r := fun a b : κ => a < b) (a := a) (b := b)
  · exact insert_comm_of_lt hlt x y d
  · exact absurd heq h
  · exact (insert_comm_of_lt hgt y x d).symm

end Insertions

/-! ## Dictionaries of lists -/

section OfList

variable [DecidableEq κ] [LT κ] [DecidableLT κ]

/-- The last of several insertions under a key counts, and before all of them what was there. -/
private theorem find?_foldl_insert (key : κ) (entries d : List (κ × α)) :
    find? key (entries.foldl (fun d (k, v) => insert k v d) d) =
      (find? key entries.reverse).or (find? key d) := by
  -- The dictionary changes with each insertion, so it is left open in the induction.
  induction entries generalizing d with
  | nil => rfl
  | cons entry entries ih =>
    obtain ⟨k, v⟩ := entry
    rw [List.foldl_cons, ih, find?_insert, List.reverse_cons, find?_append, Option.or_assoc]
    by_cases h : k = key <;> simp [find?, h]

/-- Of several entries of one key the last one counts. -/
theorem find?_ofList (key : κ) (entries : List (κ × α)) :
    find? key (ofList entries) = find? key entries.reverse := by
  rw [ofList, find?_foldl_insert]
  exact Option.or_none

/-- Of two lists of entries, the second one counts. -/
theorem find?_ofList_append (key : κ) (first second : List (κ × α)) :
    find? key (ofList (first ++ second)) =
      (find? key (ofList second)).or (find? key (ofList first)) := by
  rw [find?_ofList, List.reverse_append, find?_append, find?_ofList, find?_ofList]

/-- The first entry counts if no other one has its key. -/
theorem find?_ofList_cons (key : κ) (entry : κ × α) (entries : List (κ × α)) :
    find? key (ofList (entry :: entries)) =
      (find? key (ofList entries)).or (if entry.1 = key then some entry.2 else none) :=
  find?_ofList_append key [entry] entries

/-- A dictionary of a list has the keys of the list. -/
theorem mem_keys_ofList {key : κ} {entries : List (κ × α)} :
    key ∈ keys (ofList entries) ↔ key ∈ keys entries := by
  -- A key is there when something is found under it, and the list turned around has the same keys.
  rw [mem_keys_iff_find?, find?_ofList, ← mem_keys_iff_find?]
  simp [keys]

/-- Nothing is found in a dictionary of a list when the list has nothing. -/
theorem find?_ofList_eq_none_iff {key : κ} {entries : List (κ × α)} :
    find? key (ofList entries) = none ↔ find? key entries = none := by
  rw [find?_eq_none_iff, mem_keys_ofList, find?_eq_none_iff]

/-- In a list without repeated keys every entry counts. -/
theorem find?_ofList_of_nodup (key : κ) {entries : List (κ × α)} (h : (keys entries).Nodup) :
    find? key (ofList entries) = find? key entries := by
  induction entries with
  | nil => rfl
  | cons entry entries ih =>
    obtain ⟨k, v⟩ := entry
    -- The first entry counts, as no other one has its key.
    obtain ⟨hnew, hrest⟩ := List.nodup_cons.1 h
    rw [find?_ofList_cons, ih hrest]
    by_cases hk : k = key
    · subst hk
      have hnone : find? k entries = none := (find?_eq_none_iff k entries).2 hnew
      simp [find?, hnone]
    · simp [find?, hk]

/-- Entries behind others count before them. -/
theorem find?_ofList_filterMapValues_append (f : κ → α → Option β) (key : κ) {d : List (κ × α)}
    (hd : (keys d).Nodup) (others : List (κ × β)) :
    find? key (ofList (filterMapValues f d ++ others)) =
      (find? key (ofList others)).or ((find? key d).bind (f key)) := by
  -- Entries that are left out repeat no key.
  have hnodup := hd.sublist (keys_filterMapValues_sublist f d)
  rw [find?_ofList_append, find?_ofList_of_nodup key hnodup, find?_filterMapValues f key hd]

/-- A value may be replaced before or after it is inserted. -/
private theorem mapValues_insert (f : κ → α → β) (key : κ) (value : α) (d : List (κ × α)) :
    mapValues f (insert key value d) = insert key (f key value) (mapValues f d) := by
  induction d with
  | nil => rfl
  | cons entry d ih =>
    obtain ⟨k, v⟩ := entry
    simp only [mapValues_cons, insert]
    split
    · rfl
    · split
      · rfl
      · rw [mapValues_cons, ih]

/-- Values may be replaced before or after the entries are put in order. -/
theorem mapValues_ofList (f : κ → α → β) (entries : List (κ × α)) :
    mapValues f (ofList entries) = ofList (mapValues f entries) := by
  -- Replacing goes through the insertions one by one, whatever was inserted before.
  have hfold (d : List (κ × α)) : mapValues f (entries.foldl (fun d (k, v) => insert k v d) d) =
      (mapValues f entries).foldl (fun d (k, v) => insert k v d) (mapValues f d) := by
    induction entries generalizing d with
    | nil => rfl
    | cons entry entries ih => rw [List.foldl_cons, ih, mapValues_insert]; rfl
  exact hfold []

end OfList

/-! ## Order -/

/-- The keys increase. -/
def Sorted [LT κ] (d : List (κ × α)) : Prop :=
  (keys d).Pairwise (· < ·)

section Order

variable [LT κ]

/-- The empty dictionary is sorted. -/
@[simp] theorem sorted_nil : Sorted ([] : List (κ × α)) := .nil

/-- A dictionary is sorted when its first key is before all others, and these are sorted. -/
theorem sorted_cons_iff {key : κ} {value : α} {d : List (κ × α)} :
    Sorted ((key, value) :: d) ↔ (∀ other ∈ keys d, key < other) ∧ Sorted d :=
  List.pairwise_cons

/-- Entries may be left out of a sorted dictionary. -/
theorem Sorted.filterMapValues {d : List (κ × α)} (h : Sorted d) (f : κ → α → Option β) :
    Sorted (filterMapValues f d) :=
  List.Pairwise.sublist (keys_filterMapValues_sublist f d) h

section Insert

variable [DecidableEq κ] [DecidableLT κ] [Std.Trichotomous fun a b : κ => a < b]
variable [Trans (fun a b : κ => a < b) (fun a b : κ => a < b) fun a b : κ => a < b]

/-- Insertions keep a dictionary sorted. -/
theorem Sorted.insert {d : List (κ × α)} (h : Sorted d) (key : κ) (value : α) :
    Sorted (insert key value d) := by
  induction d with
  | nil => exact List.pairwise_singleton _ _
  | cons entry d ih =>
    obtain ⟨k, v⟩ := entry
    obtain ⟨hfirst, hrest⟩ := sorted_cons_iff.1 h
    unfold Dict.insert
    split
    · -- A known key keeps its place.
      rename_i heq
      rw [heq]
      exact sorted_cons_iff.2 ⟨hfirst, hrest⟩
    · rename_i hne
      split
      · -- A key before the first one is before all.
        rename_i hlt
        refine sorted_cons_iff.2 ⟨fun other hother => ?_, h⟩
        rcases List.mem_cons.1 hother with rfl | hother
        · exact hlt
        · exact Trans.trans hlt (hfirst other hother)
      · -- A key behind the first one stays behind it, as do the keys that were there.
        rename_i hge
        have hlt : k < key := by
          rcases Std.Trichotomous.rel_or_eq_or_rel_swap (r := fun a b : κ => a < b)
            (a := key) (b := k) with hlt | heq | hgt
          · exact absurd hlt hge
          · exact absurd heq hne
          · exact hgt
        refine sorted_cons_iff.2 ⟨fun other hother => ?_, ih hrest⟩
        obtain ⟨_, hfind⟩ := (mem_keys_iff_find? other _).1 hother
        rw [find?_insert] at hfind
        by_cases hkey : key = other
        · exact hkey ▸ hlt
        · rw [if_neg hkey] at hfind
          exact hfirst other ((mem_keys_iff_find? other d).2 ⟨_, hfind⟩)

/-- A dictionary of a list is sorted. -/
theorem sorted_ofList (entries : List (κ × α)) : Sorted (ofList entries) := by
  have hfold (d : List (κ × α)) (hd : Sorted d) :
      Sorted (entries.foldl (fun d (k, v) => Dict.insert k v d) d) := by
    induction entries generalizing d with
    | nil => exact hd
    | cons entry entries ih => exact ih _ (hd.insert entry.1 entry.2)
  exact hfold [] sorted_nil

end Insert

variable [Std.Irrefl fun a b : κ => a < b]

/-- A sorted dictionary repeats no key. -/
theorem Sorted.nodup {d : List (κ × α)} (h : Sorted d) : (keys d).Nodup := by
  refine List.Pairwise.imp (fun {first second} hlt => ?_) h
  rintro rfl
  exact Std.Irrefl.irrefl first hlt

variable [DecidableEq κ]
variable [Trans (fun a b : κ => a < b) (fun a b : κ => a < b) fun a b : κ => a < b]

/-- Sorted dictionaries are equal when the same is found in them. -/
theorem Sorted.ext {d e : List (κ × α)} (hd : Sorted d) (he : Sorted e)
    (h : ∀ key, find? key d = find? key e) : d = e := by
  -- Both have each entry once and the same entries, in the same order.
  have hperm : d.Perm e := by
    refine (List.perm_ext_iff_of_nodup hd.nodup.of_map he.nodup.of_map).2 fun (key, value) => ?_
    rw [← find?_eq_some_iff hd.nodup, ← find?_eq_some_iff he.nodup, h key]
  refine List.Perm.eq_of_pairwise ?_ (List.pairwise_map.1 hd) (List.pairwise_map.1 he) hperm
  exact fun _ _ _ _ hlt hgt => absurd (Trans.trans hlt hgt) (Std.Irrefl.irrefl _)

variable [DecidableLT κ] [Std.Trichotomous fun a b : κ => a < b]

/-- A sorted dictionary is the dictionary of its entries. -/
theorem ofList_eq_self {d : List (κ × α)} (h : Sorted d) : ofList d = d :=
  (sorted_ofList d).ext h fun key => find?_ofList_of_nodup key h.nodup

/-- A dictionary of a list has entries of the list only. -/
theorem mem_of_mem_ofList {entry : κ × α} {entries : List (κ × α)} (h : entry ∈ ofList entries) :
    entry ∈ entries := by
  have hfind := find?_of_mem (sorted_ofList entries).nodup h
  rw [find?_ofList] at hfind
  exact List.mem_reverse.1 (mem_of_find? hfind)

end Order

end Textmate.Dict
