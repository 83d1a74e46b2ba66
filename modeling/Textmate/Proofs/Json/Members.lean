import Textmate.Proofs.Json.Canonical
import Textmate.Proofs.List

/-!
# Members of documents

What `Document.Members` finds is what is found in the value of the document.

Key results:
* `Members.find?_of_find`: the one member of a key is the member of the value
* `Members.find_ofMembers`: in the document of a value every key is found
-/

namespace Textmate.Document

/-- Items that have values have a list of values. -/
theorem values?_of_forall₂ {items : List Document} {values : List Json}
    (h : List.Forall₂ (fun item value => item.value? = some value) items values) :
    values? items = some values := by
  induction h with
  | nil => rfl
  | cons hvalue _ ih => simp [values?, hvalue, ih]

/-- The members of a value are the members of its document, in order. -/
theorem forall₂_of_members? {members : Members} {values : List (String × Json)}
    (h : members? members = some values) :
    List.Forall₂ (fun member value => member.1 = some value.1 ∧ member.2.value? = some value.2)
      members values := by
  induction members generalizing values with
  | nil =>
    cases h
    exact .nil
  | cons member members ih =>
    obtain ⟨key, document⟩ := member
    -- A member without a key has no value, and then neither has the object.
    unfold members? at h
    split at h
    · rename_i k value values hvalue hvalues
      cases h
      exact .cons ⟨rfl, hvalue⟩ (ih hvalues)
    · cases h

/-- An object has a value when its members have. -/
theorem exists_members? {members : Members}
    (h : ∀ member ∈ members, ∃ key value, member.1 = some key ∧ member.2.value? = some value) :
    ∃ values, members? members = some values := by
  induction members with
  | nil => exact ⟨[], rfl⟩
  | cons member members ih =>
    obtain ⟨_, document⟩ := member
    rw [List.forall_mem_cons] at h
    obtain ⟨⟨key, value, rfl, hvalue⟩, hrest⟩ := h
    obtain ⟨values, hvalues⟩ := ih hrest
    exact ⟨(key, value) :: values, by simp [members?, hvalue, hvalues]⟩

namespace Members

variable {α : Type} {members : Members} {key : String} {read : Document → Option α}

/-- A required member is there once and can be read. -/
theorem required_eq_some_iff {a : α} : members.required key read = some a ↔
    ∃ document, members.find [key] = some (some document) ∧ read document = some a := by
  simp [required, Option.bind_eq_some_iff]

/-- A member with a default is missing, or it is there once and can be read. -/
theorem withDefault_eq_some_iff {default a : α} :
    members.withDefault key default read = some a ↔
      members.find [key] = some none ∧ default = a ∨
        ∃ document, members.find [key] = some (some document) ∧ read document = some a := by
  unfold withDefault
  cases members.find [key] with
  | none => simp
  | some found => cases found <;> simp

/-- A key is found to be missing when no member has it. -/
theorem find_eq_some_none_iff :
    members.find [key] = some none ↔ members.filter (fun member => member.1 = some key) = [] := by
  unfold find
  -- The definition compares with the keys of a list, here of one key.
  rw [List.filter_congr (q := fun member => decide (member.1 = some key))
    (fun member _ => by simp [eq_comm])]
  split
  · rename_i hfilter
    exact ⟨fun _ => hfilter, fun _ => rfl⟩
  · rename_i hfilter
    exact ⟨fun h => (by cases h), fun h => (by cases hfilter.symm.trans h)⟩
  · rename_i hnil _
    exact ⟨fun h => (by cases h), fun h => absurd h hnil⟩

/-- A member is found when it is the only one with its key. -/
theorem find_eq_some_some_iff {document : Document} :
    members.find [key] = some (some document) ↔
      members.filter (fun member => member.1 = some key) = [(some key, document)] := by
  unfold find
  rw [List.filter_congr (q := fun member => decide (member.1 = some key))
    (fun member _ => by simp [eq_comm])]
  split
  · rename_i hfilter
    exact ⟨fun h => (by cases h), fun h => (by cases hfilter.symm.trans h)⟩
  · rename_i k found hfilter
    -- The only member that is left has the key that was asked for.
    have hk : k = some key := by
      have hmem := List.mem_filter.1 (hfilter ▸ List.mem_singleton_self (k, found))
      exact of_decide_eq_true hmem.2
    rw [hfilter, hk]
    simp
  · rename_i hsingle
    exact ⟨fun h => (by cases h), fun h => absurd h (hsingle _ _)⟩

/-- A member with another key makes no difference. -/
theorem find_cons_of_ne {member : Option String × Document} (h : member.1 ≠ some key) :
    find (member :: members) [key] = members.find [key] := by
  unfold find
  rw [List.filter_cons_of_neg (by simpa [eq_comm] using h)]

/-- The member that is found is the only one with its key. -/
theorem mem_of_find {document : Document} (h : members.find [key] = some (some document)) :
    (some key, document) ∈ members ∧ ∀ other, (some key, other) ∈ members → other = document := by
  have hfilter := find_eq_some_some_iff.1 h
  -- The members with the key are a list of one element.
  have hmem (other : Document) : (some key, other) ∈ members ↔ other = document := by
    have hfiltered : (some key, other) ∈ members.filter (fun member => member.1 = some key) ↔ _ :=
      List.mem_filter
    rw [hfilter] at hfiltered
    simpa using hfiltered.symm
  exact ⟨(hmem document).2 rfl, fun other => (hmem other).1⟩

/-- No member has a key that is found to be missing. -/
theorem not_mem_of_find (h : members.find [key] = some none) (document : Document) :
    (some key, document) ∉ members := fun hmem =>
  List.filter_eq_nil_iff.1 (find_eq_some_none_iff.1 h) _ hmem (decide_eq_true rfl)

/-- The one member of a key is the member of the value. -/
theorem find?_of_find {values : List (String × Json)} (hvalues : members? members = some values)
    {found : Option Document} (h : members.find [key] = some found) :
    Dict.find? key (Dict.ofList values) = found.bind value? := by
  have hsame := forall₂_of_members? hvalues
  -- The value of the key comes from some member with the key.
  have hmem {value : Json} (hvalue : Dict.find? key (Dict.ofList values) = some value) :
      ∃ document, (some key, document) ∈ members ∧ document.value? = some value := by
    obtain ⟨⟨k, document⟩, hmember, rfl, hdocument⟩ :=
      hsame.flip.exists_of_mem (Dict.mem_of_mem_ofList (Dict.mem_of_find? hvalue))
    exact ⟨document, hmember, hdocument⟩
  cases found with
  | none =>
    rw [Option.bind_none, Option.eq_none_iff_forall_ne_some]
    intro value hvalue
    obtain ⟨document, hmember, -⟩ := hmem hvalue
    exact not_mem_of_find h document hmember
  | some document =>
    obtain ⟨hdocument, hunique⟩ := mem_of_find h
    obtain ⟨⟨k, value⟩, hvalue, hk, hdocumentValue⟩ := hsame.exists_of_mem hdocument
    obtain rfl : key = k := Option.some.inj hk
    obtain ⟨other, hother⟩ := (Dict.mem_keys_iff_find? key (Dict.ofList values)).1
      (Dict.mem_keys_ofList.2 (Dict.mem_keys_of_mem hvalue))
    obtain ⟨_, hmember, hotherValue⟩ := hmem hother
    rw [hother, Option.bind_some, ← hotherValue, hunique _ hmember]

/-- In the document of a value every key is found. -/
theorem find_ofMembers {values : List (String × Json)} (h : (Dict.keys values).Nodup)
    (key : String) :
    find (ofMembers values) [key] = some ((Dict.find? key values).map ofJson) := by
  induction values with
  | nil => rfl
  | cons entry values ih =>
    obtain ⟨k, value⟩ := entry
    obtain ⟨hnew, hrest⟩ := List.nodup_cons.1 h
    by_cases hk : k = key
    · subst hk
      -- The key is not repeated, so no other member has it.
      have hnil : (ofMembers values).filter (fun member => decide (member.1 = some k)) = [] := by
        rw [List.filter_eq_nil_iff, ofMembers_eq_map, List.forall_mem_map]
        intro entry hentry heq
        exact hnew (List.mem_map.2 ⟨entry, hentry, Option.some.inj (of_decide_eq_true heq)⟩)
      simp only [Dict.find?, if_pos, Option.map_some]
      rw [find_eq_some_some_iff, ofMembers, List.filter_cons_of_pos (by simp), hnil]
    · have hother : (some k, ofJson value).1 ≠ some key := fun heq => hk (Option.some.inj heq)
      rw [Dict.find?, if_neg hk, ← ih hrest, ofMembers, find_cons_of_ne hother]

end Members

end Textmate.Document
