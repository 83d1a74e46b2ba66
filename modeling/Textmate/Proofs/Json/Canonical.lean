import Textmate.Json.Decode
import Textmate.Proofs.Dict

/-!
# Values of documents

The members of an object are a dictionary. `Json.Canonical` is this property of all objects in a
value; it makes equality of values equality of what they hold.

Key results:
* `Document.canonical_of_value?`: values of documents have it
* `Json.Canonical.value?_ofJson`: a value that has it is the value of its document
-/

namespace Textmate

namespace Json

/-- All objects in the value are sorted dictionaries. -/
inductive Canonical : Json → Prop
  | null : Canonical .null
  | bool (value : Bool) : Canonical (.bool value)
  | number (value : Number) : Canonical (.number value)
  | string (value : String) : Canonical (.string value)
  | array {items : List Json} (hitems : ∀ item ∈ items, Canonical item) : Canonical (.array items)
  | object {members : List (String × Json)} (hsorted : Dict.Sorted members)
      (hmembers : ∀ member ∈ members, Canonical member.2) : Canonical (.object members)

/-- A step from an array or an object to a value in it. -/
inductive Step where
  | item (index : Nat)
  | member (key : String)

/-- The value that the step leads to. -/
def step? : Json → Step → Option Json
  | .array items, .item index => items[index]?
  | .object members, .member key => Dict.find? key members
  | _, _ => none

/-- The value at the end of a path. -/
def at? (value : Json) : List Step → Option Json
  | [] => some value
  | step :: path => (value.step? step).bind fun inner => inner.at? path

/-- What is in a value with sorted objects has sorted objects. -/
theorem Canonical.of_step? {value inner : Json} (h : value.Canonical) {step : Step}
    (hstep : value.step? step = some inner) : inner.Canonical := by
  -- A step into an array is by a number, and one into an object by a key.
  cases h with
  | array hitems =>
    cases step with
    | item index => exact hitems inner (List.mem_of_getElem? hstep)
    | member key => cases hstep
  | object hsorted hmembers =>
    cases step with
    | item index => cases hstep
    | member key => exact hmembers (key, inner) (Dict.mem_of_find? hstep)
  | _ => cases hstep

end Json

namespace Document

/-- The items of a list become documents one by one. -/
theorem ofItems_eq_map (items : List Json) : ofItems items = items.map ofJson := by
  induction items with
  | nil => rfl
  | cons item items ih => rw [ofItems, ih, List.map_cons]

/-- The members of an object become members of a document, with the same keys. -/
theorem ofMembers_eq_map (members : List (String × Json)) :
    ofMembers members = members.map fun (key, item) => (some key, ofJson item) := by
  induction members with
  | nil => rfl
  | cons member members ih => rw [ofMembers, ih, List.map_cons]

/-- Documents of values have these values. -/
private theorem values?_ofItems {items : List Json}
    (h : ∀ item ∈ items, (ofJson item).value? = some item) :
    values? (ofItems items) = some items := by
  induction items with
  | nil => rfl
  | cons item items ih =>
    rw [List.forall_mem_cons] at h
    simp [ofItems, values?, h.1, ih h.2]

/-- Members of documents of values have these values. -/
private theorem members?_ofMembers {members : List (String × Json)}
    (h : ∀ member ∈ members, (ofJson member.2).value? = some member.2) :
    members? (ofMembers members) = some members := by
  induction members with
  | nil => rfl
  | cons member members ih =>
    rw [List.forall_mem_cons] at h
    simp [ofMembers, members?, h.1, ih h.2]

mutual

/-- The value of a document holds its objects in order. -/
theorem canonical_of_value? : (document : Document) → {value : Json} →
    document.value? = some value → value.Canonical
  | .null, _, h => by
    cases h
    exact .null
  | .bool b, _, h => by
    cases h
    exact .bool b
  | .number n, _, h => by
    obtain ⟨number, -, rfl⟩ := Option.map_eq_some_iff.1 h
    exact .number number
  | .string s, _, h => by
    obtain ⟨text, -, rfl⟩ := Option.map_eq_some_iff.1 h
    exact .string text
  | .array items, _, h => by
    obtain ⟨values, hvalues, rfl⟩ := Option.map_eq_some_iff.1 h
    exact .array (canonical_of_values? items hvalues)
  | .object members, _, h => by
    obtain ⟨values, hvalues, rfl⟩ := Option.map_eq_some_iff.1 h
    -- Of repeated members the dictionary has some, and all of them are in order.
    refine .object (Dict.sorted_ofList values) fun member hmember => ?_
    exact canonical_of_members? members hvalues member (Dict.mem_of_mem_ofList hmember)

/-- So do the values of a list of documents. -/
private theorem canonical_of_values? : (items : List Document) → {values : List Json} →
    values? items = some values → ∀ value ∈ values, value.Canonical
  | [], _, h => by
    cases h
    simp
  | item :: items, _, h => by
    unfold values? at h
    split at h
    · rename_i value values hvalue hvalues
      cases h
      exact List.forall_mem_cons.2
        ⟨canonical_of_value? item hvalue, canonical_of_values? items hvalues⟩
    · cases h

/-- So do the values of members. -/
theorem canonical_of_members? : (members : List (Option String × Document)) →
    {values : List (String × Json)} → members? members = some values →
      ∀ value ∈ values, value.2.Canonical
  | [], _, h => by
    cases h
    simp
  | (key, item) :: members, _, h => by
    unfold members? at h
    split at h
    · rename_i k value values hvalue hvalues
      cases h
      exact List.forall_mem_cons.2
        ⟨canonical_of_value? item hvalue, canonical_of_members? members hvalues⟩
    · cases h

end

end Document

/-- The document of a value has that value. -/
theorem Json.Canonical.value?_ofJson {value : Json} (h : value.Canonical) :
    (Document.ofJson value).value? = some value := by
  induction h with
  | null => rfl
  | bool => rfl
  | number => rfl
  | string => rfl
  | array _ ih => rw [Document.ofJson, Document.value?, Document.values?_ofItems ih]; rfl
  | object hsorted _ ih =>
    -- Sorted members are not put into another order.
    rw [Document.ofJson, Document.value?, Document.members?_ofMembers ih, Option.map_some,
      Json.ofMembers, Dict.ofList_eq_self hsorted]

end Textmate
