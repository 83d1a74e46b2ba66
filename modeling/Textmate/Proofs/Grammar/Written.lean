import Textmate.Proofs.Grammar.Parts

/-!
# What is written of a rule

A rule that was read is written with the members that it was read from, apart from known members
that are `null`.

Key results:
* `toJson_of_ofDocument?`: a rule that was read is written as the value of its document with known
  members that are `null` left out, at every depth
* `at?_normalized`: that leaves the unknown members of all rules in their places
-/

namespace Textmate.Rule

mutual

/-- The value of a rule without known members that are `null`, also of the rules in it. -/
def normalized : Json → Json
  | .object members => .object (normalizedMembers members)
  | value => value

/-- The members of a rule, without those that are known and `null`. -/
def normalizedMembers : List (String × Json) → List (String × Json)
  | [] => []
  | (key, value) :: members =>
    match normalizedMember? key value with
    | none => normalizedMembers members
    | some value => (key, value) :: normalizedMembers members

/-- What is written of the member with a given key. -/
def normalizedMember? (key : String) : Json → Option Json
  | .null => if knownKeys.contains key then none else some .null
  | .array items => some (.array (if kind key = .rules then normalizedItems items else items))
  | .object members =>
    some (.object (if kind key = .table then normalizedEntries members else members))
  | value => some value

/-- The values of the rules in an array. -/
def normalizedItems : List Json → List Json
  | [] => []
  | item :: items => normalized item :: normalizedItems items

/-- The values of rules by names. -/
def normalizedEntries : List (String × Json) → List (String × Json)
  | [] => []
  | (name, item) :: members => (name, normalized item) :: normalizedEntries members

end

/-- Each member is kept, changed or left out by itself. -/
private theorem normalizedMembers_eq (members : List (String × Json)) :
    normalizedMembers members = Dict.filterMapValues normalizedMember? members := by
  induction members with
  | nil => rfl
  | cons member members ih =>
    obtain ⟨key, value⟩ := member
    rw [normalizedMembers, Dict.filterMapValues_cons, ih]
    cases normalizedMember? key value <;> rfl

/-- Each rule of an array is normalized by itself. -/
theorem normalizedItems_eq_map (items : List Json) :
    normalizedItems items = items.map normalized := by
  induction items with
  | nil => rfl
  | cons item items ih => rw [normalizedItems, ih, List.map_cons]

/-- Each named rule is normalized under its name. -/
theorem normalizedEntries_eq_mapValues (members : List (String × Json)) :
    normalizedEntries members = Dict.mapValues (fun _ => normalized) members := by
  induction members with
  | nil => rfl
  | cons member members ih => rw [normalizedEntries, ih, Dict.mapValues_cons]

/-- An unknown member stays as it is, whatever its value. -/
private theorem normalizedMember?_of_not_mem {key : String} (hkey : key ∉ knownKeys)
    (value : Json) :
    normalizedMember? key value = some value := by
  have hkind := (kind_eq_unknown_iff key).2 hkey
  cases value <;> simp [normalizedMember?, hkind, hkey]

/-! ## Writing what was read -/

/-- A known member that is `null` is left out. -/
private theorem normalizedMember?_null {key : String} (hkey : kind key ≠ .unknown) :
    normalizedMember? key .null = none := by
  have hknown : key ∈ knownKeys := by_contra fun h => hkey ((kind_eq_unknown_iff key).2 h)
  rw [normalizedMember?, if_pos (List.contains_iff_mem.2 hknown)]

/-- A text that was read is written as it is, and one that is `null` is not written. -/
private theorem toJson?_of_option? {key : String} (hkey : kind key = .text) {document : Document}
    {text : Option String} (h : Document.option? Document.string? document = some text) :
    ∃ value, document.value? = some value ∧
      (Part.text text).toJson? = normalizedMember? key value := by
  cases document with
  | null =>
    cases h
    exact ⟨.null, rfl, (normalizedMember?_null (by simp [hkey])).symm⟩
  | string s =>
    obtain ⟨t, rfl, rfl⟩ := Option.map_eq_some_iff.1 h
    exact ⟨.string t, rfl, rfl⟩
  | _ => cases h

/-- A list of rules is written when it was one, and left out when it was `null`. -/
private theorem toJson?_of_list? {key : String} (hkey : kind key = .rules) {document : Document}
    {rules : Option (List Rule)} (h : list? document = some rules)
    (hrules : ∀ list, rules = some list → ∃ items, document.value? = some (.array items) ∧
      toItems list = normalizedItems items) :
    ∃ value, document.value? = some value ∧
      (Part.rules rules).toJson? = normalizedMember? key value := by
  cases rules with
  | none =>
    -- Nothing else than null is read as a list that is missing.
    cases document with
    | null => exact ⟨.null, rfl, (normalizedMember?_null (by simp [hkey])).symm⟩
    | array items => simp [list?] at h
    | _ => cases h
  | some list =>
    obtain ⟨items, hvalue, hsame⟩ := hrules list rfl
    refine ⟨.array items, hvalue, ?_⟩
    rw [Part.toJson?, Option.map_some, hsame, normalizedMember?, if_pos hkey]

/-- A table of rules is written when it was one, and left out when it was `null`. -/
private theorem toJson?_of_table? {key : String} (hkey : kind key = .table) {document : Document}
    {rules : Option Repository} (h : table? document = some rules)
    (hrules : ∀ table, rules = some table → ∃ members, document.value? = some (.object members) ∧
      toEntries table = normalizedEntries members) :
    ∃ value, document.value? = some value ∧
      (Part.table rules).toJson? = normalizedMember? key value := by
  cases rules with
  | none =>
    -- The same goes for a table.
    cases document with
    | null => exact ⟨.null, rfl, (normalizedMember?_null (by simp [hkey])).symm⟩
    | object members => simp [table?] at h
    | _ => cases h
  | some table =>
    obtain ⟨members, hvalue, hsame⟩ := hrules table rfl
    refine ⟨.object members, hvalue, ?_⟩
    rw [Part.toJson?, Option.map_some, hsame, normalizedMember?, if_pos hkey]

/-! The lemmas follow the readers, from a rule to the rules inside it. -/

mutual

/-- A rule that was read is written as the value of its document, apart from known members that are
`null`. -/
theorem toJson_of_ofDocument? : (document : Document) → {rule : Rule} →
    ofDocument? document = some rule →
      ∃ value, document.value? = some value ∧ rule.toJson = normalized value
  | .object members, rule, h => by
    obtain ⟨parts, hparts, rfl⟩ := Option.map_eq_some_iff.1 h
    obtain ⟨values, hvalues, hsame⟩ := toJson_of_parts? members hparts
    have hfit := fit_ofList (kind_of_parts? hparts)
    refine ⟨.ofMembers values, by rw [Document.value?, hvalues]; rfl, ?_⟩
    -- Both sides leave out what is not written, after the members were put in order.
    rw [toJson_eq, Parts.written_toRule (Dict.sorted_ofList parts) hfit, Json.ofMembers, normalized,
      normalizedMembers_eq, Dict.filterMapValues_eq, Dict.filterMapValues_eq normalizedMember?,
      Dict.mapValues_ofList, Dict.mapValues_ofList, hsame]

/-- The parts of a rule are written as what is left of its members. -/
private theorem toJson_of_parts? : (members : List (Option String × Document)) → {parts : Parts} →
    parts? members = some parts →
      ∃ values, Document.members? members = some values ∧
        Dict.mapValues (fun _ => Part.toJson?) parts = Dict.mapValues normalizedMember? values
  | [], _, h => by
    cases h
    exact ⟨[], rfl, rfl⟩
  | (key, document) :: members, _, h => by
    obtain ⟨k, part, others, rfl, hpart, hothers, rfl⟩ := parts?_cons_eq_some h
    obtain ⟨values, hvalues, hsame⟩ := toJson_of_parts? members hothers
    -- One member, by the kind of its key; the rules in it are those of the other lemmas.
    have hmember : ∃ value, document.value? = some value ∧
        part.toJson? = normalizedMember? k value := by
      unfold part? at hpart
      split at hpart
      all_goals
        rename_i hkind
        obtain ⟨read, hread, rfl⟩ := Option.map_eq_some_iff.1 hpart
      · exact toJson?_of_option? hkind hread
      · exact toJson?_of_list? hkind hread fun list heq => toItems_of_list? document (heq ▸ hread)
      · exact toJson?_of_table? hkind hread fun table heq =>
          toEntries_of_table? document (heq ▸ hread)
      · -- A member with an unknown key is kept as it is.
        have hkey := (kind_eq_unknown_iff k).1 hkind
        exact ⟨read, hread, (normalizedMember?_of_not_mem hkey read).symm⟩
    obtain ⟨value, hvalue, hwritten⟩ := hmember
    refine ⟨(k, value) :: values, by simp [Document.members?, hvalue, hvalues], ?_⟩
    rw [Dict.mapValues_cons, Dict.mapValues_cons, hsame, hwritten]

/-- A list of rules that was read is written as the normalized items of an array. -/
theorem toItems_of_list? : (document : Document) → {rules : List Rule} →
    list? document = some (some rules) →
      ∃ items, document.value? = some (.array items) ∧ toItems rules = normalizedItems items
  | .array items, _, h => by
    obtain ⟨rules, hrules, heq⟩ := Option.map_eq_some_iff.1 h
    cases heq
    obtain ⟨values, hvalues, hsame⟩ := toItems_of_ofItems? items hrules
    exact ⟨values, by rw [Document.value?, hvalues]; rfl, hsame⟩

/-- A table of rules that was read is written as the normalized members of an object. -/
theorem toEntries_of_table? : (document : Document) → {rules : Repository} →
    table? document = some (some rules) →
      ∃ members, document.value? = some (.object members) ∧
        toEntries rules = normalizedEntries members
  | .object members, _, h => by
    obtain ⟨rules, hrules, heq⟩ := Option.map_eq_some_iff.1 h
    cases heq
    obtain ⟨values, hvalues, hsame⟩ := toEntries_of_ofEntries? members hrules
    refine ⟨Dict.ofList values, by rw [Document.value?, hvalues]; rfl, ?_⟩
    -- The names are put in order on both sides in the same way.
    rw [toEntries_eq_mapValues, normalizedEntries_eq_mapValues] at hsame ⊢
    rw [Dict.mapValues_ofList, Dict.mapValues_ofList, hsame]

/-- The rules of an array are written as its normalized items. -/
private theorem toItems_of_ofItems? : (items : List Document) → {rules : List Rule} →
    ofItems? items = some rules →
      ∃ values, Document.values? items = some values ∧ toItems rules = normalizedItems values
  | [], _, h => by
    cases h
    exact ⟨[], rfl, rfl⟩
  | item :: items, _, h => by
    unfold ofItems? at h
    split at h
    · rename_i rule rules hrule hrules
      cases h
      obtain ⟨value, hvalue, hsame⟩ := toJson_of_ofDocument? item hrule
      obtain ⟨values, hvalues, hrest⟩ := toItems_of_ofItems? items hrules
      -- The first rule comes from the first item, and the rest from the rest.
      refine ⟨value :: values, by simp [Document.values?, hvalue, hvalues], ?_⟩
      rw [toItems, normalizedItems, hsame, hrest]
    · cases h

/-- The rules of an object are written as its normalized members. -/
private theorem toEntries_of_ofEntries? : (members : List (Option String × Document)) →
    {rules : Repository} → ofEntries? members = some rules →
      ∃ values, Document.members? members = some values ∧
        toEntries rules = normalizedEntries values
  | [], _, h => by
    cases h
    exact ⟨[], rfl, rfl⟩
  | (name, item) :: members, _, h => by
    unfold ofEntries? at h
    split at h
    · rename_i name rule rules hrule hrules
      cases h
      obtain ⟨value, hvalue, hsame⟩ := toJson_of_ofDocument? item hrule
      obtain ⟨values, hvalues, hrest⟩ := toEntries_of_ofEntries? members hrules
      refine ⟨(name, value) :: values, by simp [Document.members?, hvalue, hvalues], ?_⟩
      rw [toEntries, normalizedEntries, hsame, hrest]
    · cases h

end

/-! ## Unknown members -/

/-- The paths from a rule to itself and to the rules in it. -/
inductive Below : List Json.Step → Prop
  | here : Below []
  | pattern {path : List Json.Step} (index : Nat) :
      Below path → Below (.member "patterns" :: .item index :: path)
  | entry {path : List Json.Step} {key : String} (hkey : kind key = .table) (name : String) :
      Below path → Below (.member key :: .member name :: path)

/-- A step from a member to a rule of its list leads to the normalized rule. -/
private theorem step?_normalizedMember?_item {key : String} (hkey : kind key = .rules)
    (value : Json) (index : Nat) : (normalizedMember? key value).bind (·.step? (.item index)) =
      (value.step? (.item index)).map normalized := by
  cases value with
  -- Only an array has items, and its items are normalized in their places.
  | array items =>
    rw [normalizedMember?, if_pos hkey, normalizedItems_eq_map]
    exact List.getElem?_map
  | null => rw [normalizedMember?_null (by simp [hkey])]; rfl
  | _ => rfl

/-- A step from a member to a rule of its table leads to the normalized rule. -/
private theorem step?_normalizedMember?_member {key : String} (hkey : kind key = .table)
    (value : Json) (name : String) : (normalizedMember? key value).bind (·.step? (.member name)) =
      (value.step? (.member name)).map normalized := by
  cases value with
  -- Only an object has members, and its members are normalized under their names.
  | object members =>
    rw [normalizedMember?, if_pos hkey, normalizedEntries_eq_mapValues]
    exact Dict.find?_mapValues _ name members
  | null => rw [normalizedMember?_null (by simp [hkey])]; rfl
  | _ => rfl

/-- A step from a normalized rule to a member leads to what is left of the member. -/
private theorem step?_normalized {value : Json} (h : value.Canonical) (key : String) :
    (normalized value).step? (.member key) =
      (value.step? (.member key)).bind (normalizedMember? key) := by
  cases h with
  | object hsorted hmembers =>
    rw [normalized, normalizedMembers_eq]
    exact Dict.find?_filterMapValues _ key hsorted.nodup
  | _ => rfl

/-- Two steps from a normalized rule to a rule in it lead to that rule, normalized. -/
private theorem step?_step?_normalized {value : Json} (h : value.Canonical) {key : String}
    {step : Json.Step} (hmember : ∀ member, (normalizedMember? key member).bind (·.step? step) =
      (member.step? step).map normalized) :
    ((normalized value).step? (.member key)).bind (·.step? step) =
      ((value.step? (.member key)).bind (·.step? step)).map normalized := by
  rw [step?_normalized h, Option.bind_assoc, Option.map_bind]
  exact congrArg _ (funext hmember)

/-- Two steps that lead to a rule lead to what is written of it. -/
theorem at?_of_steps {value written : Json} (h : value.Canonical) {first second : Json.Step}
    {path : List Json.Step}
    (hsteps : (written.step? first).bind (·.step? second) =
      ((value.step? first).bind (·.step? second)).map normalized)
    (hpath : ∀ rule : Json, rule.Canonical → (normalized rule).at? path = rule.at? path) :
    written.at? (first :: second :: path) = value.at? (first :: second :: path) := by
  simp only [Json.at?, ← Option.bind_assoc, hsteps]
  -- A path that leads nowhere does so in both values.
  cases hrule : (value.step? first).bind (·.step? second) with
  | none => rfl
  | some rule =>
    obtain ⟨member, hmember, hrule⟩ := Option.bind_eq_some_iff.1 hrule
    exact hpath rule ((h.of_step? hmember).of_step? hrule)

/-- The unknown members of a rule, and of the rules in it, are written as they are. -/
theorem at?_normalized {path : List Json.Step} (hpath : Below path) {value : Json}
    (h : value.Canonical) {key : String} (hkey : key ∉ knownKeys) :
    (normalized value).at? (path ++ [.member key]) = value.at? (path ++ [.member key]) := by
  -- Along the path, rule by rule; the last step goes to the unknown member.
  induction hpath generalizing value with
  | here =>
    simp only [List.nil_append, Json.at?, step?_normalized h]
    cases value.step? (.member key) with
    | none => rfl
    | some inner => rw [Option.bind_some, normalizedMember?_of_not_mem hkey]
  | pattern index _ ih =>
    have hpatterns : kind "patterns" = .rules := rfl
    have hitem := step?_step?_normalized h fun member =>
      step?_normalizedMember?_item hpatterns member index
    exact at?_of_steps h hitem fun _ => ih
  | entry htable name _ ih =>
    have hentry := step?_step?_normalized h fun member =>
      step?_normalizedMember?_member htable member name
    exact at?_of_steps h hentry fun _ => ih

end Textmate.Rule
