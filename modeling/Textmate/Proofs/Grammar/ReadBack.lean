import Textmate.Proofs.Grammar.Parts

/-!
# Rules that are read back

What a rule is written as is read as that rule again, if its dictionaries are dictionaries and its
unknown members are unknown: a member with a known key would be written in the place of the
known one.

Key results:
* `ofDocument?_toJson`: a rule is read back from what is written
* `valid_of_ofDocument?`: rules that were read satisfy what that asks for
-/

namespace Textmate.Rule

/-! ## Properties of all rules in a rule -/

/-- The rules that a part consists of. -/
def Part.children : Part → List Rule
  | .rules value => value.getD []
  | .table value => Dict.values (value.getD [])
  | _ => []

/-- The rules directly in a rule. -/
def children (rule : Rule) : List Rule :=
  rule.knownParts.flatMap (·.2.children)

/-- A property of a rule and of all rules in it. -/
inductive Everywhere (P : Rule → Prop) : Rule → Prop
  | intro {rule : Rule} (here : P rule) (below : ∀ child ∈ rule.children, Everywhere P child) :
      Everywhere P rule

/-- The tables, the unknown members and the objects in them are sorted dictionaries. -/
structure Ordered (rule : Rule) : Prop where
  table : ∀ key table, (key, Part.table (some table)) ∈ rule.knownParts → Dict.Sorted table
  extra : Dict.Sorted rule.extra
  canonical : ∀ member ∈ rule.extra, member.2.Canonical

/-- No unknown member has a known key. -/
def KeysApart (rule : Rule) : Prop :=
  ∀ key ∈ knownKeys, Dict.find? key rule.extra = none

/-! ## Reading parts -/

/-- Rules that are read back one by one are read back from an array. -/
private theorem ofItems?_toItems {rules : List Rule}
    (h : ∀ rule ∈ rules, ofDocument? (.ofJson rule.toJson) = some rule) :
    ofItems? (Document.ofItems (toItems rules)) = some rules := by
  induction rules with
  | nil => rfl
  | cons rule rules ih =>
    rw [List.forall_mem_cons] at h
    simp [toItems, Document.ofItems, ofItems?, h.1, ih h.2]

/-- Rules that are read back one by one are read back under their names. -/
private theorem ofEntries?_toEntries {rules : Repository}
    (h : ∀ rule ∈ Dict.values rules, ofDocument? (.ofJson rule.toJson) = some rule) :
    ofEntries? (Document.ofMembers (toEntries rules)) = some rules := by
  induction rules with
  | nil => rfl
  | cons entry rules ih =>
    obtain ⟨name, rule⟩ := entry
    rw [Dict.values, List.map_cons, List.forall_mem_cons] at h
    simp [toEntries, Document.ofMembers, ofEntries?, h.1, ih h.2]

/-- A sorted table of such rules is read back. -/
theorem table?_toEntries {rules : Repository} (hsorted : Dict.Sorted rules)
    (h : ∀ rule ∈ Dict.values rules, ofDocument? (.ofJson rule.toJson) = some rule) :
    table? (.ofJson (.object (toEntries rules))) = some (some rules) := by
  rw [Document.ofJson, table?, ofEntries?_toEntries h, Option.map_some, Dict.ofList_eq_self hsorted]

/-- A list of such rules is read back. -/
theorem list?_toItems {rules : List Rule}
    (h : ∀ rule ∈ rules, ofDocument? (.ofJson rule.toJson) = some rule) :
    list? (.ofJson (.array (toItems rules))) = some (some rules) := by
  rw [Document.ofJson, list?, ofItems?_toItems h, Option.map_some]

/-- A known part is read from what it is written as. -/
private theorem part?_toJson? {key : String} {part : Part} (hkind : part.kind = kind key)
    (hknown : part.kind ≠ .unknown)
    (hsorted : ∀ table, part = .table (some table) → Dict.Sorted table)
    (hchildren : ∀ child ∈ part.children, ofDocument? (.ofJson child.toJson) = some child) :
    (part.toJson?.bind fun value => part? key (.ofJson value)) =
      part.toJson?.map fun _ => part := by
  unfold part?
  rw [← hkind]
  -- By the kind of the part; one that is absent is not written and not read.
  cases part with
  | text value => cases value <;> rfl
  | rules value =>
    cases value with
    | none => rfl
    | some rules =>
      have hlist : list? (.ofJson (.array (toItems rules))) = some (some rules) :=
        list?_toItems hchildren
      simp [Part.kind, Part.toJson?, hlist]
  | table value =>
    cases value with
    | none => rfl
    | some table =>
      -- A table has to be sorted, as reading sorts it.
      have htable : table? (.ofJson (.object (toEntries table))) = some (some table) :=
        table?_toEntries (hsorted table rfl) hchildren
      simp [Part.kind, Part.toJson?, htable]
  | unknown value => exact absurd rfl hknown

/-- An unknown member is read back from its value. -/
private theorem part?_of_not_mem {key : String} (hkey : key ∉ knownKeys) {value : Json}
    (h : value.Canonical) : part? key (.ofJson value) = some (.unknown value) := by
  rw [part?, (kind_eq_unknown_iff key).2 hkey, h.value?_ofJson]
  rfl

/-- Members with different keys are read as parts when each of them is. -/
private theorem exists_parts?_ofMembers {members : List (String × Json)}
    (hnodup : (Dict.keys members).Nodup)
    (h : ∀ member ∈ members, ∃ part, part? member.1 (.ofJson member.2) = some part) :
    ∃ parts, parts? (Document.ofMembers members) = some parts ∧
      Dict.keys parts = Dict.keys members ∧ ∀ key, Dict.find? key parts =
        (Dict.find? key members).bind fun value => part? key (.ofJson value) := by
  induction members with
  | nil => exact ⟨[], rfl, rfl, fun _ => rfl⟩
  | cons member members ih =>
    obtain ⟨name, value⟩ := member
    obtain ⟨hnew, hrest⟩ := List.nodup_cons.1 hnodup
    rw [List.forall_mem_cons] at h
    obtain ⟨⟨part, hpart⟩, hmembers⟩ := h
    obtain ⟨parts, hparts, hkeys, hfind⟩ := ih hrest hmembers
    -- The key does not come again, so the reader does not refuse it.
    have hother : ∀ member ∈ Document.ofMembers members, member.1 ≠ some name := by
      rw [Document.ofMembers_eq_map, List.forall_mem_map]
      intro member hmember heq
      exact hnew (List.mem_map.2 ⟨member, hmember, Option.some.inj heq⟩)
    refine ⟨(name, part) :: parts, parts?_cons hother hpart hparts, congrArg (name :: ·) hkeys,
      fun key => ?_⟩
    by_cases hkey : name = key
    · simp [Dict.find?, hkey, ← hpart]
    · simp [Dict.find?, hkey, hfind]

/-! ## The rule of the parts -/

namespace Parts

variable {parts : Parts} {key : String}

/-- A text is taken from its part, or is absent with it. -/
private theorem text_eq {value : Option String}
    (h : Dict.find? key parts = (Part.text value).toJson?.map fun _ => .text value) :
    parts.text key = value := by
  cases value <;> simp_all [text, Part.toJson?]

/-- A list of rules is taken from its part, or is absent with it. -/
private theorem rules_eq {value : Option (List Rule)}
    (h : Dict.find? key parts = (Part.rules value).toJson?.map fun _ => .rules value) :
    parts.rules key = value := by
  cases value <;> simp_all [rules, Part.toJson?]

/-- A table of rules is taken from its part, or is absent with it. -/
private theorem table_eq {value : Option Repository}
    (h : Dict.find? key parts = (Part.table value).toJson?.map fun _ => .table value) :
    parts.table key = value := by
  cases value <;> simp_all [table, Part.toJson?]

/-- A rule is made of its known members and its unknown ones. -/
private theorem toRule_eq {rule : Rule} (hunknown : parts.unknown = rule.extra)
    (h : ∀ entry ∈ rule.knownParts,
      Dict.find? entry.1 parts = entry.2.toJson?.map fun _ => entry.2) : parts.toRule = rule := by
  cases rule
  simp only [knownParts, List.forall_mem_cons] at h
  -- One fact for each of the thirteen members, in their order.
  obtain ⟨h1, h2, h3, h4, h5, h6, h7, h8, h9, h10, h11, h12, h13, -⟩ := h
  rw [toRule, text_eq h1, text_eq h2, text_eq h3, text_eq h4, text_eq h5, text_eq h6, text_eq h7,
    table_eq h8, table_eq h9, table_eq h10, table_eq h11, rules_eq h12, table_eq h13, hunknown]

end Parts

/-! ## The members of what is written -/

section Written

variable {rule : Rule} {key : String}

/-- Under a known key stands what the known member is written as. -/
private theorem find?_written_of_known (hkeys : rule.KeysApart) {part : Part}
    (hpart : (key, part) ∈ rule.knownParts) : Dict.find? key rule.written = part.toJson? := by
  -- No unknown member stands under a known key.
  have hextra : Dict.find? key (Dict.ofList rule.extra) = none :=
    Dict.find?_ofList_eq_none_iff.2 (hkeys key (mem_knownKeys hpart))
  rw [find?_written, hextra, Option.none_or, Dict.find?_of_mem rule.nodup_knownParts hpart,
    Option.bind_some]

/-- Under any other key stands the unknown member. -/
private theorem find?_written_of_not_mem (hextra : Dict.Sorted rule.extra)
    (hkey : key ∉ knownKeys) :
    Dict.find? key rule.written = Dict.find? key rule.extra := by
  -- No known member stands under another key.
  have hnone : Dict.find? key rule.knownParts = none :=
    (Dict.find?_eq_none_iff key rule.knownParts).2 hkey
  rw [find?_written, hnone, Option.bind_none, Option.or_none, Dict.ofList_eq_self hextra]

/-- The known parts of a rule are read from what they are written as. -/
def PartsRead (rule : Rule) : Prop :=
  ∀ entry ∈ rule.knownParts,
    (entry.2.toJson?.bind fun value => part? entry.1 (.ofJson value)) =
      entry.2.toJson?.map fun _ => entry.2

/-- Every member that is written is read as a part. -/
private theorem exists_part?_of_mem_written (h : rule.Ordered) (hkeys : rule.KeysApart)
    (hread : rule.PartsRead) :
    ∀ member ∈ rule.written, ∃ part, part? member.1 (.ofJson member.2) = some part := by
  rintro ⟨key, value⟩ hmember
  have hfind := Dict.find?_of_mem rule.sorted_written.nodup hmember
  -- A known key has the part of the rule, and an unknown one any value.
  by_cases hkey : key ∈ knownKeys
  · obtain ⟨part, hpart⟩ := rule.exists_mem_knownParts hkey
    rw [find?_written_of_known hkeys hpart] at hfind
    have hvalue := hread _ hpart
    rw [hfind] at hvalue
    exact ⟨part, hvalue⟩
  · rw [find?_written_of_not_mem h.extra hkey] at hfind
    exact ⟨_, part?_of_not_mem hkey (h.canonical _ (Dict.mem_of_find? hfind))⟩

end Written

/-- A rule is read from what it is written as if its known parts are. -/
private theorem ofDocument?_toJson_of_parts {rule : Rule} (h : rule.Ordered)
    (hkeys : rule.KeysApart)
    (hread : rule.PartsRead) : ofDocument? (.ofJson rule.toJson) = some rule := by
  obtain ⟨parts, hparts, hsame, hfind⟩ :=
    exists_parts?_ofMembers rule.sorted_written.nodup (exists_part?_of_mem_written h hkeys hread)
  -- The parts stand under the keys of the members, which are in order.
  have hsorted : Dict.Sorted parts := by
    rw [Dict.Sorted, hsame]
    exact rule.sorted_written
  have hknown : ∀ entry ∈ rule.knownParts,
      Dict.find? entry.1 parts = entry.2.toJson?.map fun _ => entry.2 := fun entry hentry => by
    rw [hfind, find?_written_of_known hkeys hentry, hread entry hentry]
  -- Under a known key stands a known part, under another key the unknown member itself.
  have hunknown : parts.unknown = rule.extra := by
    rw [parts.unknown_eq]
    refine (hsorted.filterMapValues _).ext h.extra fun key => ?_
    rw [Dict.find?_filterMapValues _ key hsorted.nodup]
    by_cases hkey : key ∈ knownKeys
    · obtain ⟨part, hpart⟩ := rule.exists_mem_knownParts hkey
      rw [hknown _ hpart, hkeys _ hkey]
      cases htoJson : part.toJson? with
      | none => rfl
      | some _ =>
        rw [Option.map_some, Option.bind_some, part.unknown?_eq, if_neg (kind_ne_unknown hpart)]
    · rw [hfind, find?_written_of_not_mem h.extra hkey]
      cases hmember : Dict.find? key rule.extra with
      | none => rfl
      | some value =>
        rw [Option.bind_some, part?_of_not_mem hkey (h.canonical _ (Dict.mem_of_find? hmember))]
        rfl
  rw [toJson_eq, Document.ofJson, ofDocument?, hparts, Option.map_some, Dict.ofList_eq_self hsorted,
    Parts.toRule_eq hunknown hknown]

/-- A rule is read back from what it is written as. -/
theorem ofDocument?_toJson {rule : Rule} (h : rule.Everywhere Ordered)
    (hkeys : rule.Everywhere KeysApart) : ofDocument? (.ofJson rule.toJson) = some rule := by
  -- From the innermost rules out: those in the rule are read back.
  induction h with
  | @intro rule hordered _ ih =>
    obtain ⟨happart, hbelow⟩ := hkeys
    have hchildren : ∀ child ∈ rule.children, ofDocument? (.ofJson child.toJson) = some child :=
      fun child hchild => ih child hchild (hbelow child hchild)
    refine ofDocument?_toJson_of_parts hordered happart fun (key, part) hpart => ?_
    exact part?_toJson? (kind_of_mem_knownParts hpart) (kind_ne_unknown hpart)
      (fun table htable => hordered.table key table (htable ▸ hpart))
      fun child hchild => hchildren child (List.mem_flatMap.2 ⟨_, hpart, hchild⟩)

/-! ## Rules that were read -/

/-- What follows from a property follows everywhere in a rule. -/
theorem Everywhere.imp {P Q : Rule → Prop} (hPQ : ∀ rule, P rule → Q rule) {rule : Rule}
    (h : rule.Everywhere P) : rule.Everywhere Q := by
  induction h with
  | intro here _ ih => exact .intro (hPQ _ here) ih

/-- What a rule that was read satisfies at every depth. -/
abbrev Valid (rule : Rule) : Prop :=
  rule.Everywhere fun rule => rule.Ordered ∧ rule.KeysApart

/-- What a part that was read satisfies. -/
structure Part.Valid (part : Part) : Prop where
  children : ∀ child ∈ part.children, child.Valid
  table : ∀ table, part = .table (some table) → Dict.Sorted table
  value : ∀ value, part = .unknown value → value.Canonical

namespace Parts

variable {parts : Parts}

/-- The known parts of the rule that is made of parts are among them, or absent. -/
private theorem find?_of_mem_knownParts : ∀ entry ∈ parts.toRule.knownParts,
    Dict.find? entry.1 parts = some entry.2 ∨ entry.2.toJson? = none := by
  -- A part of another kind under a key counts as absent, for each of the kinds.
  have htext (key : String) : Dict.find? key parts = some (.text (parts.text key)) ∨
      (Part.text (parts.text key)).toJson? = none := by
    unfold text
    split <;> simp_all [Part.toJson?]
  have hrules (key : String) : Dict.find? key parts = some (.rules (parts.rules key)) ∨
      (Part.rules (parts.rules key)).toJson? = none := by
    unfold rules
    split <;> simp_all [Part.toJson?]
  have htable (key : String) : Dict.find? key parts = some (.table (parts.table key)) ∨
      (Part.table (parts.table key)).toJson? = none := by
    unfold table
    split <;> simp_all [Part.toJson?]
  simp only [knownParts, toRule, List.forall_mem_cons]
  simp [htext, hrules, htable]

/-- A rule that is made of valid parts is valid. -/
private theorem valid_toRule (hsorted : Dict.Sorted parts) (hfit : parts.Fit)
    (h : ∀ key part, Dict.find? key parts = some part → part.Valid) : parts.toRule.Valid := by
  have hextra : parts.toRule.extra = Dict.filterMapValues (fun _ => Part.unknown?) parts :=
    parts.unknown_eq
  have hfind (key : String) : Dict.find? key parts.toRule.extra =
      (Dict.find? key parts).bind Part.unknown? := by
    rw [hextra]
    exact Dict.find?_filterMapValues _ key hsorted.nodup
  have hextra_sorted : Dict.Sorted parts.toRule.extra := by
    rw [hextra]
    exact hsorted.filterMapValues _
  refine .intro ⟨⟨fun key table htable => ?_, hextra_sorted, fun (key, value) hmember => ?_⟩,
    fun key hkey => ?_⟩ fun child hchild => ?_
  · -- Sorted tables, values of unknown members, keys apart, and rules, each from the part.
    rcases find?_of_mem_knownParts _ htable with hpart | hnone
    · exact (h key _ hpart).table table rfl
    · cases hnone
  · have hvalue := hfind key
    rw [Dict.find?_of_mem hextra_sorted.nodup hmember] at hvalue
    obtain ⟨part, hpart, hunknown⟩ := Option.bind_eq_some_iff.1 hvalue.symm
    cases part with
    | unknown other =>
      cases hunknown
      exact (h key _ hpart).value value rfl
    | _ => cases hunknown
  · rw [hfind, unknown?_eq hfit, if_pos hkey]
  · obtain ⟨⟨key, part⟩, hpart, hmem⟩ := List.mem_flatMap.1 hchild
    rcases find?_of_mem_knownParts _ hpart with hfound | hnone
    · exact (h key part hfound).children child hmem
    · -- An absent part has no rules.
      cases part <;> simp_all [Part.toJson?, Part.children, Dict.values]

end Parts

mutual

/-- A rule that was read is read back from what it is written as. -/
theorem valid_of_ofDocument? : (document : Document) → {rule : Rule} →
    ofDocument? document = some rule → rule.Valid
  | .object members, _, h => by
    obtain ⟨parts, hparts, rfl⟩ := Option.map_eq_some_iff.1 h
    refine Parts.valid_toRule (Dict.sorted_ofList parts) (fit_ofList (kind_of_parts? hparts))
      fun key part hpart => ?_
    exact valid_of_parts? members hparts _ (Dict.mem_of_mem_ofList (Dict.mem_of_find? hpart))

/-- Parts that were read are valid. -/
private theorem valid_of_parts? : (members : List (Option String × Document)) → {parts : Parts} →
    parts? members = some parts → ∀ entry ∈ parts, entry.2.Valid
  | [], _, h => by
    cases h
    simp
  | (key, document) :: members, _, h => by
    obtain ⟨k, part, others, rfl, hpart, hothers, rfl⟩ := parts?_cons_eq_some h
    refine List.forall_mem_cons.2 ⟨?_, valid_of_parts? members hothers⟩
    -- The key decides what kind of part it is.
    unfold part? at hpart
    split at hpart
    all_goals obtain ⟨read, hread, rfl⟩ := Option.map_eq_some_iff.1 hpart
    · exact ⟨by simp [Part.children], by simp, by simp⟩
    · exact ⟨valid_of_list? document hread, by simp, by simp⟩
    · -- A table that is null has no rules and no order to keep.
      cases read with
      | none => exact ⟨by simp [Part.children, Dict.values], by simp, by simp⟩
      | some table =>
        obtain ⟨hsorted, hrules⟩ := valid_of_table? document hread
        exact ⟨hrules, by simpa using hsorted, by simp⟩
    · exact ⟨by simp [Part.children], by simp,
        by simpa using Document.canonical_of_value? document hread⟩

/-- The rules of a list that was read are valid; `null` has none. -/
theorem valid_of_list? : (document : Document) → {rules : Option (List Rule)} →
    list? document = some rules → ∀ rule ∈ rules.getD [], rule.Valid
  | .array items, _, h => by
    obtain ⟨rules, hrules, rfl⟩ := Option.map_eq_some_iff.1 h
    exact valid_of_ofItems? items hrules
  | .null, _, h => by
    cases h
    simp

/-- A table of rules that was read is sorted, and its rules are valid. -/
theorem valid_of_table? : (document : Document) → {rules : Repository} →
    table? document = some (some rules) →
      Dict.Sorted rules ∧ ∀ rule ∈ Dict.values rules, rule.Valid
  | .object members, _, h => by
    -- Only an object is read as a table that is there.
    obtain ⟨rules, hrules, heq⟩ := Option.map_eq_some_iff.1 h
    cases heq
    refine ⟨Dict.sorted_ofList rules, fun rule hrule => ?_⟩
    obtain ⟨entry, hentry, rfl⟩ := List.mem_map.1 hrule
    exact valid_of_ofEntries? members hrules _ (List.mem_map_of_mem (Dict.mem_of_mem_ofList hentry))

/-- The rules that were read from an array are valid. -/
private theorem valid_of_ofItems? : (items : List Document) → {rules : List Rule} →
    ofItems? items = some rules → ∀ rule ∈ rules, rule.Valid
  | [], _, h => by
    cases h
    simp
  | item :: items, _, h => by
    unfold ofItems? at h
    split at h
    · rename_i rule rules hrule hrules
      cases h
      exact List.forall_mem_cons.2
        ⟨valid_of_ofDocument? item hrule, valid_of_ofItems? items hrules⟩
    · cases h

/-- The rules that were read under names are valid. -/
private theorem valid_of_ofEntries? : (members : List (Option String × Document)) →
    {rules : Repository} → ofEntries? members = some rules →
      ∀ rule ∈ Dict.values rules, rule.Valid
  | [], _, h => by
    cases h
    simp [Dict.values]
  | (name, item) :: members, _, h => by
    unfold ofEntries? at h
    split at h
    · rename_i name rule rules hrule hrules
      cases h
      exact List.forall_mem_cons.2
        ⟨valid_of_ofDocument? item hrule, valid_of_ofEntries? members hrules⟩
    · cases h

end

end Textmate.Rule
