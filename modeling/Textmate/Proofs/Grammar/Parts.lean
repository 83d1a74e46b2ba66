import Textmate.Grammar.Json
import Textmate.Proofs.Json.Canonical

/-!
# The members of a rule

The members of a rule are handled alike: `Rule.knownParts` lists them under their keys, and what is
read and written is said of every part in that list.

Key results:
* `toJson_eq`: a rule is written as the object of its parts and its unknown members
* `Parts.written_toRule`: what is written of a rule that is made of parts
-/

namespace Textmate.Rule

/-! ## Parts -/

/-- The member with a given key, read as a member of a rule. -/
def part? (key : String) (document : Document) : Option Part :=
  match kind key with
  | .text => (Document.option? Document.string? document).map .text
  | .rules => (list? document).map .rules
  | .table => (table? document).map .table
  | .unknown => document.value?.map .unknown

/-- The members of a rule are read one by one, if no two have the same key. -/
theorem parts?_cons {key : String} {document : Document} {rest : Document.Members} {part : Part}
    {others : Parts} (hnew : ∀ member ∈ rest, member.1 ≠ some key)
    (hpart : part? key document = some part) (hothers : parts? rest = some others) :
    parts? ((some key, document) :: rest) = some ((key, part) :: others) := by
  -- A member is refused only when its key comes again.
  have hany : rest.any (·.1 == some key) = false := by simpa using hnew
  unfold parts?
  simp only [hothers, hany, Bool.false_eq_true, and_false, if_false]
  exact Option.map_eq_some_iff.2 ⟨part, hpart, rfl⟩

/-- When members of a rule are read, each of them has a key and is read as a part. -/
theorem parts?_cons_eq_some {key : Option String} {document : Document} {rest : Document.Members}
    {parts : Parts} (h : parts? ((key, document) :: rest) = some parts) :
    ∃ k part others, key = some k ∧ part? k document = some part ∧ parts? rest = some others ∧
      parts = (k, part) :: others := by
  unfold parts? at h
  split at h
  · rename_i k others hothers
    split at h
    · cases h
    · obtain ⟨part, hpart, rfl⟩ := Option.map_eq_some_iff.1 h
      exact ⟨k, part, others, rfl, hpart, hothers, rfl⟩
  · cases h

namespace Part

/-- The value that a part is written as, if it is written. -/
def toJson? : Part → Option Json
  | .text value => value.map .string
  | .rules value => value.map fun rules => .array (toItems rules)
  | .table value => value.map fun rules => .object (toEntries rules)
  | .unknown value => some value

def unknown? : Part → Option Json
  | .unknown value => some value
  | _ => none

def kind : Part → Kind
  | .text _ => .text
  | .rules _ => .rules
  | .table _ => .table
  | .unknown _ => .unknown

/-- Unknown members are those parts that are of no known kind, and all of them are written. -/
theorem unknown?_eq (part : Part) :
    part.unknown? = if part.kind = .unknown then part.toJson? else none := by
  cases part <;> rfl

end Part

/-- The keys that are known are those of a known kind. -/
theorem kind_eq_unknown_iff (key : String) : kind key = .unknown ↔ key ∉ knownKeys := by
  unfold kind
  split <;> simp_all [knownKeys]

/-- A part is of the kind of the key under which it was read. -/
private theorem kind_of_part? {key : String} {document : Document} {part : Part}
    (h : part? key document = some part) : part.kind = kind key := by
  unfold part? at h
  split at h
  all_goals
    rename_i hkind
    obtain ⟨_, -, rfl⟩ := Option.map_eq_some_iff.1 h
    exact hkind.symm

/-- The known members of a rule under their keys. -/
def knownParts (rule : Rule) : Parts :=
  [("include", .text rule.includes), ("name", .text rule.name),
    ("contentName", .text rule.contentName), ("match", .text rule.matching),
    ("begin", .text rule.beginning), ("end", .text rule.ending), ("while", .text rule.continuing),
    ("captures", .table rule.captures), ("beginCaptures", .table rule.beginCaptures),
    ("endCaptures", .table rule.endCaptures), ("whileCaptures", .table rule.whileCaptures),
    ("patterns", .rules rule.patterns), ("repository", .table rule.repository)]

/-- The known members of a rule stand under all known keys. -/
@[simp] theorem keys_knownParts (rule : Rule) : Dict.keys rule.knownParts = knownKeys := rfl

/-- No known key stands twice. -/
theorem nodup_knownParts (rule : Rule) : (Dict.keys rule.knownParts).Nodup := by
  rw [keys_knownParts]
  decide

/-- The key of a known member is a known key. -/
theorem mem_knownKeys {rule : Rule} {key : String} {part : Part}
    (h : (key, part) ∈ rule.knownParts) : key ∈ knownKeys :=
  rule.keys_knownParts ▸ Dict.mem_keys_of_mem h

/-- There is a known member under every known key, if only an absent one. -/
theorem exists_mem_knownParts (rule : Rule) {key : String} (h : key ∈ knownKeys) :
    ∃ part, (key, part) ∈ rule.knownParts := by
  obtain ⟨⟨_, part⟩, hpart, rfl⟩ := List.mem_map.1 (rule.keys_knownParts ▸ h)
  exact ⟨part, hpart⟩

/-- A known member is of the kind of its key. -/
theorem kind_of_mem_knownParts {rule : Rule} {key : String} {part : Part}
    (h : (key, part) ∈ rule.knownParts) : part.kind = kind key := by
  -- The thirteen members are gone through once, here.
  have hall : ∀ entry ∈ rule.knownParts, entry.2.kind = kind entry.1 := by
    simp [knownParts, Part.kind, kind]
  exact hall _ h

/-- A known member is of a known kind. -/
theorem kind_ne_unknown {rule : Rule} {key : String} {part : Part}
    (h : (key, part) ∈ rule.knownParts) : part.kind ≠ .unknown := fun hkind =>
  (kind_eq_unknown_iff key).1 (kind_of_mem_knownParts h ▸ hkind) (mem_knownKeys h)

/-! ## Writing -/

/-- Named rules are written under their names. -/
theorem toEntries_eq_mapValues (rules : Repository) :
    toEntries rules = Dict.mapValues (fun _ => toJson) rules := by
  induction rules with
  | nil => rfl
  | cons entry rules ih => rw [toEntries, ih, Dict.mapValues_cons]

/-- The members of the object that a rule is written as. -/
def written (rule : Rule) : List (String × Json) :=
  Dict.ofList (Dict.filterMapValues (fun _ => Part.toJson?) rule.knownParts ++ rule.extra)

/-- A rule is written as the object of its known members and its unknown ones. -/
theorem toJson_eq (rule : Rule) : rule.toJson = .object rule.written := by
  have htext (key : String) (value : Option String) : member key .string value =
      Dict.filterMapValues (fun _ => Part.toJson?) [(key, .text value)] := by cases value <;> rfl
  have hrules (key : String) (value : Option (List Rule)) : listMember key value =
      Dict.filterMapValues (fun _ => Part.toJson?) [(key, .rules value)] := by cases value <;> rfl
  have htable (key : String) (value : Option Repository) : tableMember key value =
      Dict.filterMapValues (fun _ => Part.toJson?) [(key, .table value)] := by cases value <;> rfl
  -- The lists of the single members make up the list of all of them.
  cases rule
  simp only [toJson, htext, hrules, htable, ← Dict.filterMapValues_append]
  rfl

/-- The members that a rule is written as are in the order of their keys. -/
theorem sorted_written (rule : Rule) : Dict.Sorted rule.written :=
  Dict.sorted_ofList _

/-- Members that the library does not know count where they have a known key. -/
theorem find?_written (rule : Rule) (key : String) : Dict.find? key rule.written =
    (Dict.find? key (Dict.ofList rule.extra)).or
      ((Dict.find? key rule.knownParts).bind Part.toJson?) :=
  Dict.find?_ofList_filterMapValues_append _ key rule.nodup_knownParts rule.extra

/-! ## From parts to a rule -/

namespace Parts

/-- The unknown members of a rule that is made of parts are the unknown parts. -/
theorem unknown_eq (parts : Parts) :
    parts.unknown = Dict.filterMapValues (fun _ => Part.unknown?) parts := by
  unfold unknown Dict.filterMapValues
  congr 1
  funext ⟨key, part⟩
  cases part <;> rfl

/-- Every part is of the kind of its key. -/
def Fit (parts : Parts) : Prop :=
  ∀ key part, Dict.find? key parts = some part → part.kind = kind key

variable {parts : Parts}

/-- A text of the rule is written as its part is, or is absent with it. -/
private theorem toJson?_text (h : parts.Fit) {key : String} (hkey : kind key = .text) :
    (Part.text (parts.text key)).toJson? = (Dict.find? key parts).bind Part.toJson? := by
  unfold text
  cases hfind : Dict.find? key parts with
  | none => rfl
  | some part =>
    -- A part of another kind does not stand under this key.
    have hkind := (h key part hfind).trans hkey
    cases part with
    | text value => rfl
    | _ => cases hkind

/-- A list of rules is written as its part is, or is absent with it. -/
private theorem toJson?_rules (h : parts.Fit) {key : String} (hkey : kind key = .rules) :
    (Part.rules (parts.rules key)).toJson? = (Dict.find? key parts).bind Part.toJson? := by
  unfold rules
  cases hfind : Dict.find? key parts with
  | none => rfl
  | some part =>
    -- A part under the key is of the kind of the key.
    have hkind := (h key part hfind).trans hkey
    cases part with
    | rules value => rfl
    | _ => cases hkind

/-- A table of rules is written as its part is, or is absent with it. -/
private theorem toJson?_table (h : parts.Fit) {key : String} (hkey : kind key = .table) :
    (Part.table (parts.table key)).toJson? = (Dict.find? key parts).bind Part.toJson? := by
  unfold table
  cases hfind : Dict.find? key parts with
  | none => rfl
  | some part =>
    -- The same for the parts under the keys of tables.
    have hkind := (h key part hfind).trans hkey
    cases part with
    | table value => rfl
    | _ => cases hkind

/-- Every known member of the rule is written as its part is. -/
private theorem toJson?_of_mem_knownParts (h : parts.Fit) : ∀ entry ∈ parts.toRule.knownParts,
    entry.2.toJson? = (Dict.find? entry.1 parts).bind Part.toJson? := by
  simp only [knownParts, toRule, List.forall_mem_cons]
  simp [toJson?_text h, toJson?_rules h, toJson?_table h, kind]

/-- Parts are taken for unknown members under the keys that are not known. -/
theorem unknown?_eq (h : parts.Fit) (key : String) :
    (Dict.find? key parts).bind Part.unknown? =
      if key ∈ knownKeys then none else (Dict.find? key parts).bind Part.toJson? := by
  cases hfind : Dict.find? key parts with
  | none => simp
  | some part =>
    rw [Option.bind_some, Option.bind_some, part.unknown?_eq, h key part hfind]
    by_cases hkey : key ∈ knownKeys
    · rw [if_pos hkey, if_neg fun hkind => (kind_eq_unknown_iff key).1 hkind hkey]
    · rw [if_neg hkey, if_pos ((kind_eq_unknown_iff key).2 hkey)]

/-- A rule is written with its parts, apart from those that are `null`. -/
theorem written_toRule (hsorted : Dict.Sorted parts) (hfit : parts.Fit) :
    parts.toRule.written = Dict.filterMapValues (fun _ => Part.toJson?) parts := by
  -- Both sides are sorted, so it is enough to look under each key.
  refine parts.toRule.sorted_written.ext (hsorted.filterMapValues _) fun key => ?_
  have hextra : parts.toRule.extra = Dict.filterMapValues (fun _ => Part.unknown?) parts :=
    parts.unknown_eq
  rw [find?_written, hextra, Dict.ofList_eq_self (hsorted.filterMapValues _),
    Dict.find?_filterMapValues _ key hsorted.nodup, Dict.find?_filterMapValues _ key hsorted.nodup,
    unknown?_eq hfit]
  by_cases hkey : key ∈ knownKeys
  · -- Under a known key no unknown part stands.
    obtain ⟨part, hpart⟩ := (Dict.mem_keys_iff_find? key parts.toRule.knownParts).1 hkey
    rw [if_pos hkey, Option.none_or, hpart]
    exact toJson?_of_mem_knownParts hfit _ (Dict.mem_of_find? hpart)
  · -- Under another key no known member stands.
    have hnone : Dict.find? key parts.toRule.knownParts = none :=
      (Dict.find?_eq_none_iff key parts.toRule.knownParts).2 hkey
    rw [if_neg hkey, hnone, Option.bind_none, Option.or_none]

end Parts

/-- Parts of the kinds of their keys are so in a dictionary, too. -/
theorem fit_ofList {parts : Parts} (h : ∀ entry ∈ parts, entry.2.kind = kind entry.1) :
    Parts.Fit (Dict.ofList parts) := fun key part hfind =>
  h (key, part) (Dict.mem_of_mem_ofList (Dict.mem_of_find? hfind))

/-- Parts that were read are of the kinds of their keys. -/
theorem kind_of_parts? {members : Document.Members} {parts : Parts}
    (h : parts? members = some parts) : ∀ entry ∈ parts, entry.2.kind = kind entry.1 := by
  induction members generalizing parts with
  | nil =>
    cases h
    simp
  | cons member members ih =>
    obtain ⟨key, document⟩ := member
    obtain ⟨k, part, others, rfl, hpart, hothers, rfl⟩ := parts?_cons_eq_some h
    exact List.forall_mem_cons.2 ⟨kind_of_part? hpart, ih hothers⟩

end Textmate.Rule
