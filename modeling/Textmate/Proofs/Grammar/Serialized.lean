import Textmate.Proofs.Grammar.Written
import Textmate.Proofs.Json.Members

/-!
# What is written of a grammar

A grammar that was read is written as the value that it was read from, with four exceptions that
`Grammar.normalized` states.

Key results:
* `toJson_of_ofObject?`: a grammar that was read is written as the normalized value of its document
* `at?_normalized_member`, `at?_normalized_rule`: that leaves the unknown members of the grammar and
  of all rules in their places
-/

namespace Textmate.Grammar

open Document (Members)

/-! ## Members -/

/-- The known members of a grammar, with the values of those that are written. -/
def knownMembers (grammar : Grammar) : List (String × Option Json) :=
  [("scopeName", some (.string grammar.scope.text)),
    ("name", grammar.name.map .string),
    ("patterns", some (.array (Rule.toItems grammar.patterns))),
    ("repository", some (.object (Rule.toEntries grammar.repository))),
    ("injections", if grammar.injections.isEmpty then none
      else some (.object (Rule.toEntries grammar.injections))),
    ("injectionSelector", grammar.injectionSelector.map .string),
    ("fileTypes", if grammar.fileTypes.isEmpty then none else some (.strings grammar.fileTypes)),
    ("firstLineMatch", grammar.firstLineMatch.map .string)]

/-- The known members of a grammar stand under all known keys. -/
@[simp] theorem keys_knownMembers (grammar : Grammar) :
    Dict.keys grammar.knownMembers = knownKeys := rfl

/-- No known key stands twice. -/
theorem nodup_knownMembers (grammar : Grammar) : (Dict.keys grammar.knownMembers).Nodup := by
  rw [keys_knownMembers]
  decide

/-- The key of a known member is a known key. -/
theorem mem_knownKeys {grammar : Grammar} {key : String} {value : Option Json}
    (h : (key, value) ∈ grammar.knownMembers) : key ∈ knownKeys :=
  grammar.keys_knownMembers ▸ Dict.mem_keys_of_mem h

/-- There is a known member under every known key, if only one that is not written. -/
private theorem exists_mem_knownMembers (grammar : Grammar) {key : String} (h : key ∈ knownKeys) :
    ∃ value, (key, value) ∈ grammar.knownMembers := by
  obtain ⟨⟨_, value⟩, hvalue, rfl⟩ := List.mem_map.1 (grammar.keys_knownMembers ▸ h)
  exact ⟨value, hvalue⟩

/-- The members of the object that a grammar is written as. -/
def written (grammar : Grammar) : List (String × Json) :=
  Dict.ofList (Dict.filterMapValues (fun _ value => value) grammar.knownMembers ++ grammar.extra)

/-- A grammar is written as the object of its known members and its unknown ones. -/
theorem toJson_eq (grammar : Grammar) : grammar.toJson = .object grammar.written := by
  -- Each member is a list of at most one entry, and so is each entry of the dictionary.
  have htext (key : String) (value : Option String) : Rule.member key .string value =
      ((value.map Json.string).map fun value => (key, value)).toList := by cases value <;> rfl
  have hnonEmpty (key : String) (isEmpty : Bool) (value : Json) :
      (if isEmpty = true then [] else [(key, value)]) =
        ((if isEmpty = true then none else some value).map fun value => (key, value)).toList := by
    cases isEmpty <;> rfl
  simp only [toJson, htext, hnonEmpty, written, knownMembers, Dict.filterMapValues_cons,
    Dict.filterMapValues_nil, List.append_assoc, List.append_nil]
  rfl

/-- The members that a grammar is written as are in the order of their keys. -/
theorem sorted_written (grammar : Grammar) : Dict.Sorted grammar.written :=
  Dict.sorted_ofList _

/-- Members that the library does not know count where they have a known key. -/
theorem find?_written (grammar : Grammar) (key : String) : Dict.find? key grammar.written =
    (Dict.find? key (Dict.ofList grammar.extra)).or
      ((Dict.find? key grammar.knownMembers).bind id) :=
  Dict.find?_ofList_filterMapValues_append _ key grammar.nodup_knownMembers grammar.extra

/-! ## Reading the members of an object -/

/-- A grammar was read from the members of an object. -/
structure ReadFrom (members : Members) (grammar : Grammar) : Prop where
  scope : members.required "scopeName" scope? = some grammar.scope
  name : members.optional "name" Document.string? = some grammar.name
  patterns : members.withDefault "patterns" [] (fun d => (Rule.list? d).bind id) =
    some grammar.patterns
  repository : members.withDefault "repository" [] rules? = some grammar.repository
  injections : members.withDefault "injections" [] rules? = some grammar.injections
  injectionSelector : members.optional "injectionSelector" Document.string? =
    some grammar.injectionSelector
  fileTypes : members.withDefault "fileTypes" [] (Document.list? Document.string?) =
    some grammar.fileTypes
  firstLineMatch : members.optional "firstLineMatch" Document.string? = some grammar.firstLineMatch
  extra : (unknown? members).map Dict.ofList = some grammar.extra

/-- Reading a grammar from members reads each field of it, and nothing else. -/
theorem ofMembers?_eq_some_iff (members : Members) (grammar : Grammar) :
    ofMembers? members = some grammar ↔ ReadFrom members grammar := by
  constructor
  · intro h
    simp only [ofMembers?, Option.bind_eq_bind, Option.bind_eq_some_iff, Option.pure_def] at h
    -- The reader goes through the fields in this order.
    obtain ⟨scope, hscope, name, hname, patterns, hpatterns, repository, hrepository, injections,
      hinjections, selector, hselector, types, htypes, line, hline, extra, hextra, heq⟩ := h
    cases heq
    exact ⟨hscope, hname, hpatterns, hrepository, hinjections, hselector, htypes, hline,
      by rw [hextra]; rfl⟩
  · rintro ⟨hscope, hname, hpatterns, hrepository, hinjections, hselector, htypes, hline, hextra⟩
    obtain ⟨extra, hextra, heq⟩ := Option.map_eq_some_iff.1 hextra
    cases grammar
    simp_all [ofMembers?]

/-! ## What is written of a value -/

/-- The known members that may be `null`. -/
def optionalKeys : List String := ["name", "injectionSelector", "firstLineMatch"]

/-- What is written of the member with a given key. -/
def normalizedMember? : String → Json → Option Json
  | "patterns", .array items => some (.array (Rule.normalizedItems items))
  | "repository", .object members => some (.object (Rule.normalizedEntries members))
  | "injections", .object members =>
    if members.isEmpty then none else some (.object (Rule.normalizedEntries members))
  | "fileTypes", .array items => if items.isEmpty then none else some (.array items)
  | key, .null => if optionalKeys.contains key then none else some .null
  | _, value => some value

/-- The members with a value for a key that is absent. -/
def supply (key : String) (value : Json) (members : List (String × Json)) : List (String × Json) :=
  if Dict.contains key members then members else Dict.insert key value members

/-- The members of a grammar that are written, with those that are always written. -/
def normalizedMembers (members : List (String × Json)) : List (String × Json) :=
  supply "patterns" (.array [])
    (supply "repository" (.object []) (Dict.filterMapValues normalizedMember? members))

/-- The value of a grammar as it is written: with `patterns` and `repository`, without `injections`
and `fileTypes` that are empty, and without known members that are `null`, also of the rules. -/
def normalized : Json → Json
  | .object members => .object (normalizedMembers members)
  | value => value

/-- What is written for a key that is absent. -/
def absentMember? : String → Option Json
  | "patterns" => some (.array [])
  | "repository" => some (.object [])
  | _ => none

/-- A supplied value keeps the members in order. -/
private theorem sorted_supply {members : List (String × Json)} (h : Dict.Sorted members)
    (key : String) (value : Json) : Dict.Sorted (supply key value members) := by
  unfold supply
  split
  · exact h
  · exact h.insert key value

/-- A supplied value is found under its key where nothing else was. -/
private theorem find?_supply (key other : String) (value : Json) (members : List (String × Json)) :
    Dict.find? other (supply key value members) =
      (Dict.find? other members).or (if key = other then some value else none) := by
  unfold supply Dict.contains
  by_cases h : key = other
  · subst h
    cases hfind : Dict.find? key members <;> simp [Dict.find?_insert, hfind]
  · split <;> simp [Dict.find?_insert, h]

/-- The normalized members are in order. -/
private theorem sorted_normalizedMembers {members : List (String × Json)}
    (h : Dict.Sorted members) :
    Dict.Sorted (normalizedMembers members) :=
  sorted_supply (sorted_supply (h.filterMapValues _) _ _) _ _

/-- Under a key stands what is left of the member, or what is written without one. -/
private theorem find?_normalizedMembers {members : List (String × Json)} (h : Dict.Sorted members)
    (key : String) : Dict.find? key (normalizedMembers members) =
      ((Dict.find? key members).bind (normalizedMember? key)).or (absentMember? key) := by
  rw [normalizedMembers, find?_supply, find?_supply, Dict.find?_filterMapValues _ key h.nodup,
    Option.or_assoc]
  congr 1
  -- The two keys that are supplied, and then all others.
  by_cases hrepository : "repository" = key
  · subst hrepository
    rfl
  · by_cases hpatterns : "patterns" = key
    · subst hpatterns
      rfl
    · rw [if_neg hrepository, if_neg hpatterns]
      unfold absentMember?
      split <;> simp_all

/-- An unknown member stays as it is, whatever its value. -/
private theorem normalizedMember?_of_not_mem {key : String} (hkey : key ∉ knownKeys)
    (value : Json) :
    normalizedMember? key value = some value := by
  unfold normalizedMember?
  split <;> simp_all [knownKeys, optionalKeys]

/-- Nothing is written for an unknown key that is absent. -/
private theorem absentMember?_of_not_mem {key : String} (hkey : key ∉ knownKeys) :
    absentMember? key = none := by
  unfold absentMember?
  split <;> simp_all [knownKeys]

/-- Under an unknown key the same stands as before. -/
private theorem find?_normalizedMembers_of_not_mem {members : List (String × Json)}
    (h : Dict.Sorted members) {key : String} (hkey : key ∉ knownKeys) :
    Dict.find? key (normalizedMembers members) = Dict.find? key members := by
  rw [find?_normalizedMembers h, absentMember?_of_not_mem hkey, Option.or_none,
    funext (normalizedMember?_of_not_mem hkey)]
  exact Option.bind_fun_some _

/-! ## Writing what was read -/

/-- What is written for a key is what is written of the member that was read. -/
def Restores (members : Members) (key : String) (value : Option Json) : Prop :=
  ∃ found, members.find [key] = some found ∧
    (∀ document, found = some document → ∃ value, document.value? = some value) ∧
    value = ((found.bind Document.value?).bind (normalizedMember? key)).or (absentMember? key)

/-- A member that is there is restored from its value. -/
private theorem restores_of_find {members : Members} {key : String} {value : Option Json}
    {document : Document} (h : members.find [key] = some (some document))
    (hvalue : ∃ read, document.value? = some read ∧
      value = (normalizedMember? key read).or (absentMember? key)) :
    Restores members key value := by
  obtain ⟨read, hread, rfl⟩ := hvalue
  refine ⟨some document, h, ?_, by rw [Option.bind_some, hread, Option.bind_some]⟩
  rintro _ ⟨⟩
  exact ⟨read, hread⟩

/-- A member with a default value is restored, if the default is written as an absent member is. -/
private theorem restores_of_withDefault {α : Type} {members : Members} {key : String}
    {default a : α} {read : Document → Option α} (toJson? : α → Option Json)
    (h : members.withDefault key default read = some a)
    (habsent : toJson? default = absentMember? key)
    (hread : ∀ document, read document = some a → ∃ value, document.value? = some value ∧
      toJson? a = (normalizedMember? key value).or (absentMember? key)) :
    Restores members key (toJson? a) := by
  -- Either nothing was there and the default is written, or it was read from a document.
  rcases Members.withDefault_eq_some_iff.1 h with ⟨hnone, rfl⟩ | ⟨document, hfind, hdocument⟩
  · exact ⟨none, hnone, by simp, habsent⟩
  · exact restores_of_find hfind (hread document hdocument)

/-- A text that may be absent or `null` is restored. -/
private theorem restores_of_optional {members : Members} {key : String} (hkey : key ∈ optionalKeys)
    {text : Option String} (h : members.optional key Document.string? = some text) :
    Restores members key (text.map .string) := by
  -- What `optionalKeys` have in common, key by key.
  have hkeys : absentMember? key = none ∧ normalizedMember? key .null = none ∧
      ∀ text, normalizedMember? key (.string text) = some (.string text) := by
    simp only [optionalKeys, List.mem_cons, List.not_mem_nil, or_false] at hkey
    rcases hkey with rfl | rfl | rfl <;> simp [absentMember?, normalizedMember?, optionalKeys]
  obtain ⟨habsent, hnull, hstring⟩ := hkeys
  refine restores_of_withDefault (·.map .string) h habsent.symm fun document hdocument => ?_
  cases document with
  | null =>
    cases hdocument
    exact ⟨.null, rfl, by rw [hnull, habsent]; rfl⟩
  | string s =>
    obtain ⟨t, rfl, rfl⟩ := Option.map_eq_some_iff.1 hdocument
    exact ⟨.string t, rfl, by rw [hstring]; rfl⟩
  | _ => cases hdocument

/-- Texts that were read are written as they are. -/
private theorem value?_of_strings {document : Document} {texts : List String}
    (h : Document.list? Document.string? document = some texts) :
    document.value? = some (.strings texts) := by
  cases document with
  | array items =>
    -- Each item was read as a text, so that it is one.
    have hvalues : Document.values? items = some (texts.map .string) := by
      refine Document.values?_of_forall₂ (List.forall₂_map_right_iff.2 ?_)
      refine (List.mapM_eq_some_iff.1 h).imp fun item text hitem => ?_
      cases item with
      | string s =>
        cases hitem
        rfl
      | _ => cases hitem
    rw [Document.value?, hvalues]
    rfl
  | _ => cases h

/-- The scope name is restored, as it is the text that was read. -/
private theorem restores_of_scope {members : Members} {scope : ScopeName}
    (h : members.required "scopeName" scope? = some scope) :
    Restores members "scopeName" (some (.string scope.text)) := by
  obtain ⟨document, hfind, hscope⟩ := Members.required_eq_some_iff.1 h
  refine restores_of_find hfind ?_
  obtain ⟨text, htext, hofString⟩ := Option.bind_eq_some_iff.1 hscope
  -- Only a text is read as a scope name.
  cases document with
  | string s =>
    cases htext
    rw [ScopeName.ofString?_eq_some_iff.1 hofString]
    exact ⟨.string text, rfl, by simp [normalizedMember?]⟩
  | _ => cases htext

/-- A table of rules that was read is written as the normalized members of an object. -/
private theorem toEntries_of_rules? {document : Document} {rules : Repository}
    (h : rules? document = some rules) :
    ∃ members, document.value? = some (.object members) ∧
      Rule.toEntries rules = Rule.normalizedEntries members := by
  obtain ⟨table, htable, rfl⟩ := Option.bind_eq_some_iff.1 h
  exact Rule.toEntries_of_table? document htable

/-- Every known member is written as it was read. -/
private theorem restores_of_readFrom {members : Members} {grammar : Grammar}
    (h : ReadFrom members grammar) :
    ∀ member ∈ grammar.knownMembers, Restores members member.1 member.2 := by
  have hpatterns : Restores members "patterns" (some (.array (Rule.toItems grammar.patterns))) := by
    refine restores_of_withDefault (fun rules => some (.array (Rule.toItems rules))) h.patterns rfl
      fun document hdocument => ?_
    obtain ⟨rules, hlist, rfl⟩ := Option.bind_eq_some_iff.1 hdocument
    obtain ⟨items, hvalue, hsame⟩ := Rule.toItems_of_list? document hlist
    exact ⟨.array items, hvalue, by simp [hsame, normalizedMember?]⟩
  have hrepository : Restores members "repository"
      (some (.object (Rule.toEntries grammar.repository))) := by
    refine restores_of_withDefault (fun rules => some (.object (Rule.toEntries rules)))
      h.repository rfl fun document hdocument => ?_
    obtain ⟨entries, hvalue, hsame⟩ := toEntries_of_rules? hdocument
    exact ⟨.object entries, hvalue, by simp [hsame, normalizedMember?]⟩
  have hinjections : Restores members "injections" (if grammar.injections.isEmpty then none
      else some (.object (Rule.toEntries grammar.injections))) := by
    refine restores_of_withDefault
      (fun rules => if rules.isEmpty then none else some (.object (Rule.toEntries rules)))
      h.injections rfl fun document hdocument => ?_
    obtain ⟨entries, hvalue, hsame⟩ := toEntries_of_rules? hdocument
    -- Empty injections are left out on both sides.
    have hempty : grammar.injections.isEmpty = entries.isEmpty := by
      simpa [Rule.toEntries_eq_mapValues, Rule.normalizedEntries_eq_mapValues, Dict.mapValues]
        using congrArg List.isEmpty hsame
    exact ⟨.object entries, hvalue, by simp [hsame, hempty, normalizedMember?, absentMember?]⟩
  -- So are empty file types.
  have hfileTypes : Restores members "fileTypes"
      (if grammar.fileTypes.isEmpty then none else some (.strings grammar.fileTypes)) := by
    refine restores_of_withDefault
      (fun types => if types.isEmpty then none else some (.strings types)) h.fileTypes rfl
      fun document hdocument => ⟨_, value?_of_strings hdocument, ?_⟩
    cases grammar.fileTypes <;> simp [Json.strings, normalizedMember?, absentMember?]
  -- The other members are texts, each with its own key.
  simp only [knownMembers, List.forall_mem_cons]
  exact ⟨restores_of_scope h.scope, restores_of_optional (by decide) h.name, hpatterns,
    hrepository, hinjections, restores_of_optional (by decide) h.injectionSelector, hfileTypes,
    restores_of_optional (by decide) h.firstLineMatch, by simp⟩

/-- The unknown members that were read are those of the value. -/
private theorem unknown?_eq {members : Members} {values : List (String × Json)}
    (h : Document.members? members = some values) :
    unknown? members = some (values.filter fun member => !knownKeys.contains member.1) := by
  induction members generalizing values with
  | nil =>
    cases h
    rfl
  | cons member members ih =>
    obtain ⟨key, document⟩ := member
    unfold Document.members? at h
    split at h
    · rename_i k value values hvalue hvalues
      cases h
      unfold unknown?
      simp only [ih hvalues, List.filter_cons]
      -- A known member is passed over, and an unknown one read as its value.
      by_cases hk : k ∈ knownKeys
      · simp [hk]
      · simp [hk, hvalue]
    · cases h

/-- Of the unknown members, one is found under each key that is not known. -/
theorem find?_ofList_unknown (values : List (String × Json)) (key : String) :
    Dict.find? key (Dict.ofList (values.filter fun member => !knownKeys.contains member.1)) =
      if key ∈ knownKeys then none else Dict.find? key (Dict.ofList values) := by
  rw [Dict.find?_ofList, ← List.filter_reverse,
    Dict.find?_filter_keys (fun key => !knownKeys.contains key), ← Dict.find?_ofList]
  by_cases hkey : key ∈ knownKeys <;> simp [hkey]

/-- When unknown members were read, every member has a key and every unknown one a value. -/
theorem of_unknown? {members : Members} {extra : List (String × Json)}
    (h : unknown? members = some extra) : ∀ member ∈ members, ∃ key, member.1 = some key ∧
      (key ∉ knownKeys → ∃ value, member.2.value? = some value) := by
  induction members generalizing extra with
  | nil => simp
  | cons member members ih =>
    obtain ⟨key, document⟩ := member
    unfold unknown? at h
    split at h
    · rename_i k others hothers
      refine List.forall_mem_cons.2 ⟨⟨k, rfl, fun hk => ?_⟩, ih hothers⟩
      -- Only unknown members have their values read here.
      rw [if_neg (by simpa using hk)] at h
      obtain ⟨value, hvalue, -⟩ := Option.map_eq_some_iff.1 h
      exact ⟨value, hvalue⟩
    · cases h

/-- A document that was read as a grammar has a value for each of its members. -/
theorem exists_members?_of_readFrom {members : Members} {grammar : Grammar}
    (h : ReadFrom members grammar) : ∃ values, Document.members? members = some values := by
  obtain ⟨extra, hextra, -⟩ := Option.map_eq_some_iff.1 h.extra
  refine Document.exists_members? fun (key, document) hmember => ?_
  obtain ⟨key, rfl, hunknown⟩ := of_unknown? hextra _ hmember
  refine ⟨key, ?_⟩
  by_cases hkey : key ∈ knownKeys
  · obtain ⟨value, hknown⟩ := grammar.exists_mem_knownMembers hkey
    obtain ⟨found, hfind, hread, -⟩ := restores_of_readFrom h _ hknown
    cases found with
    -- The member is there, so something was found under its key.
    | none => exact absurd hmember (Members.not_mem_of_find hfind document)
    | some other =>
      obtain rfl := (Members.mem_of_find hfind).2 document hmember
      obtain ⟨read, hvalue⟩ := hread _ rfl
      exact ⟨read, rfl, hvalue⟩
  · obtain ⟨value, hvalue⟩ := hunknown hkey
    exact ⟨value, rfl, hvalue⟩

/-- The unknown members of a grammar are the members of the value with unknown keys. -/
theorem extra_of_readFrom {members : Members} {grammar : Grammar} (h : ReadFrom members grammar)
    {values : List (String × Json)} (hvalues : Document.members? members = some values) :
    grammar.extra = Dict.ofList (values.filter fun member => !knownKeys.contains member.1) := by
  have hextra := h.extra
  rw [unknown?_eq hvalues] at hextra
  exact (Option.some.inj hextra).symm

/-- What is written of a grammar that was read are the members of the normalized value. -/
private theorem written_of_readFrom {members : Members} {grammar : Grammar}
    (h : ReadFrom members grammar)
    {values : List (String × Json)} (hvalues : Document.members? members = some values) :
    grammar.written = normalizedMembers (Dict.ofList values) := by
  have hsorted := Dict.sorted_ofList values
  -- Both sides are sorted, so it is enough to look under each key.
  refine grammar.sorted_written.ext (sorted_normalizedMembers hsorted) fun key => ?_
  have hextra := extra_of_readFrom h hvalues
  have hextraSorted : Dict.Sorted grammar.extra := hextra ▸ Dict.sorted_ofList _
  have hfindExtra := find?_ofList_unknown values key
  rw [← hextra] at hfindExtra
  rw [find?_written, Dict.ofList_eq_self hextraSorted, hfindExtra]
  by_cases hkey : key ∈ knownKeys
  · obtain ⟨value, hknown⟩ := grammar.exists_mem_knownMembers hkey
    obtain ⟨found, hfind, -, hvalue⟩ := restores_of_readFrom h _ hknown
    rw [if_pos hkey, Option.none_or, Dict.find?_of_mem grammar.nodup_knownMembers hknown,
      find?_normalizedMembers hsorted, Members.find?_of_find hvalues hfind]
    exact hvalue
  · have hnone : Dict.find? key grammar.knownMembers = none :=
      (Dict.find?_eq_none_iff key grammar.knownMembers).2 hkey
    rw [if_neg hkey, hnone, Option.bind_none, Option.or_none,
      find?_normalizedMembers_of_not_mem hsorted hkey]

/-- A grammar that was read is written as the normalized value of its document. -/
theorem toJson_of_ofObject? {document : Document} {grammar : Grammar}
    (h : ofObject? document = some grammar) :
    ∃ value, document.value? = some value ∧ grammar.toJson = normalized value := by
  cases document with
  | object members =>
    -- Both sides are the members of one dictionary, key by key.
    have hread := (ofMembers?_eq_some_iff members grammar).1 h
    obtain ⟨values, hvalues⟩ := exists_members?_of_readFrom hread
    refine ⟨.ofMembers values, by rw [Document.value?, hvalues]; rfl, ?_⟩
    rw [toJson_eq, written_of_readFrom hread hvalues]
    rfl
  | _ => cases h

example : normalized (.object [("fileTypes", .array []), ("name", .null),
    ("patterns", .array [.object [("match", .null), ("uuid", .null)]]),
    ("scopeName", .string "source.demo")]) =
    .object [("patterns", .array [.object [("uuid", .null)]]), ("repository", .object []),
      ("scopeName", .string "source.demo")] := by rfl

/-! ## Unknown members -/

/-- The paths from a grammar to its rules. -/
inductive RulePath : List Json.Step → Prop
  | pattern {path : List Json.Step} (index : Nat) (hpath : Rule.Below path) :
      RulePath (.member "patterns" :: .item index :: path)
  | entry {path : List Json.Step} {key : String} (hkey : key = "repository" ∨ key = "injections")
      (name : String) (hpath : Rule.Below path) : RulePath (.member key :: .member name :: path)

/-- An unknown member of a grammar is written as it is. -/
theorem at?_normalized_member {value : Json} (h : value.Canonical) {key : String}
    (hkey : key ∉ knownKeys) :
    (normalized value).at? [.member key] = value.at? [.member key] := by
  cases h with
  | object hsorted _ =>
    simp only [normalized, Json.at?, Json.step?, find?_normalizedMembers_of_not_mem hsorted hkey]
  | _ => rfl

/-- The patterns of a normalized grammar are the normalized patterns. -/
private theorem step?_normalized_pattern {value : Json} (h : value.Canonical) (index : Nat) :
    ((normalized value).step? (.member "patterns")).bind (·.step? (.item index)) =
      ((value.step? (.member "patterns")).bind (·.step? (.item index))).map Rule.normalized := by
  cases h with
  | @object members hsorted _ =>
    simp only [normalized, Json.step?, find?_normalizedMembers hsorted]
    cases hfind : Dict.find? "patterns" members with
    -- Absent patterns are written as an empty array, which has no items either.
    | none => simp [absentMember?]
    | some member =>
      cases member <;> simp [normalizedMember?, optionalKeys, Rule.normalizedItems_eq_map]
  | _ => rfl

/-- The named rules of a normalized grammar are the normalized rules. -/
private theorem step?_normalized_entry {value : Json} (h : value.Canonical) {key : String}
    (hkey : key = "repository" ∨ key = "injections") (name : String) :
    ((normalized value).step? (.member key)).bind (·.step? (.member name)) =
      ((value.step? (.member key)).bind (·.step? (.member name))).map Rule.normalized := by
  cases h with
  | @object members hsorted _ =>
    simp only [normalized, Json.step?, find?_normalizedMembers hsorted]
    cases hfind : Dict.find? key members with
    | none => rcases hkey with rfl | rfl <;> simp [absentMember?, Dict.find?]
    | some member =>
      cases member with
      | object entries =>
        -- The entries of empty injections are not written, and not there.
        have hentries := Dict.find?_mapValues (fun _ => Rule.normalized) name entries
        rw [← Rule.normalizedEntries_eq_mapValues] at hentries
        rcases hkey with rfl | rfl
        · simpa [normalizedMember?] using hentries
        · cases entries with
          | nil => simp [normalizedMember?, absentMember?, Dict.find?]
          | cons => simpa [normalizedMember?] using hentries
      | _ => rcases hkey with rfl | rfl <;> simp [normalizedMember?, optionalKeys]
  | _ => rfl

/-- The unknown members of the rules of a grammar are written as they are. -/
theorem at?_normalized_rule {path : List Json.Step} (hpath : RulePath path) {value : Json}
    (h : value.Canonical) {key : String} (hkey : key ∉ Rule.knownKeys) :
    (normalized value).at? (path ++ [.member key]) = value.at? (path ++ [.member key]) := by
  cases hpath with
  | pattern index hpath =>
    exact Rule.at?_of_steps h (step?_normalized_pattern h index) fun rule hrule =>
      Rule.at?_normalized hpath hrule hkey
  | entry hmember name hpath =>
    exact Rule.at?_of_steps h (step?_normalized_entry h hmember name) fun rule hrule =>
      Rule.at?_normalized hpath hrule hkey

end Textmate.Grammar
