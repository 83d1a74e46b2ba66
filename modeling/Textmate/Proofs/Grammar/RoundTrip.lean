import Textmate.Proofs.Grammar.ReadBack
import Textmate.Proofs.Grammar.Serialized

/-!
# Grammars as JSON and back

Writing a grammar that was read gives back its value up to what `Grammar.normalized` leaves out or
adds, and reading a grammar that was written gives back the grammar.

Key results:
* `ofJson?_toJson`: a grammar is read back from what it is written as
* `valid_of_ofObject?`: grammars that were read satisfy what that asks for
* `keeps_value`: both directions, with what becomes of unknown members
-/

namespace Textmate.Grammar

open Document (Members)

/-- The rules directly in a grammar. -/
def children (grammar : Grammar) : List Rule :=
  grammar.patterns ++ Dict.values grammar.repository ++ Dict.values grammar.injections

/-- The tables, the unknown members and the objects in them are sorted dictionaries, also in the
rules. -/
structure Ordered (grammar : Grammar) : Prop where
  children : ∀ rule ∈ grammar.children, rule.Everywhere Rule.Ordered
  repository : Dict.Sorted grammar.repository
  injections : Dict.Sorted grammar.injections
  extra : Dict.Sorted grammar.extra
  canonical : ∀ member ∈ grammar.extra, member.2.Canonical

/-- No unknown member has a known key, neither of the grammar nor of its rules. -/
structure KeysApart (grammar : Grammar) : Prop where
  children : ∀ rule ∈ grammar.children, rule.Everywhere Rule.KeysApart
  extra : ∀ key ∈ knownKeys, Dict.find? key grammar.extra = none

/-! ## Reading what was written -/

/-- What is written under a known key is the known member. -/
private theorem find?_written_of_known {grammar : Grammar} (h : grammar.KeysApart) {key : String}
    {value : Option Json} (hvalue : (key, value) ∈ grammar.knownMembers) :
    Dict.find? key grammar.written = value := by
  have hextra : Dict.find? key (Dict.ofList grammar.extra) = none :=
    Dict.find?_ofList_eq_none_iff.2 (h.extra key (mem_knownKeys hvalue))
  rw [find?_written, hextra, Option.none_or, Dict.find?_of_mem grammar.nodup_knownMembers hvalue]
  rfl

/-- What is written under another key is the unknown member. -/
private theorem find?_written_of_not_mem {grammar : Grammar} (h : Dict.Sorted grammar.extra)
    {key : String} (hkey : key ∉ knownKeys) :
    Dict.find? key grammar.written = Dict.find? key grammar.extra := by
  have hnone : Dict.find? key grammar.knownMembers = none :=
    (Dict.find?_eq_none_iff key grammar.knownMembers).2 hkey
  rw [find?_written, hnone, Option.bind_none, Option.or_none, Dict.ofList_eq_self h]

/-- In a document of values the unknown members are those with other keys. -/
private theorem unknown?_ofMembers {values : List (String × Json)}
    (h : ∀ member ∈ values, member.1 ∉ knownKeys → member.2.Canonical) :
    unknown? (Document.ofMembers values) =
      some (values.filter fun member => !knownKeys.contains member.1) := by
  induction values with
  | nil => rfl
  | cons member values ih =>
    obtain ⟨key, value⟩ := member
    obtain ⟨hvalue, hrest⟩ := List.forall_mem_cons.1 h
    unfold Document.ofMembers unknown?
    simp only [ih hrest, List.filter_cons]
    -- A known member is passed over, another one is read as its canonical value.
    by_cases hkey : key ∈ knownKeys
    · simp [hkey]
    · simp [hkey, (hvalue hkey).value?_ofJson]

/-- A text that may be missing is read back from what it is written as. -/
private theorem optional_of_find {members : Members} {key : String} {text : Option String}
    (h : members.find [key] = some ((text.map Json.string).map Document.ofJson)) :
    members.optional key Document.string? = some text := by
  cases text with
  | none => exact Members.withDefault_eq_some_iff.2 (.inl ⟨h, rfl⟩)
  | some text => exact Members.withDefault_eq_some_iff.2 (.inr ⟨_, h, rfl⟩)

/-- A list of texts is read back. -/
private theorem list?_strings (texts : List String) :
    Document.list? Document.string? (.ofJson (.strings texts)) = some texts := by
  refine List.mapM_eq_some_iff.2 ?_
  rw [Document.ofItems_eq_map, List.map_map, List.forall₂_map_left_iff, List.forall₂_same]
  exact fun _ _ => rfl

/-- The members that a grammar is written as are the members that it is read from. -/
private theorem readFrom_written {grammar : Grammar} (h : grammar.Ordered)
    (hkeys : grammar.KeysApart) :
    ReadFrom (Document.ofMembers grammar.written) grammar := by
  -- Every known key is found with what is written for it, or found to be missing.
  have hfind : ∀ member ∈ grammar.knownMembers,
      Members.find (Document.ofMembers grammar.written) [member.1] =
        some (member.2.map Document.ofJson) := fun member hmember => by
    rw [Members.find_ofMembers grammar.sorted_written.nodup, find?_written_of_known hkeys hmember]
  simp only [knownMembers, List.forall_mem_cons] at hfind
  obtain ⟨hscope, hname, hpatterns, hrepository, hinjections, hselector, htypes, hline, -⟩ := hfind
  -- The rules are read back by themselves.
  have hchildren : ∀ rule ∈ grammar.children, Rule.ofDocument? (.ofJson rule.toJson) = some rule :=
    fun rule hrule => Rule.ofDocument?_toJson (h.children rule hrule) (hkeys.children rule hrule)
  simp only [children, List.mem_append, or_imp, forall_and] at hchildren
  obtain ⟨⟨hpatternsRead, hrepositoryRead⟩, hinjectionsRead⟩ := hchildren
  have hrules {rules : Repository} (hsorted : Dict.Sorted rules)
      (hread : ∀ rule ∈ Dict.values rules, Rule.ofDocument? (.ofJson rule.toJson) = some rule) :
      rules? (.ofJson (.object (Rule.toEntries rules))) = some rules := by
    rw [rules?, Rule.table?_toEntries hsorted hread]
    rfl
  constructor
  case scope =>
    exact Members.required_eq_some_iff.2 ⟨_, hscope, ScopeName.ofString?_eq_some_iff.2 rfl⟩
  case name => exact optional_of_find hname
  case patterns =>
    refine Members.withDefault_eq_some_iff.2 (.inr ⟨_, hpatterns, ?_⟩)
    rw [Rule.list?_toItems hpatternsRead]
    rfl
  case repository =>
    exact Members.withDefault_eq_some_iff.2
      (.inr ⟨_, hrepository, hrules h.repository hrepositoryRead⟩)
  case injections =>
    refine Members.withDefault_eq_some_iff.2 ?_
    split at hinjections
    · exact .inl ⟨hinjections, (List.isEmpty_iff.1 ‹_›).symm⟩
    · exact .inr ⟨_, hinjections, hrules h.injections hinjectionsRead⟩
  case injectionSelector => exact optional_of_find hselector
  case fileTypes =>
    refine Members.withDefault_eq_some_iff.2 ?_
    split at htypes
    · exact .inl ⟨htypes, (List.isEmpty_iff.1 ‹_›).symm⟩
    · exact .inr ⟨_, htypes, list?_strings grammar.fileTypes⟩
  case firstLineMatch => exact optional_of_find hline
  case extra =>
    -- What is written under unknown keys are the unknown members.
    have hcanonical : ∀ member ∈ grammar.written, member.1 ∉ knownKeys → member.2.Canonical := by
      rintro ⟨key, value⟩ hmember hkey
      have hvalue := Dict.find?_of_mem grammar.sorted_written.nodup hmember
      rw [find?_written_of_not_mem h.extra hkey] at hvalue
      exact h.canonical _ (Dict.mem_of_find? hvalue)
    rw [unknown?_ofMembers hcanonical, Option.map_some]
    refine congrArg some ((Dict.sorted_ofList _).ext h.extra fun key => ?_)
    rw [find?_ofList_unknown, Dict.ofList_eq_self grammar.sorted_written]
    split
    · exact (hkeys.extra key ‹_›).symm
    · exact find?_written_of_not_mem h.extra ‹_›

/-- A grammar is read back from what it is written as. -/
theorem ofJson?_toJson {grammar : Grammar} (h : grammar.Ordered) (hkeys : grammar.KeysApart) :
    ofJson? grammar.toJson = some grammar := by
  rw [toJson_eq, ofJson?, Document.ofJson, ofObject?, ofMembers?_eq_some_iff]
  exact readFrom_written h hkeys

/-! ## Grammars that were read -/

/-- A table that was read is sorted, and its rules are valid. -/
private theorem valid_of_rules? {document : Document} {rules : Repository}
    (h : rules? document = some rules) :
    Dict.Sorted rules ∧ ∀ rule ∈ Dict.values rules, rule.Valid := by
  obtain ⟨table, htable, rfl⟩ := Option.bind_eq_some_iff.1 h
  exact Rule.valid_of_table? document htable

/-- A grammar that was read from members is ordered and has its keys apart. -/
private theorem valid_of_readFrom {members : Members} {grammar : Grammar}
    (h : ReadFrom members grammar) :
    grammar.Ordered ∧ grammar.KeysApart := by
  have hpatterns : ∀ rule ∈ grammar.patterns, rule.Valid := by
    rcases Members.withDefault_eq_some_iff.1 h.patterns with ⟨-, hnil⟩ | ⟨document, -, hread⟩
    · simp [← hnil]
    · obtain ⟨rules, hrules, rfl⟩ := Option.bind_eq_some_iff.1 hread
      exact Rule.valid_of_list? document hrules
  -- A table that is missing has no rules, and one that is there was read.
  have hrules {key : String} {rules : Repository}
      (hread : members.withDefault key [] rules? = some rules) :
      Dict.Sorted rules ∧ ∀ rule ∈ Dict.values rules, rule.Valid := by
    rcases Members.withDefault_eq_some_iff.1 hread with ⟨-, rfl⟩ | ⟨document, -, hdocument⟩
    · exact ⟨Dict.sorted_nil, by simp [Dict.values]⟩
    · exact valid_of_rules? hdocument
  obtain ⟨hrepository, hrepositoryRules⟩ := hrules h.repository
  obtain ⟨hinjections, hinjectionsRules⟩ := hrules h.injections
  have hchildren : ∀ rule ∈ grammar.children, rule.Valid := by
    simp only [children, List.mem_append, or_imp, forall_and]
    exact ⟨⟨hpatterns, hrepositoryRules⟩, hinjectionsRules⟩
  obtain ⟨values, hvalues⟩ := exists_members?_of_readFrom h
  -- The unknown members are those of the value, as a dictionary.
  have hextra := extra_of_readFrom h hvalues
  refine ⟨⟨fun rule hrule => (hchildren rule hrule).imp fun _ => And.left, hrepository, hinjections,
    hextra ▸ Dict.sorted_ofList _, fun member hmember => ?_⟩,
    fun rule hrule => (hchildren rule hrule).imp fun _ => And.right, fun key hkey => ?_⟩
  · rw [hextra] at hmember
    exact Document.canonical_of_members? members hvalues member
      (List.mem_of_mem_filter (Dict.mem_of_mem_ofList hmember))
  · rw [hextra, find?_ofList_unknown, if_pos hkey]

/-- A grammar that was read satisfies what reading it back asks for. -/
theorem valid_of_ofObject? {document : Document} {grammar : Grammar}
    (h : ofObject? document = some grammar) : grammar.Ordered ∧ grammar.KeysApart := by
  cases document with
  | object members => exact valid_of_readFrom ((ofMembers?_eq_some_iff members grammar).1 h)
  | _ => cases h

/-! ## Values and grammars -/

/-- A grammar is written as a value up to normalization, and with the unknown members of the
value. -/
structure Keeps (value : Json) (grammar : Grammar) : Prop where
  toJson_eq : grammar.toJson = normalized value
  member : ∀ key, key ∉ knownKeys →
    grammar.toJson.at? [.member key] = value.at? [.member key]
  rule : ∀ path, RulePath path → ∀ key, key ∉ Rule.knownKeys →
    grammar.toJson.at? (path ++ [.member key]) = value.at? (path ++ [.member key])

/-- A document of any text, with keys that it may repeat, is kept as the value that it has. -/
private theorem keeps_of_ofObject? {document : Document} {grammar : Grammar}
    (h : ofObject? document = some grammar) :
    ∃ value, document.value? = some value ∧ Keeps value grammar := by
  obtain ⟨value, hvalue, hsame⟩ := toJson_of_ofObject? h
  have hcanonical := Document.canonical_of_value? document hvalue
  refine ⟨value, hvalue, hsame, fun key hkey => ?_, fun path hpath key hkey => ?_⟩
  · rw [hsame, at?_normalized_member hcanonical hkey]
  · rw [hsame, at?_normalized_rule hpath hcanonical hkey]

/-- Grammars as JSON keep everything. Whatever value is read as a grammar is what the grammar is
written as, apart from what `normalized` states, and with all unknown members of the grammar and of
its rules; so it is for a document with repeated keys and the value that it has. A grammar without
known keys among the unknown ones is read back from what it is written as. -/
theorem keeps_value :
    (∀ value grammar, value.Canonical → ofJson? value = some grammar → Keeps value grammar) ∧
    (∀ document grammar, ofObject? document = some grammar →
      ∃ value, document.value? = some value ∧ Keeps value grammar) ∧
    ∀ grammar : Grammar, grammar.Ordered → grammar.KeysApart →
      ofJson? grammar.toJson = some grammar := by
  refine ⟨fun value grammar hcanonical h => ?_, fun document grammar => keeps_of_ofObject?,
    fun grammar => ofJson?_toJson⟩
  -- A value is a document without repeated keys, whose value it is.
  obtain ⟨other, hvalue, hkeeps⟩ := keeps_of_ofObject? h
  rw [hcanonical.value?_ofJson] at hvalue
  exact Option.some.inj hvalue ▸ hkeeps

/-- A grammar with unknown members, of its own and of a rule for a capture, and with known members
that are `null`. -/
def annotated : Json :=
  .object [("name", .null),
    ("patterns", .array [.object [
      ("captures", .object [("1", .object [("comment", .string "sign"), ("name", .null)])]),
      ("match", .string "([+-]?)[0-9]+")]]),
    ("scopeName", .string "source.annotated"), ("uuid", .string "1b6d")]

/-- The unknown members are kept, at both depths, and the members that are `null` are not. -/
theorem keeps_value_annotated :
    ∃ grammar, ofJson? annotated = some grammar ∧ Keeps annotated grammar ∧
      (∃ value, (Document.ofJson annotated).value? = some value ∧ Keeps value grammar) ∧
      ofJson? grammar.toJson = some grammar ∧
      grammar.toJson.at? [.member "uuid"] = some (.string "1b6d") ∧
      grammar.toJson.at? [.member "patterns", .item 0, .member "captures", .member "1",
        .member "comment"] = some (.string "sign") ∧
      grammar.toJson.at? [.member "name"] = none ∧
      grammar.toJson.at? [.member "patterns", .item 0, .member "captures", .member "1",
        .member "name"] = none := by
  obtain ⟨hvalue, hdocument, hback⟩ := keeps_value
  have hread : (ofJson? annotated).isSome = true := by decide +kernel
  obtain ⟨grammar, hgrammar⟩ := Option.isSome_iff_exists.1 hread
  -- The value is read back as it is, so it is canonical.
  have hcanonical : annotated.Canonical :=
    Document.canonical_of_value? (.ofJson annotated) (by rfl)
  obtain ⟨hordered, hkeys⟩ := valid_of_ofObject? hgrammar
  have hkeeps := hvalue annotated grammar hcanonical hgrammar
  refine ⟨grammar, hgrammar, hkeeps, hdocument _ grammar hgrammar, hback grammar hordered hkeys,
    hkeeps.member "uuid" (by decide), ?_, ?_, ?_⟩
  · -- The path goes over a pattern to one of its captures.
    exact hkeeps.rule [.member "patterns", .item 0, .member "captures", .member "1"]
      (.pattern 0 (.entry (by rfl) "1" .here)) "comment" (by decide)
  · rw [hkeeps.toJson_eq]
    rfl
  · rw [hkeeps.toJson_eq]
    rfl

/-- A document is read as a grammar if it is not too deep. -/
theorem ofDocument?_eq_some_iff (document : Document) (grammar : Grammar) :
    ofDocument? document = some grammar ↔
      document.depth ≤ maxDepth ∧ ofObject? document = some grammar := by
  unfold ofDocument? guard
  by_cases h : document.depth ≤ maxDepth
  · rw [if_pos h]
    exact ⟨fun hread => ⟨h, hread⟩, And.right⟩
  · rw [if_neg h]
    exact ⟨fun hread => (by cases hread), fun hread => absurd hread.1 h⟩

/-- A grammar that was read from a text keeps the value of the text, and is read back from what it
is written as. -/
theorem keeps_of_parse? {text : String} {grammar : Grammar} (h : parse? text = some grammar) :
    ∃ document value, Document.parse? text = some document ∧ document.value? = some value ∧
      Keeps value grammar ∧ ofJson? grammar.toJson = some grammar := by
  obtain ⟨document, hdocument, hread⟩ := Option.bind_eq_some_iff.1 h
  obtain ⟨-, hobject⟩ := (ofDocument?_eq_some_iff document grammar).1 hread
  obtain ⟨value, hvalue, hkeeps⟩ := keeps_of_ofObject? hobject
  obtain ⟨hordered, hkeys⟩ := valid_of_ofObject? hobject
  exact ⟨document, value, hdocument, hvalue, hkeeps, ofJson?_toJson hordered hkeys⟩

end Textmate.Grammar
