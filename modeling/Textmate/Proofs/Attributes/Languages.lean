import Mathlib.Data.List.Infix
import Mathlib.Data.Set.List
import Mathlib.Data.String.Basic
import Textmate.Proofs.Attributes.Asked
import Textmate.Proofs.Dict

/-!
# The language of a scope

The language of a scope is that of the longest scope of a table that starts it. The pattern of the
table tries one scope after another and takes the first one that has the end of the text or a dot
behind it. So the order of the scopes decides: it is that of their texts with backslashes, from the
last one on, and there every scope stands in front of the scopes that start it.

## Key results

- `LanguageFinder.first?_patternOf`: the pattern finds the first of its scopes that starts a text
- `LanguageFinder.alternatives_eq`: no scope stands in front of one that goes on from it
- `languageOf?_eq`: a table finds the number of the first scope in that order that starts the text
- `languageOf?_cases`: this is the longest scope
- `Classifier.language_of_longest`: so a classifier answers, whatever it was asked before
-/

namespace Textmate

namespace Text.Pattern

/-- Different texts have different patterns. -/
private theorem escape_injective : Function.Injective escape := by
  intro cs ds heq
  -- The pattern of each text comes to the end of the text itself.
  have hself : afterStart? cs cs = some [] := afterStart?_eq_some_iff.2 cs.append_nil.symm
  have hways := ways_escape ds ⟨[], cs, none⟩
  rw [← heq, ways_escape, hself] at hways
  cases hafter : afterStart? ds cs with
  | none => simp [hafter] at hways
  | some rest =>
    have hplace : cs = ds ∧ rest = [] := by simpa [hafter, Place.pass] using hways
    exact hplace.1

/-- Nothing is found behind the start of a text. -/
private theorem firstFrom?_both_start (inner : Pattern) (c : Char) (before cs : List Char) :
    (both start inner).firstFrom? (c :: before) cs = none := by
  induction cs generalizing c before with
  | nil => simp [firstFrom?, ways]
  | cons d cs ih => simp [firstFrom?, ways, ih]

/-- A pattern for the start of a text is tried there only. -/
private theorem first?_both_start (inner : Pattern) (cs : List Char) :
    (both start inner).first? cs = (inner.ways ⟨[], cs, none⟩).head? := by
  cases cs with
  | nil => simp [first?, firstFrom?, ways]
  | cons c cs => simp [first?, firstFrom?, ways, firstFrom?_both_start]

end Text.Pattern

/-! ## Scopes that start a scope -/

namespace ScopeName

/-- The name is the scope, or the scope goes on with a dot behind the name. -/
def Starts (start scope : ScopeName) : Prop :=
  scope = start ∨ ∃ rest, scope.text.toList = start.text.toList ++ '.' :: rest

/-- This is what is asked when a scope is compared with the start of another one. -/
private theorem startsWith_iff {start scope : ScopeName} :
    scope.startsWith start.text = true ↔ start.Starts scope := by
  have heq : scope = start ↔ scope.text.toList = start.text.toList := by
    rw [String.toList_inj, ScopeName.ext_iff]
  rw [Starts, heq, startsWith_iff_toList]

instance (start scope : ScopeName) : Decidable (start.Starts scope) :=
  decidable_of_iff _ startsWith_iff

/-- A text that starts with the name. -/
private theorem Starts.isPrefix {start scope : ScopeName} (h : start.Starts scope) :
    start.text.toList <+: scope.text.toList := by
  rcases h with rfl | ⟨rest, hrest⟩
  · exact List.prefix_refl _
  · exact ⟨_, hrest.symm⟩

/-- Of two starts of a scope the longer one starts with the shorter one. -/
private theorem Starts.isPrefix_of_length_le {a b scope : ScopeName} (ha : a.Starts scope)
    (hb : b.Starts scope) (hle : a.text.length ≤ b.text.length) :
    a.text.toList <+: b.text.toList := by
  -- Both are starts of one text, so their lengths decide.
  have hlists : a.text.toList.length ≤ b.text.toList.length := by
    rwa [String.length_toList, String.length_toList]
  exact List.prefix_of_prefix_length_le ha.isPrefix hb.isPrefix hlists

end ScopeName

/-! ## The pattern of a table -/

namespace LanguageFinder

/-- The text of the pattern for a scope. -/
def escaped (scope : ScopeName) : String :=
  String.ofList (Text.Pattern.escape scope.text.toList)

/-- Different scopes have different texts in the pattern. -/
private theorem escaped_injective : Function.Injective escaped := by
  intro a b heq
  have hlist := Text.Pattern.escape_injective (String.ofList_injective heq)
  exact ScopeName.ext (String.toList_inj.1 hlist)

/-- What stands behind a scope in the pattern. -/
def edge : Text.Pattern :=
  .either .stop (.literal '.')

/-- Where the pattern comes to with a scope at the start of a text. -/
def reached? (cs : List Char) (scope : ScopeName) : Option Text.Pattern.Place := do
  let rest ← Text.afterStart? scope.text.toList cs
  (edge.ways ⟨scope.text.toList.reverse, rest, some scope.text.toList⟩).head?

/-- The pattern comes to where the first of its scopes comes to that starts the text. -/
theorem first?_patternOf (first : ScopeName) (others : List ScopeName) (cs : List Char) :
    (patternOf (escaped first) (others.map escaped)).first? cs =
      (first :: others).findSome? (reached? cs) := by
  -- The pattern tries the scopes in their order, and each comes to one place at most.
  have hscopes : (Text.Pattern.ofEscaped (escaped first).toList ::
      (others.map escaped).map fun text => Text.Pattern.ofEscaped text.toList) =
      (first :: others).map fun scope =>
        Text.Pattern.ofEscaped (Text.Pattern.escape scope.text.toList) := by
    simp [escaped]
  rw [patternOf, Text.Pattern.first?_both_start, Text.Pattern.ways, Text.Pattern.ways,
    Text.Pattern.ways_firstOf, hscopes, List.flatMap_map, List.flatMap_map, List.flatMap_assoc,
    List.head?_flatMap]
  congr 1
  funext scope
  dsimp only
  rw [Text.Pattern.ways_escape, reached?]
  cases hafter : Text.afterStart? scope.text.toList cs with
  | none => simp
  | some rest =>
    obtain rfl := Text.afterStart?_eq_some_iff.1 hafter
    simp [Text.Pattern.Place.pass, edge]

/-- The pattern comes somewhere with exactly the scopes that start the text. -/
private theorem isSome_reached? {name scope : ScopeName} :
    (reached? scope.text.toList name).isSome = true ↔ name.Starts scope := by
  rw [← ScopeName.startsWith_iff, ScopeName.startsWith, reached?]
  cases Text.afterStart? name.text.toList scope.text.toList with
  | none => simp
  | some rest =>
    -- Behind the name the pattern wants the end of the text or a dot.
    cases rest with
    | nil => simp [edge, Text.Pattern.ways]
    | cons c rest => by_cases hc : c = '.' <;> simp [edge, Text.Pattern.ways, hc]

/-- What the pattern keeps then is the scope. -/
private theorem kept_of_reached? {name : ScopeName} {cs : List Char} {place : Text.Pattern.Place}
    (h : reached? cs name = some place) : place.kept = some name.text.toList := by
  obtain ⟨rest, -, hedge⟩ := Option.bind_eq_some_iff.1 h
  cases rest with
  | nil =>
    simp only [edge, Text.Pattern.ways, List.isEmpty_nil, if_true, List.singleton_append,
      List.head?_cons, Option.some.injEq] at hedge
    rw [← hedge]
  | cons c rest =>
    -- Behind the scope there is the end of the text or a dot.
    by_cases hc : c = '.'
    · simp only [edge, Text.Pattern.ways, List.isEmpty_cons, hc, if_true, Bool.false_eq_true,
        if_false, List.nil_append, List.head?_cons, Option.some.injEq] at hedge
      rw [← hedge]
    · simp [edge, Text.Pattern.ways, hc] at hedge

/-- Of several scopes the pattern keeps the first one that starts the text. -/
private theorem kept_findSome?_reached? (names : List ScopeName) (scope : ScopeName) :
    (names.findSome? (reached? scope.text.toList)).bind (·.kept) =
      (names.find? fun name => name.Starts scope).map (·.text.toList) := by
  induction names with
  | nil => rfl
  | cons name names ih =>
    -- The first alternative that starts the text is taken; the others are not tried.
    by_cases hstarts : name.Starts scope
    · obtain ⟨place, hplace⟩ := Option.isSome_iff_exists.1 (isSome_reached?.2 hstarts)
      simp [hplace, kept_of_reached? hplace, hstarts]
    · have hnone : reached? scope.text.toList name = none := by
        rw [← Option.not_isSome_iff_eq_none, isSome_reached?]
        exact hstarts
      simp [hnone, hstarts, ih]

/-- A scope stands in the order of the texts in front of those that go on from it. -/
private theorem not_isPrefix_of_escaped_lt {a b : ScopeName} (h : escaped b < escaped a) :
    ¬ a.text.toList <+: b.text.toList := by
  intro hstarts
  -- Backslashes are put in character by character, so the start of a text stays one.
  have hescaped : Text.Pattern.escape a.text.toList <+: Text.Pattern.escape b.text.toList :=
    hstarts.flatMap _
  rw [String.lt_iff_toList_lt, escaped, escaped, String.toList_ofList, String.toList_ofList] at h
  exact hescaped.le h

/-- The scopes of a table are tried from the longer to the shorter ones: none stands in front of one
that goes on from it. -/
theorem alternatives_eq (embedded : List (ScopeName × Nat)) :
    ∃ names : List ScopeName, alternatives embedded = names.map escaped ∧
      (∀ name, name ∈ names ↔ name ∈ Dict.keys embedded) ∧
      names.Pairwise fun a b => ¬ a.text.toList <+: b.text.toList := by
  have hmem (text : String) :
      text ∈ alternatives embedded ↔ ∃ name ∈ Dict.keys embedded, escaped name = text := by
    rw [alternatives, List.mem_reverse, Dict.mem_keys_ofList]
    simp [Dict.keys, escaped]
  -- All texts of the pattern are those of scopes, so the list comes from a list of scopes.
  have hrange : alternatives embedded ∈ Set.range (List.map escaped) := by
    rw [Set.range_list_map]
    intro text htext
    obtain ⟨name, -, hname⟩ := (hmem text).1 htext
    exact ⟨name, hname⟩
  obtain ⟨names, hnames⟩ := hrange
  -- The texts are sorted, and then turned around.
  have horder : (alternatives embedded).Pairwise fun a b => b < a :=
    List.pairwise_reverse.2 (Dict.sorted_ofList _)
  rw [← hnames, List.pairwise_map] at horder
  refine ⟨names, hnames.symm, fun name => ?_, horder.imp not_isPrefix_of_escaped_lt⟩
  rw [← List.mem_map_of_injective escaped_injective, hnames, hmem]
  simp [escaped_injective.eq_iff]

end LanguageFinder

/-! ## The longest scope of a table -/

/-- The name is the longest one in a table that starts the scope. -/
structure LongestStart (embedded : List (ScopeName × Nat)) (name scope : ScopeName) : Prop where
  mem : name ∈ Dict.keys embedded
  starts : name.Starts scope
  longest : ∀ other ∈ Dict.keys embedded, other.Starts scope →
    other.text.length ≤ name.text.length

namespace LanguageFinder

/-- The first scope that starts a scope is the longest one if no scope stands in front of one that
goes on from it. -/
private theorem longestStart_of_first {embedded : List (ScopeName × Nat)}
    {before after : List ScopeName} {name scope : ScopeName}
    (hmem : ∀ other, other ∈ before ++ name :: after ↔ other ∈ Dict.keys embedded)
    (horder : (before ++ name :: after).Pairwise fun a b => ¬ a.text.toList <+: b.text.toList)
    (hname : name.Starts scope) (hbefore : ∀ other ∈ before, ¬ other.Starts scope) :
    LongestStart embedded name scope where
  mem := (hmem name).1 (by simp)
  starts := hname
  longest := by
    intro other hother hstarts
    rcases List.mem_append.1 ((hmem other).2 hother) with hearlier | hlater
    · exact absurd hstarts (hbefore other hearlier)
    · rcases List.mem_cons.1 hlater with rfl | hafter
      · exact Nat.le_refl _
      · -- Behind the name stands no scope that goes on from it.
        obtain ⟨-, hrest, -⟩ := List.pairwise_append.1 horder
        have hnot := (List.pairwise_cons.1 hrest).1 other hafter
        by_contra hlt
        exact hnot (hname.isPrefix_of_length_le hstarts (Nat.le_of_not_ge hlt))

end LanguageFinder

/-- Keys may be looked up by their texts. -/
private theorem find?_texts (name : ScopeName) (embedded : List (ScopeName × Nat)) :
    Dict.find? name.text (embedded.map fun (scope, id) => (scope.text, id)) =
      Dict.find? name embedded := by
  induction embedded with
  | nil => rfl
  | cons entry embedded ih =>
    obtain ⟨scope, id⟩ := entry
    have hkey : scope.text = name.text ↔ scope = name := ScopeName.ext_iff.symm
    simp only [List.map_cons, Dict.find?, hkey]
    rw [ih]

/-- A table finds the number of the first of its scopes, in the order of the pattern, that starts
the scope. -/
theorem languageOf?_eq {embedded : List (ScopeName × Nat)} {names : List ScopeName}
    (hnames : LanguageFinder.alternatives embedded = names.map LanguageFinder.escaped)
    (scope : ScopeName) :
    languageOf? embedded scope =
      (names.find? fun name => name.Starts scope).bind (Dict.find? · embedded) := by
  cases names with
  | nil => simp [languageOf?, LanguageFinder.ofTable?, hnames]
  | cons first others =>
    -- The pattern keeps the first scope that starts the text, and its number is looked up.
    have hkept := LanguageFinder.kept_findSome?_reached? (first :: others) scope
    rw [← LanguageFinder.first?_patternOf] at hkept
    have hfind : languageOf? embedded scope =
        (((LanguageFinder.patternOf (LanguageFinder.escaped first)
          (others.map LanguageFinder.escaped)).first? scope.text.toList).bind (·.kept)).bind
            fun piece => Dict.find? (String.ofList piece)
              (embedded.map fun (scope, id) => (scope.text, id)) := by
      rw [languageOf?, LanguageFinder.ofTable?, hnames, Option.bind_assoc]
      rfl
    rw [hfind, hkept, Option.bind_map]
    simp only [Function.comp_def, String.ofList_toList, find?_texts]

/-- What a table finds for a scope: the number of the longest scope that starts it, or nothing if
none does. -/
theorem languageOf?_cases (embedded : List (ScopeName × Nat)) (scope : ScopeName) :
    (∃ name, LongestStart embedded name scope ∧
      languageOf? embedded scope = Dict.find? name embedded) ∨
    ((∀ name ∈ Dict.keys embedded, ¬ name.Starts scope) ∧ languageOf? embedded scope = none) := by
  obtain ⟨names, halternatives, hmem, horder⟩ := LanguageFinder.alternatives_eq embedded
  rw [languageOf?_eq halternatives]
  cases hfirst : names.find? fun name => name.Starts scope with
  | none =>
    right
    -- All scopes of the table were tried.
    refine ⟨fun name hname => ?_, rfl⟩
    simpa using List.find?_eq_none.1 hfirst name ((hmem name).2 hname)
  | some name =>
    left
    -- No name before the first one starts the scope, and every longer one is before it.
    obtain ⟨hstarts, before, after, rfl, hbefore⟩ := List.find?_eq_some_iff_append.1 hfirst
    have hlongest : LongestStart embedded name scope :=
      LanguageFinder.longestStart_of_first hmem horder (by simpa using hstarts) fun other hother =>
        by simpa using hbefore other hother
    exact ⟨name, hlongest, rfl⟩

namespace Classifier

/-- Whatever a classifier was asked before, the language of a scope is that of the longest embedded
scope that starts it, and there is none if no embedded scope does. -/
theorem language_of_longest (initial : Nat) (configuration : Configuration)
    (hinitial : initial ≤ maxLanguage)
    (hids : ∀ entry ∈ configuration.embeddedLanguages, entry.2 ≤ maxLanguage) :
    ∃ classifier, ofConfiguration initial configuration = .ok classifier ∧
      ∀ (calls : List ScopeName) (scope : ScopeName),
        let language := ((classifier.askAll calls).2.attributes scope).language
        (∃ name, LongestStart configuration.embeddedLanguages name scope ∧
          Dict.find? name configuration.embeddedLanguages = some language) ∨
        ((∀ name ∈ Dict.keys configuration.embeddedLanguages, ¬ name.Starts scope) ∧
          language = 0) := by
  have hmade := ofConfiguration_eq_ok_iff.2 ⟨outOfRange?_eq_none_iff.2 ⟨hinitial, hids⟩, rfl⟩
  refine ⟨_, hmade, fun calls scope => ?_⟩
  have hremembers := ((remembers_ofConfiguration hmade).askAll calls).2
  simp only [hremembers.attributes_eq, classify]
  rcases languageOf?_cases configuration.embeddedLanguages scope with
    ⟨name, hlongest, hlanguage⟩ | ⟨hnone, hlanguage⟩
  · -- The longest scope is a key, so it has a number.
    obtain ⟨id, hid⟩ := (Dict.mem_keys_iff_find? name _).1 hlongest.mem
    left
    refine ⟨name, hlongest, ?_⟩
    rw [hlanguage, hid, Option.getD_some]
  · right
    refine ⟨hnone, ?_⟩
    rw [hlanguage, Option.getD_none]

/-! ### Languages whose names go on from each other -/

def c : ScopeName := ⟨"source.c", by decide, by simp, by simp; decide⟩

def header : ScopeName := ⟨"source.c.h", by decide, by simp, by simp; decide⟩

def cpp : ScopeName := ⟨"source.c++", by decide, by simp, by simp; decide⟩

/-- A scope inside the language whose name has characters with a meaning of their own. -/
def inCpp : ScopeName := ⟨"source.c++.class", by decide, by simp, by simp; decide⟩

def cFamily : Configuration := ⟨[(c, 1), (header, 2), (cpp, 3)], []⟩

/-- A name with characters that have a meaning of their own is found, and a shorter one with no dot
behind it is not. -/
theorem language_in_cpp :
    ∃ classifier, ofConfiguration 0 cFamily = .ok classifier ∧
      ((classifier.askAll [c, inCpp]).2.attributes inCpp).language = 3 := by
  obtain ⟨classifier, hmade, hlanguage⟩ :=
    language_of_longest 0 cFamily (by decide) (by decide)
  refine ⟨classifier, hmade, ?_⟩
  rcases hlanguage [c, inCpp] inCpp with ⟨name, hlongest, hid⟩ | ⟨hnone, -⟩
  · have hcpp : name = cpp := by
      have hmem : name = c ∨ name = header ∨ name = cpp := by
        simpa [Dict.keys, cFamily] using hlongest.mem
      have hstarts := hlongest.starts
      -- Neither of the two shorter names has a dot or the end behind it.
      rcases hmem with rfl | rfl | rfl
      · exact absurd hstarts (by decide)
      · exact absurd hstarts (by decide)
      · rfl
    rw [hcpp] at hid
    exact (Option.some.inj hid).symm
  · exact absurd (by decide) (hnone cpp (by decide))

end Classifier

end Textmate
