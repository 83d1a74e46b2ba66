import Textmate.Grammar.Include
import Textmate.Proofs.Resolution.Accounts

/-!
# Texts of includes and keys of dependencies

The text of an include is cut at its first `#`. What stands behind has to be a rule, so a text is
refused when it ends there, and the empty text is refused; all other texts are read, and what is
read has the text as its own.

A dependency has as its key the text of an include that asks for it. A scope holds no `#`, so the
first one in a key stands between the scope and the rule, whatever the rule holds. So the parts of a
dependency are read back from its key, and what is requested under one key is one dependency. Two
texts are read in a way of their own even though they are scopes, `$base` and `$self`.

## Key results

- `Include.parse_of_hash`, `Include.parse_of_not_mem`: what is read with and without a `#`
- `Include.exists_error_iff`, `Include.exists_display_iff`: which texts are refused and which kept
- `Requested.admits_foldl_add_iff`: no dependency is left out for the key of another one
- `Dependency.keys_are_includes`: all of this
-/

namespace Textmate

namespace Include

variable {text : String} {scope name : List Char}

/-- The first `#` of a text is its last character. -/
def EndsAtHash (text : String) : Prop :=
  ∃ scope, text.toList = scope ++ ['#'] ∧ '#' ∉ scope

/-- A text with a `#` names a rule behind the first one, or is refused. -/
theorem parse_of_hash (htext : text.toList = scope ++ '#' :: name) (hscope : '#' ∉ scope) :
    parse text =
      if name = [] then .error (.noRule text)
      else if scope = [] then .ok (.rule (String.ofList name))
      else .ok (.grammarRule (String.ofList scope) (String.ofList name)) := by
  have hsplit := Text.splitOnce_eq_some_iff.2 ⟨htext, hscope⟩
  have hmem : '#' ∈ text.toList := by simp [htext]
  -- The texts that are read as a whole have no such character.
  have hempty : text ≠ "" := by rintro rfl; simp at hmem
  have hbase : text ≠ "$base" := by rintro rfl; simp at hmem
  have hself : text ≠ "$self" := by rintro rfl; simp at hmem
  rw [parse, if_neg hempty, if_neg hbase, if_neg hself, hsplit]
  -- What stands on either side may be empty.
  cases name <;> cases scope <;> simp

/-- A text without a `#` is a scope, unless it is empty or has a meaning of its own. -/
theorem parse_of_not_mem (hmem : '#' ∉ text.toList) :
    parse text =
      if text = "" then .error .empty
      else if text = "$base" then .ok .base
      else if text = "$self" then .ok .self
      else .ok (.grammar text) := by
  rw [parse, Text.splitOnce_eq_none_iff.2 hmem]

/-- A text ends at its first `#` when nothing stands behind it. -/
private theorem endsAtHash_iff (htext : text.toList = scope ++ '#' :: name) (hscope : '#' ∉ scope) :
    EndsAtHash text ↔ name = [] := by
  constructor
  · rintro ⟨other, hother, hnot⟩
    -- There is one way to cut the text at its first separator.
    have hsplit := Text.splitOnce_eq_some_iff.2 ⟨htext, hscope⟩
    rw [Text.splitOnce_eq_some_iff.2 ⟨hother, hnot⟩] at hsplit
    exact (Prod.mk.inj (Option.some.inj hsplit)).2.symm
  · rintro rfl
    exact ⟨scope, htext, hscope⟩

/-- The empty text and those that end at their first `#` are refused. -/
theorem exists_error_iff :
    (∃ problem, parse text = .error problem) ↔ text = "" ∨ EndsAtHash text := by
  by_cases hmem : '#' ∈ text.toList
  · obtain ⟨scope, name, htext, hscope⟩ := List.eq_append_cons_of_mem hmem
    have hempty : text ≠ "" := by rintro rfl; simp at hmem
    rw [parse_of_hash htext hscope, endsAtHash_iff htext hscope]
    by_cases hname : name = []
    · simp [hname]
    · by_cases hfront : scope = [] <;> simp [hname, hfront, hempty]
  · -- A text without the character does not end at it.
    have hends : ¬ EndsAtHash text := by
      rintro ⟨scope, htext, -⟩
      simp [htext] at hmem
    -- Only the empty text is left to be refused.
    rw [parse_of_not_mem hmem, or_iff_left hends]
    by_cases hempty : text = ""
    · simp [hempty]
    · rw [if_neg hempty]
      refine iff_of_false (fun ⟨problem, hproblem⟩ => ?_) hempty
      split at hproblem
      · cases hproblem
      · split at hproblem <;> cases hproblem

/-- All other texts are read, and what was read has the text as its own. -/
theorem exists_display_iff :
    (∃ target, parse text = .ok target ∧ target.display = text) ↔
      ¬ (text = "" ∨ EndsAtHash text) := by
  rw [← exists_error_iff]
  cases hparse : parse text with
  | error problem => simp
  | ok target => simp [display_of_parse hparse]

end Include

/-- What was requested holds a dependency back only if the dependency itself or the whole grammar of
its scope was requested, though rules are compared by their keys. -/
theorem Requested.admits_foldl_add_iff (requests : List Dependency) (dependency : Dependency) :
    (requests.foldl add ⟨[], []⟩).admits dependency = true ↔
      dependency ∉ requests ∧ .whole dependency.scope ∉ requests := by
  -- After the requests there are the whole grammars and the keys of the rules among them.
  rw [foldl_add, List.nil_append, List.nil_append]
  cases dependency with
  | whole scope => simp [admits, Dependency.mem_wholes, Dependency.scope]
  | part scope name =>
    simp [admits, Dependency.mem_wholes, Dependency.key_mem_partKeys, Dependency.scope, and_comm]

namespace Dependency

/-- The key of a rule is read as the scope and the rule, whatever characters the rule has. -/
private theorem parse_key_part (scope : ScopeName) (name : String) :
    Include.parse (part scope name).key = .ok (.grammarRule scope.text name) ↔ name ≠ "" := by
  -- The first `#` is the one between both, as a scope name has none.
  have htext : (part scope name).key.toList = scope.text.toList ++ '#' :: name.toList := by
    simp [key]
  rw [Include.parse_of_hash htext scope.hash_not_mem]
  have hscope : scope.text.toList ≠ [] := by simpa using scope.ne_empty
  by_cases hname : name = ""
  · simp [hname]
  · simp [hname, hscope]

/-- The key of a whole grammar is read as its scope, unless the scope has the text of an include
with a meaning of its own. -/
private theorem parse_key_whole (scope : ScopeName) :
    Include.parse (whole scope).key = .ok (.grammar scope.text) ↔
      scope.text ≠ "$base" ∧ scope.text ≠ "$self" := by
  rw [key, Include.parse_of_not_mem scope.hash_not_mem, if_neg scope.ne_empty]
  by_cases hbase : scope.text = "$base"
  · simp [hbase]
  · by_cases hself : scope.text = "$self" <;> simp [hbase, hself]

/-- Includes are texts that are read back, and keys of dependencies are such texts. A text is
refused exactly when it is empty or its first `#` is its last character, and every other text is the
one of what was read. Different dependencies have different keys, so none is held back for another
one that was requested. From a key its scope and its rule are read again, but for the empty rule and
for the two scopes with a meaning of their own. -/
theorem keys_are_includes :
    (∀ text, (∃ problem, Include.parse text = .error problem) ↔
      text = "" ∨ Include.EndsAtHash text) ∧
    (∀ text, (∃ target, Include.parse text = .ok target ∧ target.display = text) ↔
      ¬ (text = "" ∨ Include.EndsAtHash text)) ∧
    (∀ a b : Dependency, a.key = b.key ↔ a = b) ∧
    (∀ (requests : List Dependency) (dependency : Dependency),
      (requests.foldl Requested.add ⟨[], []⟩).admits dependency = true ↔
        dependency ∉ requests ∧ .whole dependency.scope ∉ requests) ∧
    (∀ (scope : ScopeName) (name : String),
      Include.parse (part scope name).key = .ok (.grammarRule scope.text name) ↔ name ≠ "") ∧
    ∀ scope : ScopeName, Include.parse (whole scope).key = .ok (.grammar scope.text) ↔
      scope.text ≠ "$base" ∧ scope.text ≠ "$self" :=
  ⟨fun _ => Include.exists_error_iff, fun _ => Include.exists_display_iff, fun _ _ => key_inj,
    Requested.admits_foldl_add_iff, parse_key_part, parse_key_whole⟩

end Dependency

end Textmate
