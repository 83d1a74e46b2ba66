import Mathlib.Data.List.Permutation
import Mathlib.Logic.Relation
import Textmate.Proofs.Resolution.Accounts
import Textmate.Registry

/-!
# What a resolution leaves out

A resolution comes to everything that can be reached from its scope, with one exception: a rule that
another grammar includes is dropped when the scope of the rule was requested as a whole, although
the scan of the whole grammar does not come to rules that nothing at the top level leads to. So what
only such a rule leads to is left out.

## Key results

- `Accounts.done_or_safe`: a node that can be reached is done, or safe behind a dropped rule
- `complete_iff`: a resolution is complete exactly when nothing is lost with the dropped rules
- `not_complete`: something can be lost
-/

namespace Textmate

/-- The scope is reported, as loaded or as missing. -/
def Resolution.Reports (report : Resolution) (scope : ScopeName) : Prop :=
  scope ∈ report.loaded ∨ scope ∈ report.missing

/-- A rule of the grammar of a scope that another grammar includes, and that was dropped because the
scope was requested as a whole. -/
structure Dropped (loader : Loader) (initial : ScopeName) (report : Resolution)
    (scope : ScopeName) (rule : Rule) : Prop where
  /-- A rule that can be reached includes it by the names of the scope and the rule, and it was not
  scanned by itself. -/
  included : ∃ current asking text name,
    Reaches loader initial (.whole initial) (.rule current asking) ∧
    asking.include? = some (.grammarRule text name) ∧
    ScopeName.ofString? text = some scope ∧ loader.rule? scope name = some rule ∧
    scope ≠ current ∧ (Dependency.part scope name).key ∉ report.parts
  /-- It is not a rule of the initial grammar. -/
  ne_initial : scope ≠ initial
  /-- The grammar was scanned as a whole. -/
  mem_whole : scope ∈ report.whole

/-! ## Scopes without a grammar -/

namespace Loader

/-- A scope without a grammar has no rules at a top level. -/
private theorem topRules_eq_nil {loader : Loader} {scope : ScopeName}
    (h : loader.definition? scope = none) : loader.topRules scope = [] := by
  rw [topRules, grammar?, h]
  rfl

/-- A scope without a grammar has no named rules. -/
private theorem rule?_eq_none {loader : Loader} {scope : ScopeName}
    (h : loader.definition? scope = none) (name : String) : loader.rule? scope name = none := by
  rw [rule?, grammar?, h]
  rfl

/-- Nothing is injected into a scope without a grammar. -/
private theorem injected_eq_nil {loader : Loader} {scope : ScopeName}
    (h : loader.definition? scope = none) : loader.injected scope = [] := by
  unfold definition? at h
  unfold injected
  cases hanswer : loader.answer scope with
  | grammar grammar =>
    rw [hanswer] at h
    cases h
  | nothing => rfl
  | failure cause => rfl

end Loader

/-! ## What becomes of a node -/

namespace Node

/-- What the end of a resolution says about a node: the scope is reported, the grammar is missing or
was seen as a whole, the rule was seen. -/
def Done (loader : Loader) (report : Resolution) (seen : ScopeName → Rule → Prop) : Node → Prop
  | .scope name => report.Reports name
  | .whole name => name ∈ report.missing ∨ name ∈ report.loaded ∧ SeenWhole loader seen name
  | .rule name found => seen name found

/-- A grammar that is done is reported. -/
private theorem Done.reports {loader : Loader} {report : Resolution}
    {seen : ScopeName → Rule → Prop}
    {scope : ScopeName} (h : (whole scope).Done loader report seen) : report.Reports scope := by
  rcases h with hmissing | ⟨hloaded, -⟩
  · exact Or.inr hmissing
  · exact Or.inl hloaded

/-- All scopes that can be reached from the node are reported. -/
def Safe (loader : Loader) (initial : ScopeName) (report : Resolution) (node : Node) : Prop :=
  ∀ scope, Reaches loader initial node (.scope scope) → report.Reports scope

end Node

/-! ## At the end of a resolution -/

namespace Run

section

variable {loader : Loader} {initial : ScopeName} {run : Run} {seen : ScopeName → Rule → Prop}

/-- What was requested as a whole is done when no layer is left. -/
private theorem Accounts.done_of_requested (h : Accounts loader initial run seen)
    (hend : run.layer = []) {scope : ScopeName} (hscope : scope ∈ run.requested.whole) :
    (Node.whole scope).Done loader run.report seen := by
  rcases h.whole scope hscope with hlayer | hmissing | hreported
  · rw [hend] at hlayer
    cases hlayer
  · exact Or.inl hmissing
  · exact Or.inr (h.whole_seen scope hreported)

/-- The scope of a requested rule is reported when no layer is left. -/
private theorem Accounts.reports_of_requested (h : Accounts loader initial run seen)
    (hend : run.layer = []) {scope : ScopeName} {name : String}
    (hkey : (Dependency.part scope name).key ∈ run.requested.parts) :
    run.report.Reports scope := by
  rcases h.parts scope name hkey with hlayer | hmissing | ⟨hloaded, -⟩
  · rw [hend] at hlayer
    cases hlayer
  · exact Or.inr hmissing
  · exact Or.inl hloaded

/-- A rule that was requested and not scanned by itself belongs to a grammar that was scanned as a
whole. -/
private theorem Accounts.mem_whole_of_covers (h : Accounts loader initial run seen)
    (hend : run.layer = []) {scope : ScopeName} {name : String} {rule : Rule}
    (hrule : loader.rule? scope name = some rule)
    (hcovers : run.requested.Covers (.part scope name))
    (hpart : (Dependency.part scope name).key ∉ run.report.parts) : scope ∈ run.report.whole := by
  -- The grammar has the rule, so the scope is not missing.
  have hpresent : scope ∉ run.report.missing := by
    intro hmissing
    rw [Loader.rule?_eq_none (h.missing scope hmissing)] at hrule
    cases hrule
  -- No layer is left, so what covers the rule is reported.
  rcases hcovers with hwhole | hkey
  · rcases h.whole scope hwhole with hlayer | hmissing | hreported
    · rw [hend] at hlayer
      cases hlayer
    · exact absurd hmissing hpresent
    · exact hreported
  · rcases h.parts scope name hkey with hlayer | hmissing | ⟨-, hscanned⟩
    · rw [hend] at hlayer
      cases hlayer
    · exact absurd hmissing hpresent
    · exact absurd hscanned hpart

/-- What a seen rule includes is done when no layer is left, or it is a dropped rule. -/
private theorem Accounts.done_of_leadsTo (h : Accounts loader initial run seen)
    (hend : run.layer = []) {scope : ScopeName} {rule : Rule} (hseen : seen scope rule)
    (hreach : Reaches loader initial (.whole initial) (.rule scope rule)) {target : Include}
    (htarget : rule.include? = some target) {node : Node}
    (hleads : target.LeadsTo loader initial scope node) :
    node.Done loader run.report seen ∨
      ∃ other dropped, node = .rule other dropped ∧
        Dropped loader initial run.report other dropped := by
  -- What the include leads to was seen already, or it was requested and is reported by now.
  have hmet := h.met scope rule hseen target htarget
  have hinitial := h.done_of_requested hend h.mem_whole
  cases hleads with
  | base => exact Or.inl hinitial
  | self => exact Or.inl (Or.inr ⟨h.seen_loaded scope rule hseen, hmet⟩)
  | rule hrule => exact Or.inl (hmet _ hrule)
  | grammar hscope =>
    rcases hmet _ hscope with ⟨rfl | rfl, hwhole⟩ | hasked
    · exact Or.inl (Or.inr ⟨h.seen_loaded _ rule hseen, hwhole⟩)
    · exact Or.inl hinitial
    · exact Or.inl (h.done_of_requested hend hasked)
  | scope hscope =>
    refine Or.inl ?_
    rcases hmet _ hscope with ⟨rfl | rfl, -⟩ | ⟨-, -, hwhole | hpart⟩
    · exact Or.inl (h.seen_loaded _ rule hseen)
    · exact hinitial.reports
    · exact (h.done_of_requested hend hwhole).reports
    · exact h.reports_of_requested hend hpart
  | grammarRule hscope hrule =>
    rename_i text name other dropped
    rcases hmet _ hscope with ⟨-, hfound⟩ | ⟨hne, hinitial, hasked⟩
    · exact Or.inl (hfound _ hrule)
    · by_cases hpart : (Dependency.part other name).key ∈ run.report.parts
      · exact Or.inl (h.parts_seen other name hpart dropped hrule)
      · -- The rule was not scanned by itself, so its grammar was scanned as a whole.
        refine Or.inr ⟨other, dropped, rfl, ?_, hinitial, ?_⟩
        · exact ⟨scope, rule, text, name, hreach, htarget, hscope, hrule, hne, hpart⟩
        · exact h.mem_whole_of_covers hend hrule hasked hpart

/-- A node that can be reached is done, or it lies behind a dropped rule and is safe if that is. -/
theorem Accounts.done_or_safe (h : Accounts loader initial run seen) (hend : run.layer = [])
    (hdropped : ∀ scope rule, Dropped loader initial run.report scope rule →
      (Node.rule scope rule).Safe loader initial run.report) {node : Node}
    (hreach : Reaches loader initial (.whole initial) node) :
    node.Done loader run.report seen ∨ node.Safe loader initial run.report := by
  -- The induction is on the way to the node. What lies behind a safe node is safe.
  induction hreach with
  | refl => exact Or.inl (h.done_of_requested hend h.mem_whole)
  | tail hbefore hlink ih =>
    rcases ih with hdone | hsafe
    · cases hlink with
      | scope scope => exact Or.inl hdone.reports
      | top hrule =>
        rcases hdone with hmissing | ⟨-, hwhole⟩
        · rw [Loader.topRules_eq_nil (h.missing _ hmissing)] at hrule
          cases hrule
        · exact Or.inl (hwhole _ hrule)
      -- Injected scopes are requested with the scope into which they are injected.
      | injected hother =>
        rcases hdone with hloaded | hmissing
        · exact Or.inl (h.done_of_requested hend (h.injected _ hloaded _ hother))
        · rw [Loader.injected_eq_nil (h.missing _ hmissing)] at hother
          cases hother
      | inner hinner => exact Or.inl (h.seen_inner _ _ hdone _ hinner)
      | target htarget hleads =>
        rcases h.done_of_leadsTo hend hdone hbefore htarget hleads with
          hnode | ⟨other, dropped, rfl, hdrop⟩
        · exact Or.inl hnode
        · exact Or.inr (hdropped other dropped hdrop)
    · exact Or.inr fun scope hscope => hsafe scope (hscope.head hlink)

end

end Run

/-! ## Reports that are complete -/

/-- A dropped rule can be reached. -/
private theorem Dropped.reaches {loader : Loader} {initial scope : ScopeName} {report : Resolution}
    {rule : Rule} (h : Dropped loader initial report scope rule) :
    Reaches loader initial (.whole initial) (.rule scope rule) := by
  obtain ⟨current, asking, text, name, hreach, htarget, hscope, hrule, -, -⟩ := h.included
  exact hreach.tail (.target htarget (.grammarRule hscope hrule))

/-- What a resolution on a fresh registry reports is complete exactly when all that can be reached
from its dropped rules is reported. -/
theorem complete_iff {loader : Loader} (hl : loader.Honest) (hflat : loader.IsFlat) {limit : Nat}
    {engine : Engine} {initial : ScopeName} {report : Resolution}
    (h : ((Registry.empty loader limit engine).resolve initial).1 = some (.ok report)) :
    (∀ scope, Reaches loader initial (.whole initial) (.scope scope) → report.Reports scope) ↔
      ∀ scope rule, Dropped loader initial report scope rule →
        ∀ other, Reaches loader initial (.rule scope rule) (.scope other) →
          report.Reports other := by
  have hturns := Library.turns_resolve hl (Library.reflects_empty loader engine) limit h
  -- The accounts hold behind every layer, and at the end no layer is left.
  obtain ⟨last, ⟨seen, haccounts⟩, hend, rfl⟩ := Progress.exists_of_turns_ok
    (fun run => ∃ seen, Run.Accounts loader initial run seen)
    ⟨_, Run.accounts_start loader initial⟩
    (fun store run after ⟨seen, hseen⟩ hagrees _ hnext => hseen.next hl hflat hagrees hnext) hturns
  constructor
  · intro hcomplete scope rule hdrop other hother
    exact hcomplete other (hdrop.reaches.trans hother)
  · intro hdropped scope hscope
    rcases haccounts.done_or_safe hend hdropped hscope with hdone | hsafe
    · exact hdone
    · exact hsafe scope .refl

/-! ## A dropped rule with which something is lost -/

namespace DroppedRule

/-- The scope that includes the second one as a whole, and then its rule. -/
def first : ScopeName := ⟨"source.first", by decide, by simp, by simp; decide⟩

/-- The scope with a rule that nothing at its top level leads to. -/
def second : ScopeName := ⟨"source.second", by decide, by simp, by simp; decide⟩

/-- The scope that the rule includes. -/
def third : ScopeName := ⟨"source.third", by decide, by simp, by simp; decide⟩

def firstGrammar : Grammar :=
  ((Grammar.empty first).addPattern (.including "source.second")).addPattern
    (.including "source.second#rule")

def secondGrammar : Grammar :=
  (Grammar.empty second).setRule "rule" (.including "source.third")

def loader : Loader :=
  .ofGrammars [firstGrammar, secondGrammar, .empty third] []

/-- What a resolution of the first scope reports. -/
def report : Resolution :=
  ⟨some first, 2, [first, second], [first, second], [], []⟩

/-- The rules of the three grammars only include. -/
private theorem loader_isFlat : loader.IsFlat := by
  refine Loader.isFlat_ofGrammars (fun grammar h => Grammar.isFlat_of_including ?_) []
  intro rule hrule
  simp only [List.mem_cons, List.not_mem_nil, or_false] at h
  rcases h with rfl | rfl | rfl
  · rcases List.mem_cons.1 hrule with rfl | hrest
    · exact ⟨_, rfl⟩
    · exact ⟨_, List.mem_singleton.1 hrest⟩
  · exact ⟨_, List.mem_singleton.1 hrule⟩
  · cases hrule

/-- The resolution succeeds, without the third scope. -/
private theorem resolve_first (engine : Engine) :
    ((Registry.empty loader 20 engine).resolve first).1 = some (.ok report) := by
  cbv

/-- The dropped rule can be reached, and it leads to the third scope. -/
private theorem reaches_third : Reaches loader first (.whole first) (.scope third) := by
  -- The way leads over the second include of the first grammar.
  have htop : loader.topRules first =
      [.including "source.second", .including "source.second#rule"] := by rfl
  have hrule : loader.rule? second "rule" = some (.including "source.third") := by rfl
  have hasking : (Rule.including "source.second#rule").include? =
      some (.grammarRule "source.second" "rule") := by rfl
  have hdropped : (Rule.including "source.third").include? = some (.grammar "source.third") := by
    rfl
  have hsecond : ScopeName.ofString? "source.second" = some second := by rfl
  have hthird : ScopeName.ofString? "source.third" = some third := by rfl
  have hmem : Rule.including "source.second#rule" ∈ loader.topRules first := by simp [htop]
  have hrulereached : Reaches loader first (.whole first)
      (.rule second (.including "source.third")) :=
    .tail (.tail .refl (.top hmem)) (.target hasking (.grammarRule hsecond hrule))
  exact .tail (.tail hrulereached (.target hdropped (.grammar hthird))) (.scope third)

/-- The third scope is neither loaded nor missing. -/
private theorem not_reports_third : ¬ report.Reports third := by
  rintro (hloaded | hmissing)
  · exact absurd hloaded (by decide)
  · cases hmissing

end DroppedRule

open DroppedRule in
/-- Something is lost with a dropped rule of the second scope, so the resolution of the first one is
not complete. -/
theorem dropped_rule_loses : loader.Honest ∧ loader.IsFlat ∧
    ((Registry.empty loader 20 .none).resolve first).1 = some (.ok report) ∧
    ∃ scope rule other, Dropped loader first report scope rule ∧
      Reaches loader first (.rule scope rule) (.scope other) ∧ ¬ report.Reports other := by
  have hhonest := Loader.honest_ofGrammars [firstGrammar, secondGrammar, .empty third] []
  have hresolve := resolve_first .none
  refine ⟨hhonest, loader_isFlat, hresolve, Classical.byContradiction fun hnone => ?_⟩
  refine not_reports_third ((complete_iff hhonest loader_isFlat hresolve).2 ?_ third reaches_third)
  intro scope rule hdrop other hother
  exact Classical.byContradiction fun hlost => hnone ⟨scope, rule, other, hdrop, hother, hlost⟩

open DroppedRule in
/-- A resolution that succeeds, with a loader that never fails, can leave out a scope that can be
reached. -/
theorem not_complete :
    ¬ ∀ (loader : Loader) (limit : Nat) (engine : Engine) (initial : ScopeName)
        (report : Resolution), loader.Honest → loader.IsFlat →
      (∀ scope cause, loader.answer scope ≠ .failure cause) →
      ((Registry.empty loader limit engine).resolve initial).1 = some (.ok report) →
      ∀ scope, Reaches loader initial (.whole initial) (.scope scope) → report.Reports scope := by
  intro h
  refine not_reports_third (h loader 20 .none first report (Loader.honest_ofGrammars _ _)
    loader_isFlat ?_ (resolve_first _) third reaches_third)
  -- A loader that is made of grammars has a grammar for a scope or nothing.
  intro scope cause hfailure
  simp only [loader, Loader.ofGrammars] at hfailure
  split at hfailure
  · cases hfailure
  · cases hfailure

end Textmate
