import Mathlib.Data.List.Permutation
import Textmate.Proofs.Collector.Closed
import Textmate.Proofs.Collector.Records

/-!
# Several scans with one collector

A collector visits every rule once, whichever scan comes to it first and between whichever
repositories. A later scan goes by the rules that were visited, so it can miss what they would have
included between its own repositories. Nothing is missed when every rule includes the same rules
wherever the scans come to it: the collector then has exactly what the rules ask for to which any of
the scans comes, and so what each scan finds with a collector of its own.

## Key results

- `Scan.ComesTo`: where a scan comes when it goes on from every rule in every context
- `Complete.scan`: what a further scan adds
- `mem_dependencies_iff`: what several scans find with one collector
- `scanAll_eq_union`: the same is found with a collector for each scan
-/

namespace Textmate

/-! ## Where scans come -/

/-- What a collector is to scan: a whole grammar, or one rule of its repository. -/
inductive Scan where
  | whole (definition : Definition)
  | rule (definition : Definition) (name : String)

namespace Scan

def definition : Scan → Definition
  | whole definition => definition
  | rule definition _ => definition

/-- The rules with which the scan starts. -/
def sites (base : Definition) : Scan → List Site
  | whole definition => definition.top
  | rule definition name => (Context.atTop base definition).lookup name

/-- The grammars between which the scan goes. -/
def Between (base : Definition) (scan : Scan) (definition : Definition) : Prop :=
  definition = base ∨ definition = scan.definition

/-- The scan comes to a rule in a context when it goes on from every rule in every context in which
it comes to it, whether or not it has been there. -/
inductive ComesTo (base : Definition) (scan : Scan) : Site → Context → Prop
  | start {site : Site} (h : site ∈ scan.sites base) :
    ComesTo base scan site (.atTop base scan.definition)
  | inner {site inner : Site} {context : Context} (h : ComesTo base scan site context)
    (hinner : inner ∈ site.patterns ++ site.captures) :
    ComesTo base scan inner (context.inside site)
  | included {site found : Site} {context other : Context} {target : Include} {sites : List Site}
    (h : ComesTo base scan site context) (hinclude : site.rule.include? = some target)
    (hfollow : (context.inside site).follow target = .rules sites other) (hfound : found ∈ sites) :
    ComesTo base scan found other

variable {base : Definition} {scan : Scan} {site : Site} {context : Context}

/-- A scan starts with rules of its grammar. -/
theorem owns_of_mem_sites (h : site ∈ scan.sites base) : scan.definition.Owns site := by
  cases scan with
  | whole definition => exact Definition.owns_of_mem_top h
  | rule definition name => exact Context.owns_of_mem_lookup h

/-- A scan comes to rules of its grammar and the base only. -/
private theorem ComesTo.sound (h : scan.ComesTo base site context) :
    (WalkTask.visit site context).Sound base (scan.Between base) := by
  induction h with
  | start hsite => exact ⟨Context.sound_atTop (Or.inr rfl), owns_of_mem_sites hsite⟩
  | inner _ hinner ih =>
    obtain ⟨hsound, howns⟩ := ih
    exact ⟨hsound.inside howns, (Context.current_inside _ _).symm ▸ howns.inner hinner⟩
  | included _ _ hfollow hfound ih =>
    -- An include leads to rules of the context that it is followed into.
    rename_i target _ _ _
    obtain ⟨hsound, howns⟩ := ih
    have htarget := Context.Sound.follow (Or.inl rfl) (hsound.inside howns) target
    rw [hfollow] at htarget
    exact ⟨htarget.1, htarget.2 _ hfound⟩

end Scan

/-- The task is to visit a rule to which the scan comes, or to follow what such a rule includes. -/
def WalkTask.OnWay (base : Definition) (scan : Scan) : WalkTask → Prop
  | visit site context => scan.ComesTo base site context
  | follow target context => ∃ site outer, scan.ComesTo base site outer ∧
    context = outer.inside site ∧ site.rule.include? = some target

/-- The tasks of a scan stay in its grammar and the base. -/
private theorem WalkTask.OnWay.sound {base : Definition} {scan : Scan} {task : WalkTask}
    (h : task.OnWay base scan) : task.Sound base (scan.Between base) := by
  cases task with
  | visit site context => exact Scan.ComesTo.sound h
  | follow target context =>
    obtain ⟨site, outer, hcomes, rfl, -⟩ := h
    exact hcomes.sound.1.inside hcomes.sound.2

/-- What such a task leads to are again tasks of the scan. -/
private theorem inherited_onWay (base : Definition) (scan : Scan) :
    WalkTask.Inherited (WalkTask.OnWay base scan) where
  ofVisit := by
    intro site context hcomes task htask
    -- Rules inside a rule are come to from it, and its include waits to be followed.
    rcases List.mem_append.1 htask with hvisit | hfollow
    · obtain ⟨inner, hinner, rfl⟩ := List.mem_map.1 hvisit
      exact Scan.ComesTo.inner hcomes hinner
    · obtain ⟨target, htarget, rfl⟩ := Option.map_eq_some_iff.1 (Option.mem_toList.1 hfollow)
      exact ⟨site, context, hcomes, rfl, htarget⟩
  visits := by
    rintro target context sites other ⟨site, outer, hcomes, rfl, hinclude⟩ hfollow task htask
    obtain ⟨found, hfound, rfl⟩ := List.mem_map.1 htask
    exact Scan.ComesTo.included hcomes hinclude hfollow hfound

/-! ## Scans that agree -/

/-- The rules to which an include leads inside the grammar or the base. -/
def Context.entered (context : Context) (target : Include) : List Site :=
  match context.follow target with
  | .rules sites _ => sites
  | .scope _ => []

/-- The base and the grammars of the scans are different objects, unless they are the same. -/
def Distinct (base : Definition) (scans : List Scan) : Prop :=
  ∀ first ∈ base :: scans.map (·.definition), ∀ second ∈ base :: scans.map (·.definition),
    first.origin = second.origin → first = second

/-- Every rule includes the same rules wherever the scans come to it. -/
def Unambiguous (base : Definition) (scans : List Scan) : Prop :=
  ∀ first ∈ scans, ∀ second ∈ scans, ∀ site context other target,
    first.ComesTo base site context → second.ComesTo base site other →
    site.rule.include? = some target →
    (context.inside site).entered target = (other.inside site).entered target

section

variable {base : Definition} {scans : List Scan}

/-- Fewer scans go between fewer grammars. -/
private theorem Distinct.mono {fewer : List Scan} (h : Distinct base scans)
    (hsubset : fewer ⊆ scans) :
    Distinct base fewer := by
  have hmem : base :: fewer.map (·.definition) ⊆ base :: scans.map (·.definition) :=
    List.cons_subset_cons _ (List.map_subset _ hsubset)
  exact fun first hfirst second hsecond => h first (hmem hfirst) second (hmem hsecond)

/-- Fewer scans leave less to disagree on. -/
private theorem Unambiguous.mono {fewer : List Scan} (h : Unambiguous base scans)
    (hsubset : fewer ⊆ scans) : Unambiguous base fewer :=
  fun first hfirst second hsecond => h first (hsubset hfirst) second (hsubset hsecond)

/-- The grammars between which a scan goes are among those of all scans. -/
private theorem Scan.Between.mem {scan : Scan} {definition : Definition}
    (h : scan.Between base definition) (hscan : scan ∈ scans) :
    definition ∈ base :: scans.map (·.definition) := by
  rcases h with rfl | rfl
  · exact List.mem_cons_self
  · exact List.mem_cons_of_mem _ (List.mem_map_of_mem hscan)

/-- A place has one rule among all those to which the scans come, and one grammar to which the rule
belongs. -/
private theorem Scan.ComesTo.eq_of_place (hdistinct : Distinct base scans) {first second : Scan}
    (hfirst : first ∈ scans) (hsecond : second ∈ scans) {site other : Site}
    {context around : Context} (h : first.ComesTo base site context)
    (h' : second.ComesTo base other around) (hplace : site.place = other.place) :
    context.current = around.current ∧ site = other := by
  obtain ⟨hsound, howns⟩ := h.sound
  obtain ⟨hsound', howns'⟩ := h'.sound
  -- The place tells the scope and the number of the definition.
  have horigin : context.current.origin = around.current.origin := by
    have hscope := howns.scope_eq.symm.trans ((congrArg Place.scope hplace).trans howns'.scope_eq)
    have hserial :=
      howns.serial_eq.symm.trans ((congrArg Place.serial hplace).trans howns'.serial_eq)
    exact congrArg₂ (Place.mk · · []) hscope hserial
  have heq : context.current = around.current :=
    hdistinct _ (hsound.known.mem hfirst) _ (hsound'.known.mem hsecond) horigin
  exact ⟨heq, howns.eq (heq ▸ howns') hplace⟩

/-- In flat grammars every rule includes the same rules wherever the scans come to it. -/
theorem unambiguous_of_isFlat (hdistinct : Distinct base scans) (hbase : base.grammar.IsFlat)
    (hscans : ∀ scan ∈ scans, scan.definition.grammar.IsFlat) : Unambiguous base scans := by
  -- A scan of flat grammars is always between the repositories at the top level.
  have hinside {scan : Scan} (hscan : scan ∈ scans) {site : Site} {context : Context}
      (h : scan.ComesTo base site context) (htop : context = .atTop base context.current) :
      context.inside site = .atTop base context.current := by
    obtain ⟨hsound, howns⟩ := h.sound
    have hflat : context.current.grammar.IsFlat := by
      rcases hsound.known with heq | heq
      · exact heq ▸ hbase
      · exact heq ▸ hscans scan hscan
    rw [Context.inside, howns.repository?_eq_none hflat]
    exact htop
  have htop {scan : Scan} (hscan : scan ∈ scans) {site : Site} {context : Context}
      (h : scan.ComesTo base site context) : context = .atTop base context.current := by
    induction h with
    | start => rfl
    | inner h _ ih =>
      rw [Context.current_inside]
      exact hinside hscan h ih
    | included h _ hfollow _ ih =>
      rw [hinside hscan h ih] at hfollow
      obtain ⟨found, -, rfl, -⟩ := Context.owns_of_follow_atTop hfollow
      rfl
  -- Both contexts are top levels of the grammar of the rule, which is the same in both.
  intro first hfirst second hsecond site context other target h h' _
  have heq := (h.eq_of_place hdistinct hfirst hsecond h' rfl).1
  rw [hinside hfirst h (htop hfirst h), hinside hsecond h' (htop hsecond h'), heq]

end

/-! ## What one collector has -/

/-- Where a task of known grammars leads is seen when all rules of these are that were seen
before. -/
private theorem WalkTask.Covered.imp_sound {seen later : Place → Prop}
    {before after : List Dependency} {task : WalkTask} {base : Definition}
    {Known : Definition → Prop} (h : task.Covered seen before) (hsound : task.Sound base Known)
    (hbase : Known base)
    (hseen : ∀ definition site, Known definition → definition.Owns site → seen site.place →
      later site.place) (hnoted : before ⊆ after) : task.Covered later after := by
  cases task with
  | visit site context => exact hseen context.current site hsound.1.known hsound.2 h
  | follow target context =>
    -- An include leads to rules of known grammars, so that seeing them is kept.
    have htarget := Context.Sound.follow hbase hsound target
    simp only [Covered] at h ⊢
    split
    · rename_i sites inner hfollow
      rw [hfollow] at h htarget
      exact fun site hsite =>
        hseen inner.current site htarget.1.known (htarget.2 site hsite) (h site hsite)
    · rename_i dependency hfollow
      rw [hfollow] at h
      exact hnoted h

namespace Collector

/-- Does a scan. -/
def scan (base : Definition) (collector : Collector) : Scan → Collector
  | .whole definition => collector.collectAll base definition
  | .rule definition name => collector.collectRule base definition name

/-- Does scans one after another. -/
def scanAll (base : Definition) (collector : Collector) (scans : List Scan) : Collector :=
  scans.foldl (Collector.scan base) collector

/-- Both kinds of scan are one walk from their rules. -/
theorem scan_eq_collect (base : Definition) (collector : Collector) (scan : Scan) :
    collector.scan base scan = collector.collect base scan.definition (scan.sites base) := by
  cases scan <;> rfl

/-- The collector has done scans and nothing else. -/
structure Complete (collector : Collector) (base : Definition) (scans : List Scan) : Prop where
  /-- The rules were visited with which the scans start. -/
  started : ∀ scan ∈ scans, ∀ site ∈ scan.sites base, site.place ∈ collector.visited
  /-- Every visited rule is one to which a scan comes, and what the rule leads to in some context in
  which the scan comes to it was visited or noted. -/
  expanded : ∀ place ∈ collector.visited, ∃ scan ∈ scans, ∃ site context, site.place = place ∧
    scan.ComesTo base site context ∧ ∀ task ∈ WalkTask.ofVisit site context,
      task.Covered (· ∈ collector.visited) collector.dependencies
  /-- The dependencies are what the visited rules ask for. -/
  recorded : ∃ rules : List Site,
    (∀ site ∈ rules, ∃ scan ∈ scans, ∃ context, scan.ComesTo base site context) ∧
    collector.visited = rules.map (·.place) ∧
    collector.dependencies.Perm (rules.filterMap (·.asks base.grammar.scope))

section

variable {base : Definition} {scans : List Scan} {collector : Collector}

/-- A new collector has done no scan. -/
private theorem complete_empty (base : Definition) : empty.Complete base [] where
  started := fun _ h => nomatch h
  expanded := fun _ h => nomatch h
  recorded := ⟨[], List.forall_mem_nil _, rfl, .nil⟩

/-- What a walk of a scan has seen the collector has visited. -/
private theorem covered_scan {scan : Scan}
    (horigin : base.origin = scan.definition.origin → base = scan.definition) {task : WalkTask}
    (hway : task.OnWay base scan)
    (h : task.Covered ((walk (collector.fresh base scan.definition)
        (WalkTask.visits (scan.sites base) (.atTop base scan.definition))).Seen
          (collector.fresh base scan.definition))
      (walk (collector.fresh base scan.definition)
        (WalkTask.visits (scan.sites base) (.atTop base scan.definition))).dependencies) :
    task.Covered (· ∈ (collector.scan base scan).visited)
      (collector.scan base scan).dependencies := by
  rw [scan_eq_collect]
  refine h.imp_sound hway.sound (Or.inl rfl) (fun definition site hbetween howns hseen => ?_)
    (List.subset_append_right _ _)
  -- What is not fresh the collector had visited before the scan.
  rcases hseen with hvisited | hfresh
  · exact List.mem_append_right _ hvisited
  · exact List.mem_append_left _ (mem_visited_of_not_mem_fresh horigin hbetween howns hfresh)

/-- A further scan adds the rules to which it comes, apart from those behind visited rules. -/
theorem Complete.scan (h : collector.Complete base scans) {scan : Scan}
    (horigin : base.origin = scan.definition.origin → base = scan.definition) :
    (collector.scan base scan).Complete base (scans ++ [scan]) := by
  have hvisited : collector.visited ⊆ (collector.scan base scan).visited := by
    rw [scan_eq_collect]
    exact List.subset_append_left _ _
  have hnoted : collector.dependencies ⊆ (collector.scan base scan).dependencies := by
    rw [scan_eq_collect]
    exact List.subset_append_left _ _
  have hnew : scan ∈ scans ++ [scan] := List.mem_append_right _ (List.mem_singleton_self scan)
  have hway : ∀ task ∈ WalkTask.visits (scan.sites base) (.atTop base scan.definition),
      task.OnWay base scan := by
    intro task htask
    obtain ⟨site, hsite, rfl⟩ := List.mem_map.1 htask
    exact Scan.ComesTo.start hsite
  refine ⟨fun other hother site hsite => ?_, fun place hplace => ?_, ?_⟩
  · rcases List.mem_append.1 hother with hbefore | hnow
    · exact hvisited (h.started other hbefore site hsite)
    · -- The walk covers its tasks, and this is one of them.
      rw [List.mem_singleton.1 hnow] at hsite
      have htask : WalkTask.visit site (.atTop base scan.definition) ∈
          WalkTask.visits (scan.sites base) (.atTop base scan.definition) :=
        List.mem_map_of_mem hsite
      exact covered_scan horigin (hway _ htask) (covered_walk _ _ _ htask)
  · rw [scan_eq_collect] at hplace
    rcases List.mem_append.1 hplace with hbefore | hnow
    · -- Visited by an earlier scan, whose findings are kept.
      obtain ⟨other, hother, site, context, hsite, hcomes, htasks⟩ := h.expanded place hbefore
      exact ⟨other, List.mem_append_left _ hother, site, context, hsite, hcomes,
        fun task htask => (htasks task htask).mono (fun _ hseen => hvisited hseen) hnoted⟩
    · -- Visited by this scan, which has done what the rule leads to.
      obtain ⟨site, context, hsite, hcomes, htasks⟩ := exists_of_mem_visited
        (inherited_onWay base scan) (collector.fresh base scan.definition) _ hway place hnow
      refine ⟨scan, hnew, site, context, hsite, hcomes, fun task htask => ?_⟩
      have hway := (inherited_onWay base scan).ofVisit site context hcomes task htask
      exact covered_scan horigin hway (htasks task htask)
  · obtain ⟨rules, hrules, hplaces, hperm⟩ := h.recorded
    -- What the walk records comes behind what was recorded before.
    obtain ⟨found, hfound, hrecord⟩ := records_walk (inherited_onWay base scan)
      (fun _ => WalkTask.OnWay.sound) (collector.fresh base scan.definition) _ hway
    have hnow := hrecord.perm
    rw [WalkTask.filterMap_noted?_visits, List.nil_append] at hnow
    refine ⟨rules ++ found, fun site hsite => ?_, ?_, ?_⟩
    · rcases List.mem_append.1 hsite with hbefore | hlater
      · obtain ⟨other, hother, hcomes⟩ := hrules site hbefore
        exact ⟨other, List.mem_append_left _ hother, hcomes⟩
      · exact ⟨scan, hnew, hfound site hlater⟩
    · rw [scan_eq_collect, List.map_append]
      exact congrArg₂ (· ++ ·) hplaces hrecord.visited_eq
    · rw [scan_eq_collect, List.filterMap_append]
      exact hperm.append hnow

/-- After further scans the collector has done them too, and nothing else. -/
private theorem Complete.scanAll (h : collector.Complete base scans) {later : List Scan}
    (horigin : ∀ scan ∈ later, base.origin = scan.definition.origin → base = scan.definition) :
    (collector.scanAll base later).Complete base (scans ++ later) := by
  induction later generalizing collector scans with
  | nil => rwa [List.append_nil]
  | cons scan later ih =>
    have hrest := ih (h.scan (horigin scan List.mem_cons_self)) fun other hother =>
      horigin other (List.mem_cons_of_mem _ hother)
    rwa [List.append_assoc, List.singleton_append] at hrest

/-- When the scans agree, all rules were visited to which they come. -/
private theorem Complete.mem_visited (h : collector.Complete base scans)
    (hdistinct : Distinct base scans)
    (hagree : Unambiguous base scans) {scan : Scan} (hscan : scan ∈ scans) {site : Site}
    {context : Context} (hcomes : scan.ComesTo base site context) :
    site.place ∈ collector.visited := by
  -- A visited rule was expanded in some context, in which it includes the same as in any other one.
  induction hcomes with
  | start hsite => exact h.started scan hscan _ hsite
  | inner hcomes hinner ih =>
    obtain ⟨other, hother, found, around, hplace, hfound, htasks⟩ := h.expanded _ ih
    obtain ⟨-, rfl⟩ := hfound.eq_of_place hdistinct hother hscan hcomes hplace
    exact htasks (.visit _ _) (List.mem_append_left _ (List.mem_map_of_mem hinner))
  | included hcomes hinclude hfollow hmem ih =>
    rename_i site inner context next target sites
    -- The include was followed in the context `around`, which may be another one.
    obtain ⟨other, hother, found, around, hplace, hfound, htasks⟩ := h.expanded _ ih
    obtain ⟨-, rfl⟩ := hfound.eq_of_place hdistinct hother hscan hcomes hplace
    have hentered : inner ∈ (around.inside found).entered target := by
      rw [hagree other hother scan hscan found around context target hfound hcomes hinclude,
        Context.entered, hfollow]
      exact hmem
    have htask : WalkTask.follow target (around.inside found) ∈ WalkTask.ofVisit found around := by
      rw [Rule.include?] at hinclude
      exact List.mem_append_right _ (by rw [hinclude]; simp)
    have hcovered := htasks _ htask
    unfold Context.entered at hentered
    simp only [WalkTask.Covered] at hcovered
    split at hentered
    · rename_i entered _ hrules
      rw [hrules] at hcovered
      exact hcovered inner hentered
    · cases hentered

/-- What several scans find with one collector, when they agree: what the rules ask for to which any
of them comes. -/
theorem mem_dependencies_iff (hdistinct : Distinct base scans) (hagree : Unambiguous base scans)
    {dependency : Dependency} :
    dependency ∈ (empty.scanAll base scans).dependencies ↔
      ∃ scan ∈ scans, ∃ site context, scan.ComesTo base site context ∧
        site.asks base.grammar.scope = some dependency := by
  have hcomplete : (empty.scanAll base scans).Complete base scans :=
    (complete_empty base).scanAll fun scan hscan =>
      hdistinct _ List.mem_cons_self _ (List.mem_cons_of_mem _ (List.mem_map_of_mem hscan))
  obtain ⟨rules, hrules, hplaces, hperm⟩ := hcomplete.recorded
  rw [hperm.mem_iff, List.mem_filterMap]
  constructor
  · rintro ⟨site, hsite, hasks⟩
    obtain ⟨scan, hscan, context, hcomes⟩ := hrules site hsite
    exact ⟨scan, hscan, site, context, hcomes, hasks⟩
  · rintro ⟨scan, hscan, site, context, hcomes, hasks⟩
    -- The rule was visited, and its place has no other rule.
    have hvisited := hcomplete.mem_visited hdistinct hagree hscan hcomes
    rw [hplaces] at hvisited
    obtain ⟨found, hfound, hplace⟩ := List.mem_map.1 hvisited
    obtain ⟨other, hother, around, hcomes'⟩ := hrules found hfound
    obtain ⟨-, rfl⟩ := hcomes'.eq_of_place hdistinct hother hscan hcomes hplace
    exact ⟨found, hfound, hasks⟩

/-- When the scans agree, one collector finds in all of them what each of them finds with a
collector of its own, in whatever order they are done. -/
theorem scanAll_eq_union (hdistinct : Distinct base scans) (hagree : Unambiguous base scans) :
    (∀ dependency, dependency ∈ (empty.scanAll base scans).dependencies ↔
      ∃ scan ∈ scans, dependency ∈ (empty.scan base scan).dependencies) ∧
    ∀ other, other.Perm scans → ∀ dependency,
      dependency ∈ (empty.scanAll base other).dependencies ↔
        dependency ∈ (empty.scanAll base scans).dependencies := by
  refine ⟨fun dependency => ?_, fun other hperm dependency => ?_⟩
  · -- A scan with a collector of its own is a list of one scan.
    have halone (scan : Scan) (hscan : scan ∈ scans) :
        dependency ∈ (empty.scan base scan).dependencies ↔
          ∃ site context, scan.ComesTo base site context ∧
            site.asks base.grammar.scope = some dependency := by
      have hsubset : [scan] ⊆ scans := List.cons_subset.2 ⟨hscan, List.nil_subset _⟩
      have hone : dependency ∈ (empty.scanAll base [scan]).dependencies ↔ _ :=
        mem_dependencies_iff (hdistinct.mono hsubset) (hagree.mono hsubset)
      simp only [List.mem_singleton, exists_eq_left] at hone
      exact hone
    rw [mem_dependencies_iff hdistinct hagree]
    exact exists_congr fun scan => and_congr_right fun hscan => (halone scan hscan).symm
  · rw [mem_dependencies_iff hdistinct hagree,
      mem_dependencies_iff (hdistinct.mono hperm.subset) (hagree.mono hperm.subset)]
    exact exists_congr fun scan => and_congr_left fun _ => hperm.mem_iff

end

/-! ## Rules with repositories of their own -/

namespace Nested

def a : ScopeName := ⟨"source.a", by decide, by simp, by simp; decide⟩

def x : ScopeName := ⟨"source.x", by decide, by simp, by simp; decide⟩

def y : ScopeName := ⟨"source.y", by decide, by simp, by simp; decide⟩

/-- A rule that includes a rule of the grammar and has an item of its own for it. -/
def including (name scope : String) : Rule :=
  { Rule.including name with repository := some [("item", .including scope)] }

/-- One of the two rules has an item of its own, with the name of the other. -/
def shadowing : Definition :=
  ⟨0, ((Grammar.empty a).setRule "block" (including "#item" "source.x")).setRule "item"
    (.including "source.y")⟩

def block : Site := ⟨⟨a, 0, [.named 0]⟩, including "#item" "source.x"⟩

def item : Site := ⟨⟨a, 0, [.named 1]⟩, .including "source.y"⟩

def ownItem : Site := ⟨⟨a, 0, [.named 0, .named 0]⟩, .including "source.x"⟩

def top : Context := .atTop shadowing shadowing

/-- To the item inside the block a scan only comes through the block, and to the other one only
past it. -/
private theorem comesTo_shadowing {name : String} (hname : name = "block" ∨ name = "item")
    {site : Site} {context : Context}
    (h : (Scan.rule shadowing name).ComesTo shadowing site context) :
    (site, context) ∈ [(block, top), (ownItem, top.inside block), (item, top)] := by
  simp only [List.mem_cons, Prod.mk.injEq, List.not_mem_nil, or_false]
  have hblock : block.rule.include? = some (.rule "item") ∧
      (top.inside block).follow (.rule "item") = .rules [ownItem] (top.inside block) :=
    ⟨by rfl, rfl⟩
  have hown : ownItem.rule.include? = some (.grammar "source.x") ∧
      ((top.inside block).inside ownItem).follow (.grammar "source.x") = .scope (.whole x) :=
    ⟨by rfl, by rfl⟩
  have hitem : item.rule.include? = some (.grammar "source.y") ∧
      (top.inside item).follow (.grammar "source.y") = .scope (.whole y) :=
    ⟨by rfl, by rfl⟩
  induction h with
  | start hsite =>
    -- A scan starts at one of the two named rules at the top.
    rcases hname with rfl | rfl
    · exact Or.inl ⟨List.mem_singleton.1 hsite, rfl⟩
    · exact Or.inr (Or.inr ⟨List.mem_singleton.1 hsite, rfl⟩)
  | inner _ hinner ih =>
    -- None of the three rules has rules inside it that are no named ones.
    rcases ih with ⟨rfl, rfl⟩ | ⟨rfl, rfl⟩ | ⟨rfl, rfl⟩ <;> cases hinner
  | included _ hinclude hfollow hfound ih =>
    -- The include of the block stays in the grammar, and those of the items leave it.
    rcases ih with ⟨rfl, rfl⟩ | ⟨rfl, rfl⟩ | ⟨rfl, rfl⟩
    · cases hblock.1.symm.trans hinclude
      cases hblock.2.symm.trans hfollow
      exact Or.inr (Or.inl ⟨List.mem_singleton.1 hfound, rfl⟩)
    · cases hown.1.symm.trans hinclude
      cases hown.2.symm.trans hfollow
    · cases hitem.1.symm.trans hinclude
      cases hitem.2.symm.trans hfollow

/-- Both scans come to the same rules in the same contexts. -/
private theorem unambiguous_shadowing :
    Unambiguous shadowing [.rule shadowing "block", .rule shadowing "item"] := by
  have hname (scan : Scan) (h : scan ∈ [.rule shadowing "block", .rule shadowing "item"]) :
      ∃ name, (name = "block" ∨ name = "item") ∧ scan = .rule shadowing name := by
    rcases List.mem_cons.1 h with rfl | h
    · exact ⟨_, Or.inl rfl, rfl⟩
    · exact ⟨_, Or.inr rfl, List.mem_singleton.1 h⟩
  intro first hfirst second hsecond site context other target h h' _
  obtain ⟨_, hone, rfl⟩ := hname first hfirst
  obtain ⟨_, htwo, rfl⟩ := hname second hsecond
  have hways := comesTo_shadowing hone h
  have hways' := comesTo_shadowing htwo h'
  -- The places of the three rules differ, so both scans came to the rule in the same context.
  have heq : context = other := by
    simp only [List.mem_cons, Prod.mk.injEq, List.not_mem_nil, or_false] at hways hways'
    rcases hways with ⟨rfl, rfl⟩ | ⟨rfl, rfl⟩ | ⟨rfl, rfl⟩ <;>
      rcases hways' with ⟨hsite, rfl⟩ | ⟨hsite, rfl⟩ | ⟨hsite, rfl⟩ <;>
      first
        | rfl
        | exact absurd (congrArg (·.place.steps) hsite) (by decide)
  rw [heq]

/-- Two rules share a third, which includes the item of whichever of them came to it. -/
def ambiguous : Definition :=
  ⟨0, (((Grammar.empty a).setRule "left" (including "#shared" "source.x")).setRule "right"
    (including "#shared" "source.y")).setRule "shared" (.including "#item")⟩

end Nested

open Nested in
/-- The item of a block and the item that it hides are both found, whichever is scanned first. -/
theorem scanAll_eq_union_of_shadowing :
    Distinct shadowing [.rule shadowing "block", .rule shadowing "item"] ∧
    Unambiguous shadowing [.rule shadowing "block", .rule shadowing "item"] ∧
    Dependency.whole y ∈ (empty.scanAll shadowing
      [.rule shadowing "block", .rule shadowing "item"]).dependencies ∧
    Dependency.whole x ∈ (empty.scanAll shadowing
      [.rule shadowing "item", .rule shadowing "block"]).dependencies := by
  have hdistinct : Distinct shadowing [.rule shadowing "block", .rule shadowing "item"] := by
    simp [Distinct, Scan.definition]
  have hblock : (empty.scan shadowing (.rule shadowing "block")).dependencies = [.whole x] := by cbv
  have hitem : (empty.scan shadowing (.rule shadowing "item")).dependencies = [.whole y] := by cbv
  -- Both orders have the union of what each scan finds alone.
  obtain ⟨hunion, hperm⟩ := scanAll_eq_union hdistinct unambiguous_shadowing
  refine ⟨hdistinct, unambiguous_shadowing, (hunion _).2 ?_,
    (hperm _ (List.Perm.swap _ _ _) _).2 ((hunion _).2 ?_)⟩
  · exact ⟨_, List.mem_cons_of_mem _ List.mem_cons_self, hitem ▸ List.mem_cons_self⟩
  · exact ⟨_, List.mem_cons_self, hblock ▸ List.mem_cons_self⟩

open Nested in
/-- The second scan with the collector does not go on from the shared rule, so it misses the item
that it finds with a collector of its own, and also when it is done first. -/
theorem scan_misses_item_of_its_repository :
    Distinct ambiguous [.rule ambiguous "left", .rule ambiguous "right"] ∧
    (empty.scan ambiguous (.rule ambiguous "left")).dependencies = [.whole x] ∧
    (empty.scan ambiguous (.rule ambiguous "right")).dependencies = [.whole y] ∧
    (empty.scanAll ambiguous
      [.rule ambiguous "left", .rule ambiguous "right"]).dependencies = [.whole x] ∧
    (empty.scanAll ambiguous
      [.rule ambiguous "right", .rule ambiguous "left"]).dependencies = [.whole y] := by
  refine ⟨?_, by cbv, by cbv, by cbv, by cbv⟩
  simp [Distinct, Scan.definition]

end Collector

end Textmate
