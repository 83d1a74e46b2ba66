import Textmate.Cache
import Textmate.Dependency.Collector

/-!
# Resolution

A resolution loads all grammars that a scope depends on, in *layers*. The first layer is the scope
itself. When all scopes of a layer are loaded, their grammars are scanned, a whole grammar or one
rule of it, as the dependency asks; what the scans find, and the scopes injected into the scanned
ones, is the next layer, apart from what was requested before. The resolution ends with an empty
layer.

A scope that was requested as a whole is not requested again in any form, and a rule of a scope not
twice. The initial scope needs a grammar; other scopes without one are reported as missing.

Main statement: a layer waits for the scopes of its dependencies (`mem_scopes`).
-/

namespace Textmate

/-- What a resolution did. -/
structure Resolution where
  initial : Option ScopeName
  layers : Nat
  /-- The scopes that have a grammar, in the order in which they were found. -/
  loaded : List ScopeName
  /-- The scopes that were scanned as a whole. -/
  whole : List ScopeName
  /-- The keys of the rules that were scanned by themselves. -/
  parts : List String
  missing : List ScopeName
  deriving DecidableEq

namespace Resolution

def isComplete (resolution : Resolution) : Bool :=
  resolution.missing.isEmpty

/-- A summary in several lines. -/
def display (resolution : Resolution) : String :=
  let title := match resolution.initial with
    | none => "Resolution:"
    | some scope => "Resolution of " ++ scope.text ++ ":"
  let line (label : String) (count : Nat) := "\n  " ++ label ++ ": " ++ Text.decimal count
  title ++ line "Layers" resolution.layers ++
    line "Loaded grammars" resolution.loaded.length ++
    line "Full dependencies" resolution.whole.length ++
    line "Partial dependencies" resolution.parts.length ++
    line "Missing" resolution.missing.length

/-- The resolution as a value. -/
def toJson (resolution : Resolution) : Json :=
  let scopes (list : List ScopeName) : Json := .strings (list.map (·.text))
  .ofMembers [("initial", .ofOption (.string ·.text) resolution.initial),
    ("layers", .natural resolution.layers), ("loaded", scopes resolution.loaded),
    ("full", scopes resolution.whole), ("partial", .strings resolution.parts),
    ("missing", scopes resolution.missing)]

end Resolution

/-- A list with an element at its end, unless it has the element already. -/
def addNew {α : Type} [DecidableEq α] (list : List α) (a : α) : List α :=
  if a ∈ list then list else list ++ [a]

/-- The element is in the list afterwards, and nothing else is new. -/
@[simp] theorem mem_addNew {α : Type} [DecidableEq α] {list : List α} {a b : α} :
    b ∈ addNew list a ↔ b ∈ list ∨ b = a := by
  unfold addNew
  split
  · rename_i h
    constructor
    · exact Or.inl
    · rintro (hb | rfl)
      · exact hb
      · exact h
  · simp

/-- What was requested so far in a resolution. -/
structure Requested where
  /-- The scopes that were requested as a whole. -/
  whole : List ScopeName
  /-- The keys of the rules that were requested by themselves. -/
  parts : List String

namespace Requested

/-- Whether a dependency is still to be requested. -/
def admits (requested : Requested) : Dependency → Bool
  | .whole scope => scope ∉ requested.whole
  | .part scope rule =>
    -- A rule counts as requested with its whole grammar, whether or not a scan comes to it.
    scope ∉ requested.whole && (Dependency.part scope rule).key ∉ requested.parts

/-- What was requested, with a further dependency. -/
def add (requested : Requested) : Dependency → Requested
  | .whole scope => { requested with whole := requested.whole ++ [scope] }
  | .part scope rule =>
    { requested with parts := requested.parts ++ [(Dependency.part scope rule).key] }

/-- The dependencies that are still to be requested, each once, and what is requested with them. -/
def select (requested : Requested) : List Dependency → List Dependency × Requested
  | [] => ([], requested)
  | dependency :: rest =>
    if requested.admits dependency then
      let (selected, all) := select (requested.add dependency) rest
      (dependency :: selected, all)
    else select requested rest

end Requested

/-- A resolution under way. -/
structure Run where
  initial : ScopeName
  /-- The grammar of the initial scope, once it was found. -/
  base : Option Definition
  /-- The dependencies that are being loaded. -/
  layer : List Dependency
  requested : Requested
  report : Resolution

namespace Run

/-- The resolution of a scope before its first layer. -/
def start (initial : ScopeName) : Run :=
  ⟨initial, none, [.whole initial], ⟨[initial], []⟩, ⟨some initial, 0, [], [], [], []⟩⟩

def scopes (run : Run) : List ScopeName :=
  (run.layer.map (·.scope)).foldl addNew []

/-- The scopes of the layer are those of its dependencies. -/
theorem mem_scopes {run : Run} {scope : ScopeName} :
    scope ∈ run.scopes ↔ ∃ dependency ∈ run.layer, dependency.scope = scope := by
  have hfold (scopes found : List ScopeName) :
      scope ∈ scopes.foldl addNew found ↔ scope ∈ found ∨ scope ∈ scopes := by
    induction scopes generalizing found with
    | nil => simp
    | cons first rest ih => rw [List.foldl_cons, ih, mem_addNew, List.mem_cons, or_assoc]
  rw [scopes, hfold, List.mem_map]
  exact or_iff_right List.not_mem_nil

/-- Scans the grammar of one dependency, if the store has it. -/
def scan (store : Store) (initial : ScopeName) (base : Definition)
    (collector : Collector) (report : Resolution) (dependency : Dependency) :
    Except Error (Collector × Resolution) :=
  let scope := dependency.scope
  match store.lookup scope with
  | none =>
    -- Only the initial scope has to be there.
    if scope = initial then .error (.missingGrammar initial)
    else .ok (collector, { report with missing := addNew report.missing scope })
  | some definition =>
    let report := { report with loaded := addNew report.loaded scope }
    let (collector, report) := match dependency with
      | .whole scope =>
        (collector.collectAll base definition, { report with whole := report.whole ++ [scope] })
      | .part _ rule =>
        (collector.collectRule base definition rule,
          { report with parts := report.parts ++ [dependency.key] })
    -- The injected scopes come behind what the scan has found.
    .ok (collector.addInjections (store.injectionsInto scope), report)

/-- Scans the grammars of a list of dependencies. -/
def scanAll (store : Store) (initial : ScopeName) (base : Definition) :
    List Dependency → Collector × Resolution → Except Error (Collector × Resolution)
  | [], found => .ok found
  | dependency :: rest, (collector, report) =>
    match scan store initial base collector report dependency with
    | .error e => .error e
    | .ok found => scanAll store initial base rest found

/-- Goes from a layer, whose scopes are all loaded, to the next one. -/
def next (store : Store) (run : Run) : Except Error Run :=
  match run.base.or (store.lookup run.initial) with
  | none => .error (.missingGrammar run.initial)
  | some base =>
    match scanAll store run.initial base run.layer
        (.empty, { run.report with layers := run.report.layers + 1 }) with
    | .error e => .error e
    | .ok (collector, report) =>
      -- The collector is new in every layer; only what was requested is remembered.
      let (layer, requested) := run.requested.select collector.dependencies
      .ok ⟨run.initial, some base, layer, requested, report⟩

end Run

/-- A resolution that goes on or has ended. -/
inductive Progress where
  /-- The resolution waits for the loads of its layer. -/
  | waiting (run : Run)
  | done (result : Except Error Resolution)

namespace Progress

/-- The result of a resolution that has ended. -/
def result? : Progress → Option (Except Error Resolution)
  | waiting _ => none
  | done result => some result

/-- What follows the loads of a layer: the first failure in the order of the layer, or the next
layer, or the end if that is empty. -/
def afterLoads (store : Store) (run : Run) (outcomes : List Outcome) : Progress :=
  -- All loads have ended; the first failure in the order of the layer is reported.
  match outcomes.findSome? fun outcome => match outcome with
    | .ok _ => none
    | .error e => some e with
  | some e => .done (.error e)
  | none =>
    match run.next store with
    | .error e => .done (.error e)
    | .ok run => if run.layer.isEmpty then .done (.ok run.report) else .waiting run

/-- Goes on with a resolution as far as the loads have come, through at most a number of layers. -/
def resume : Nat → Library → Progress → Library × Progress
  | 0, library, progress => (library, progress)
  | _, library, .done result => (library, .done result)
  | limit + 1, library, .waiting run =>
    -- All loads of the layer are asked for before any of them is looked at.
    let library := run.scopes.foldl Library.await library
    match library.outcomes? run.scopes with
    | none => (library, .waiting run)
    | some outcomes => resume limit library (afterLoads library.store run outcomes)

end Progress

namespace Library

/-- Goes on with several resolutions, one after another. -/
def resumeAll (limit : Nat) : Library → List Progress → Library × List Progress
  | library, [] => (library, [])
  | library, progress :: rest =>
    let (library, progress) := progress.resume limit library
    let (library, rest) := resumeAll limit library rest
    (library, progress :: rest)

/-- Resolves several scopes at once: the results, or nothing if they take more than a number of
turns. -/
def runAll (loader : Loader) (limit : Nat) :
    Nat → Library → List Progress → Option (List (Except Error Resolution)) × Library
  | turns, library, runs =>
    let (library, runs) := library.resumeAll limit runs
    -- The loads go on after all resolutions have come as far as they can.
    match runs.mapM (·.result?), turns with
    | some results, _ => (some results, library)
    | none, 0 => (none, library)
    | none, turns + 1 => runAll loader limit turns (library.turn loader) runs

/-- Resolves several scopes at once within a number of turns. -/
def resolveAll (loader : Loader) (limit : Nat) (library : Library) (scopes : List ScopeName) :
    Option (List (Except Error Resolution)) × Library :=
  library.runAll loader limit limit (scopes.map fun scope => .waiting (.start scope))

/-- Resolves a scope within a number of turns. -/
def resolve (loader : Loader) (limit : Nat) (library : Library) (scope : ScopeName) :
    Option (Except Error Resolution) × Library :=
  let (results, library) := library.resolveAll loader limit [scope]
  (results.bind (·.head?), library)

end Library

end Textmate
