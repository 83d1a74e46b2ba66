import Textmate.Proofs.Resolution.Calls
import Textmate.Proofs.Resolution.History

/-!
# No request is lost

A resolution that has ended has gone through layers in which everything that its scans have found
was requested, or was left to the request for a whole grammar; and all that was requested, apart
from the initial scope, had been found in the layer before.

## Key results

- `keeps_traced`: a resolution under way has a history
- `Completes.accounted`: what the layers of a resolution that has ended have to do with each other
- `Calls.accounted_of_returned`: the same for every call that returns, whatever goes on beside it
-/

namespace Textmate

/-- A resolution has gone through layers, has nothing more to request, and has the report. -/
def Completes (loader : Loader) (first : Library) (initial : ScopeName) (layers : List Layer)
    (library : Library) (report : Resolution) : Prop :=
  ∃ run, History loader first initial layers library run ∧ run.layer = [] ∧ run.report = report

namespace Progress

/-- The resolution has a history. -/
def Traced (loader : Loader) (first : Library) (initial : ScopeName) (library : Library)
    (progress : Progress) : Prop :=
  progress.Holds fun run => ∃ layers, History loader first initial layers library run

/-- Loads and layers continue the history of a resolution. -/
theorem keeps_traced (loader : Loader) (first : Library) (initial : ScopeName) :
    Keeps loader (Traced loader first initial) where
  load := fun _ _ _ hstep htraced => htraced.imp fun _ ⟨layers, hhistory⟩ =>
    ⟨layers, hhistory.load hstep⟩
  layer := by
    rintro library run outcomes ⟨layers, hhistory⟩ houtcomes
    refine holds_afterLoads fun after hnone hnext => ?_
    obtain ⟨base, -, -, hbase, -⟩ := Run.next_eq_ok hnext
    exact ⟨_, hhistory.layer houtcomes hnone hbase hnext⟩

/-- The history of a resolution begins with any library to which loads have led. -/
private theorem traced_start {loader : Loader} {first library : Library} (initial : ScopeName)
    (h : Library.Steps loader first library) :
    Traced loader first initial library (.waiting (.start initial)) :=
  ⟨[], History.start.loads h⟩

end Progress

/-! ## What the layers have to do with each other -/

/-- The report has what has become of a request: that depends on whether its scope has a grammar. -/
def Resolution.Tells (report : Resolution) (grammar : Option Definition) (request : Dependency) :
    Prop :=
  match grammar, request with
  | none, request => request.scope ∈ report.missing
  | some _, .whole scope => scope ∈ report.whole
  | some _, .part scope name => (Dependency.part scope name).key ∈ report.parts

/-- A layer has requested something, and the report has what has become of it. -/
def Layer.Processes (layer : Layer) (report : Resolution) (request : Dependency) : Prop :=
  request ∈ layer.requests ∧ report.Tells (layer.store.lookup request.scope) request

/-- No request of the layers was lost, and none was invented. -/
structure Accounted (initial : ScopeName) (layers : List Layer) (report : Resolution) : Prop where
  /-- The first layer requests the initial scope and nothing else. -/
  begins : layers.head?.map (·.requests) = some [.whole initial]
  /-- What a later layer requests was found in the layer before it, by a rule or an injection. -/
  follows : layers.IsChain fun earlier later => ∀ request ∈ later.requests,
    request ∈ earlier.found.dependencies ∧
      (earlier.ByRule request ∨ earlier.ByInjection request)
  /-- What was found in any layer is processed in some layer, or it is a rule of a grammar that was
  requested as a whole. -/
  ends : ∀ layer ∈ layers, ∀ dependency ∈ layer.found.dependencies,
    (∃ other ∈ layers, other.Processes report dependency) ∨
      ∃ scope name, dependency = .part scope name ∧
        ∃ other ∈ layers, .whole scope ∈ other.requests

namespace Completes

variable {loader : Loader} {first library : Library} {initial : ScopeName} {layers : List Layer}
  {report : Resolution}

/-- What was requested in a layer is reported. -/
private theorem processes (h : Completes loader first initial layers library report) {layer : Layer}
    (hlayer : layer ∈ layers) {request : Dependency} (hrequest : request ∈ layer.requests) :
    layer.Processes report request := by
  obtain ⟨run, hhistory, -, rfl⟩ := h
  refine ⟨hrequest, ?_⟩
  -- The report is made of the requests of the layers.
  rw [hhistory.report_eq.2]
  -- A request of the layer is present or absent, and both are reported.
  cases hlookup : layer.store.lookup request.scope with
  | none =>
    have habsent : request ∈ layer.absent := List.mem_filter.2 ⟨hrequest, by simp [hlookup]⟩
    exact Resolution.mem_missing_ofRequests.2
      ⟨request, List.mem_flatMap.2 ⟨layer, hlayer, habsent⟩, rfl⟩
  | some definition =>
    have hpresent : request ∈ layers.flatMap (·.present) :=
      List.mem_flatMap.2 ⟨layer, hlayer, List.mem_filter.2 ⟨hrequest, by simp [hlookup]⟩⟩
    cases request with
    | whole scope => exact Dependency.mem_wholes.2 hpresent
    | part scope name => exact Dependency.key_mem_partKeys.2 hpresent

/-- The layers of a resolution that has ended lose no request and invent none. -/
theorem accounted (h : Completes loader first initial layers library report) :
    Accounted initial layers report := by
  have hprocesses (layer : Layer) (hlayer : layer ∈ layers) (request : Dependency)
      (hrequest : request ∈ layer.requests) : layer.Processes report request :=
    h.processes hlayer hrequest
  obtain ⟨run, hhistory, hempty, rfl⟩ := h
  refine ⟨?_, ?_, fun layer hlayer dependency hfound => ?_⟩
  · -- The layer under way is empty, so it is not the first one.
    have hhead := hhistory.head?_eq
    rw [hempty] at hhead
    cases layers with
    | nil => cases hhead
    | cons layer rest => exact hhead
  · exact hhistory.chain.1.imp fun earlier later hsubset request hrequest =>
      ⟨hsubset hrequest, Layer.byRule_or_byInjection (hsubset hrequest)⟩
  · -- What was found was requested, or a whole grammar in its place was.
    have hcovers := hhistory.covers_found hlayer hfound
    rw [hhistory.requested_eq, hempty, List.append_nil, Requested.covers_of_iff] at hcovers
    rcases hcovers with hrequested | ⟨scope, name, rfl, hwhole⟩
    · obtain ⟨other, hother, hrequest⟩ := List.mem_flatMap.1 hrequested
      exact Or.inl ⟨other, hother, hprocesses other hother _ hrequest⟩
    · obtain ⟨other, hother, hrequest⟩ := List.mem_flatMap.1 hwhole
      exact Or.inr ⟨scope, name, rfl, other, hother, hrequest⟩

end Completes

namespace Calls

/-- Whatever the loader answers, and whatever goes on over the library before and beside it: a call
that returns a report has gone through layers in which no request was lost and none invented. -/
theorem accounted_of_returned (loader : Loader) (library : Library) (events : List Event)
    (call : Nat) (initial : ScopeName) (report : Resolution)
    (h : (after loader library events).Returned call initial (.ok report)) :
    ∃ layers, Completes loader library initial layers (after loader library events).library report ∧
      Accounted initial layers report := by
  have hall := all_after (fun scope => Progress.keeps_traced loader library scope)
    (fun scope _ => Progress.traced_start scope) events
  -- A call that has returned keeps the run it has ended with.
  obtain ⟨run, ⟨layers, hhistory⟩, hend⟩ := hall.kept _ (List.mem_of_getElem? h) _ rfl
  -- Only a run with nothing left to request returns a report.
  have hcompletes : Completes loader library initial layers _ report := ⟨run, hhistory, hend⟩
  exact ⟨layers, hcompletes, hcompletes.accounted⟩

/-- A grammar that includes a rule of another one before the whole, and into which a scope without a
grammar is injected, is resolved in three layers. -/
theorem accounted_of_rule_and_injection :
    let a : ScopeName := ⟨"source.a", by decide, by simp, by simp; decide⟩
    let b : ScopeName := ⟨"source.b", by decide, by simp, by simp; decide⟩
    let c : ScopeName := ⟨"source.c", by decide, by simp, by simp; decide⟩
    let d : ScopeName := ⟨"source.d", by decide, by simp, by simp; decide⟩
    let loader := Loader.ofGrammars
      [((Grammar.empty a).addPattern (.including "source.b#name")).addPattern
          (.including "source.b"),
        (Grammar.empty b).setRule "name" (.including "source.c"), Grammar.empty c] [(a, [d])]
    let report : Resolution := ⟨some a, 3, [a, b, c], [a, b, c], ["source.b#name"], [d]⟩
    (after loader (.empty .none) [.together 20 [a]]).Returned 0 a (.ok report) ∧
      ∃ layers, Completes loader (.empty .none) a layers
          (after loader (.empty .none) [.together 20 [a]]).library report ∧
        Accounted a layers report := by
  intro a b c d loader report
  have hreturned : (after loader (.empty .none) [.together 20 [a]]).Returned 0 a (.ok report) := by
    unfold Returned
    cbv
  exact ⟨hreturned, accounted_of_returned loader (.empty .none) _ 0 a report hreturned⟩

end Calls

end Textmate
