import InterfaceGen.Generator
import InterfaceGen.Output.Collector

/-!
The pipeline over whole files: it finds the marked types, generates their interfaces and registers
the sources in the order of discovery.
-/

namespace InterfaceGen

structure MarkedType where
  site : Site
  decl : TypeDecl
  marker : Attribute

/-- The marked types of a file in document order, each as often as it is marked. Interfaces are
passed over. -/
def SourceFile.markedTypes (file : SourceFile) : List MarkedType :=
  (file.typeSites.filter fun entry => entry.2.kind ≠ .interface).flatMap fun entry =>
    (AttributeSection.named entry.2.sections Marker.request).map fun marker =>
      ⟨entry.1, entry.2, marker⟩

/-- The requests for the marked types of a file, with no stop in sight. -/
def SourceFile.requests (file : SourceFile) (resolver : Resolver) : List Request :=
  file.markedTypes.map fun marked => ⟨file, marked.site, marked.marker, resolver, .never⟩

/-- The sources for a file by a fresh generator with default options. -/
def synthesize (file : SourceFile) (resolver : Resolver) : Option (List Source) :=
  (Generator.default.generateAll (file.requests resolver)).map fun result =>
    result.1.filterMap Outcome.source?

structure Summary where
  generated : Nat
  skipped : Nat
  cancelled : Nat
  deriving DecidableEq

/-- A stop asked for from outside while the pipeline runs. Nobody takes it back. -/
inductive Interruption where
  | never
  /-- Before the first result is registered. It comes to the invocations, by their numbers, at
  different times, and to some of them too late. -/
  | beforeResults (stop : Nat → Stop)
  /-- Once so many results have been registered. -/
  | afterResults (count : Nat)

namespace Interruption

/-- When the stop comes for the invocation with this number. -/
def stopFor : Interruption → Nat → Stop
  | .beforeResults stop, number => stop number
  | .never, _ | .afterResults _, _ => .never

/-- The stop has been asked for when the result with this number is due. -/
def isSeenAt : Interruption → Nat → Bool
  | .never, _ => false
  | .beforeResults _, _ => true
  | .afterResults count, number => count ≤ number

end Interruption

structure Pipeline where
  generator : Generator
  resolver : Resolver
  /-- The pipeline stops when it is asked to, from outside or by the sink. -/
  heedsStop : Bool

namespace Pipeline

def ofOptions (options : Options) (resolver : Resolver) (heedsStop : Bool) : Pipeline :=
  ⟨.ofOptions options, resolver, heedsStop⟩

def mustStop {σ : Type} (pipeline : Pipeline) (sink : Sink σ) (state : σ) (isAsked : Bool) :
    Bool :=
  pipeline.heedsStop && (isAsked || sink.isStopped state)

/-- When an invocation has to stop that a stop from outside reaches at this time. A sink that has
stopped does so before all work. -/
def stopOf {σ : Type} (pipeline : Pipeline) (sink : Sink σ) (state : σ) (outside : Stop) : Stop :=
  if !pipeline.heedsStop then .never
  else if sink.isStopped state then .beforeWork
  else outside

/-- What has been registered so far: the sink's state, the counts, and the first refusal. -/
structure Registration (σ : Type) where
  state : σ
  summary : Summary
  firstError : Option OutputError

/-- Registers the outcome with its number. After a stop all that follows counts as cancelled; a
refused source is counted nowhere. -/
def register {σ : Type} (pipeline : Pipeline) (interruption : Interruption) (sink : Sink σ)
    (done : Registration σ) (result : Outcome × Nat) : Registration σ :=
  let summary := done.summary
  if pipeline.mustStop sink done.state (interruption.isSeenAt result.2) then
    { done with summary := { summary with cancelled := summary.cancelled + 1 } }
  else
    match result.1 with
    | .generated source =>
        match sink.add done.state source.key.text source.text with
        | .ok state =>
            { done with state, summary := { summary with generated := summary.generated + 1 } }
        | .error error => { done with firstError := done.firstError <|> some error }
    | .skipped => { done with summary := { summary with skipped := summary.skipped + 1 } }
    | .cancelled => { done with summary := { summary with cancelled := summary.cancelled + 1 } }

/-- The state after a run, with its summary or the first refusal. -/
def Registration.result {σ : Type} (done : Registration σ) : Except OutputError Summary :=
  match done.firstError with
  | some error => .error error
  | none => .ok done.summary

/-- The requests for all marked types of the files in the order of discovery, each with the stop
that comes for it. -/
def requests {σ : Type} (pipeline : Pipeline) (interruption : Interruption) (sink : Sink σ)
    (state : σ) (files : List SourceFile) : List Request :=
  (files.flatMap (·.requests pipeline.resolver)).mapIdx fun number request =>
    { request with stop := pipeline.stopOf sink state (interruption.stopFor number) }

/-- Generates the interfaces for all marked types of the files, then registers them in order, while
a stop may be asked for from outside. Nothing is registered before all requests have their
answers. -/
def runUnder {σ : Type} (pipeline : Pipeline) (interruption : Interruption) (sink : Sink σ)
    (state : σ) (files : List SourceFile) : Option (Registration σ × Pipeline) := do
  let (outcomes, generator) ←
    pipeline.generator.generateAll (pipeline.requests interruption sink state files)
  some (outcomes.zipIdx.foldl (pipeline.register interruption sink) ⟨state, ⟨0, 0, 0⟩, none⟩,
    { pipeline with generator })

/-- A run that only the sink can stop. -/
def run {σ : Type} (pipeline : Pipeline) (sink : Sink σ) (state : σ) (files : List SourceFile) :
    Option (Registration σ × Pipeline) :=
  pipeline.runUnder .never sink state files

end Pipeline
end InterfaceGen
