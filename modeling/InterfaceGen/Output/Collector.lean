import InterfaceGen.Marker.Definitions

/-!
Where generated sources go. A *sink* takes sources under their hints and may refuse one; a refused
source leaves the sink as it was. The collector is the plain sink that refuses a hint it has seen.
-/

namespace InterfaceGen

inductive OutputError where
  | duplicateHint (hint : String)
  deriving DecidableEq

def OutputError.message : OutputError → String
  | .duplicateHint hint => "a source with hint `" ++ hint ++ "` was already added"

/-- How sources are added to a state, and whether that state asks for work to stop. -/
structure Sink (σ : Type) where
  add : σ → (hint text : String) → Except OutputError σ
  isStopped : σ → Bool

namespace Sink

/-- Adds sources in order up to the first one that is refused. -/
def addAll {σ : Type} (sink : Sink σ) (state : σ) :
    List Marker.Definition → σ × Option OutputError
  | [] => (state, none)
  | source :: rest =>
      match sink.add state source.hint source.text with
      | .ok next => sink.addAll next rest
      | .error error => (state, some error)

def addDefinitions {σ : Type} (sink : Sink σ) (state : σ) : σ × Option OutputError :=
  sink.addAll state Marker.definitions

end Sink

/-- The sources taken so far, with their hints, in the order in which they came. -/
structure Collector where
  sources : List (String × String)
  deriving DecidableEq

namespace Collector

def empty : Collector := ⟨[]⟩

def get? (collector : Collector) (hint : String) : Option String :=
  collector.sources.lookup hint

def hints (collector : Collector) : List String :=
  collector.sources.map Prod.fst

def add (collector : Collector) (hint text : String) : Except OutputError Collector :=
  if collector.hints.contains hint then .error (.duplicateHint hint)
  else .ok ⟨collector.sources ++ [(hint, text)]⟩

/-- The collector as a sink that never asks to stop. -/
def sink : Sink Collector where
  add := add
  isStopped := fun _ => false

end Collector

/-- A record of accepted sources that can take repeated hints and can ask for work to stop, by
itself once it holds a given number of sources. -/
structure Journal where
  collected : Collector
  acceptsRepeats : Bool
  stopsAt : Option Nat
  isStopped : Bool
  deriving DecidableEq

namespace Journal

def ofRules (acceptsRepeats : Bool) (stopsAt : Option Nat) : Journal :=
  ⟨.empty, acceptsRepeats, stopsAt, false⟩

def stop (journal : Journal) : Journal :=
  { journal with isStopped := true }

def add (journal : Journal) (hint text : String) : Except OutputError Journal :=
  let taken : Except OutputError Collector :=
    if journal.acceptsRepeats then .ok ⟨journal.collected.sources ++ [(hint, text)]⟩
    else journal.collected.add hint text
  taken.map fun collected =>
    { journal with
      collected
      isStopped := journal.isStopped || journal.stopsAt = some collected.sources.length }

def sink : Sink Journal where
  add := add
  isStopped := isStopped

end Journal
end InterfaceGen
