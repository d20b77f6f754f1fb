import InterfaceGen.Output.Layout
import InterfaceGen.Output.SourceKey
import InterfaceGen.Marker.Definitions

/-!
The generator: from one marked type to one source. It carries its options and its buffer pool. A
stop may be noticed before the work on a request or after it, and a request whose projection has no
members because a search does not end is not answered at all.
-/

namespace InterfaceGen

structure Options where
  indent : String
  policy : Policy
  preamble : String
  poolSize : Nat
  deriving DecidableEq

def Options.default : Options :=
  ⟨"    ", .inheritanceAware, Marker.preamble, 8⟩

/-- When a stop comes for the work on a request. Nobody takes it back. -/
inductive Stop where
  | never
  | beforeWork
  | duringWork
  deriving DecidableEq

namespace Stop

/-- The stop is seen by a look before the work. -/
def isSeenBefore : Stop → Bool
  | .beforeWork => true
  | .never | .duringWork => false

/-- The stop is seen by a look after the work. -/
def isSeenAfter : Stop → Bool
  | .beforeWork | .duringWork => true
  | .never => false

end Stop

/-- What the generator is asked: the marker and the node it stands on. -/
structure Request where
  file : SourceFile
  site : Site
  marker : Attribute
  resolver : Resolver
  stop : Stop

structure Source where
  key : SourceKey
  text : String
  deriving DecidableEq

inductive Outcome where
  | generated (source : Source)
  /-- The node is no type that can have an interface generated. -/
  | skipped
  | cancelled
  deriving DecidableEq

def Outcome.source? : Outcome → Option Source
  | .generated source => some source
  | .skipped | .cancelled => none

structure Generator where
  options : Options
  pool : BufferPool

namespace Generator

def ofOptions (options : Options) : Generator :=
  ⟨options, .ofSize options.poolSize⟩

def default : Generator :=
  ofOptions .default

end Generator

namespace Request

/-- The type of the request and its place, unless the node is no type or is an interface itself. -/
def subject? (request : Request) : Option (TypeDecl × Location) :=
  match request.site.type?, Location.ofSite? request.file request.site with
  | some decl, some location => if decl.kind = .interface then none else some (decl, location)
  | _, _ => none

def projection (request : Request) (policy : Policy) (decl : TypeDecl) : Projection :=
  let settings := Settings.ofMarker request.marker
  let scope := Scope.ofSite request.site
  { decl
    settings
    scope
    resolver := request.resolver
    policy
    bases := settings.bases.map fun base => request.resolver.resolve base scope }

def layout (request : Request) (options : Options) (decl : TypeDecl) (location : Location)
    (members : List InterfaceMember) : Layout :=
  let projection := request.projection options.policy decl
  let settings := projection.settings
  { preamble := options.preamble
    usings := request.site.usingScopes
    namespaceName := settings.namespaceFor location.namespacePath
    containers := settings.containers
    docs := decl.docs
    header :=
      Layout.interfaceHeader settings.modifiers (settings.targetName decl.name)
        decl.typeParameterNames (projection.bases.map ResolvedType.render)
    members }

end Request

namespace Generator

/-- Answers a request. The text is written in a buffer of the pool, which goes back before the
second look for a stop. -/
def generate (generator : Generator) (request : Request) : Option (Outcome × Generator) :=
  if request.stop.isSeenBefore then some (.cancelled, generator)
  else
    match request.subject? with
    | none => some (.skipped, generator)
    | some (decl, location) => do
        let options := generator.options
        let members ← (request.projection options.policy decl).members
        let (buffer, pool) := generator.pool.acquire
        let layout := request.layout options decl location members
        let finished := (layout.write (.start buffer options.indent)).finish
        let next := { generator with pool := pool.release finished }
        let target := (Settings.ofMarker request.marker).targetName decl.name
        if request.stop.isSeenAfter then some (.cancelled, next)
        else some (.generated ⟨.derive target location, finished.text⟩, next)

/-- Every way in which a request is answered. Whatever buffers the pool has, the text is written in
an empty one. -/
theorem generate_cases {generator next : Generator} {request : Request} {outcome : Outcome}
    (h : generator.generate request = some (outcome, next)) :
    (request.stop.isSeenBefore = true ∧ outcome = .cancelled ∧ next = generator) ∨
      (request.subject? = none ∧ outcome = .skipped ∧ next = generator) ∨
      ∃ decl location members, request.subject? = some (decl, location) ∧
        (request.projection generator.options.policy decl).members = some members ∧
        let layout := request.layout generator.options decl location members
        let finished := (layout.write (.start .empty generator.options.indent)).finish
        let target := (Settings.ofMarker request.marker).targetName decl.name
        outcome =
            (if request.stop.isSeenAfter then .cancelled
              else .generated ⟨.derive target location, finished.text⟩) ∧
          next = { generator with pool := generator.pool.acquire.2.release finished } := by
  unfold generate at h
  split at h
  · rename_i seen
    cases h
    exact .inl ⟨seen, rfl, rfl⟩
  · split at h
    · rename_i none
      cases h
      exact .inr (.inl ⟨none, rfl, rfl⟩)
    · rename_i decl location subject
      obtain ⟨members, projected, written⟩ := Option.bind_eq_some_iff.mp h
      simp only [BufferPool.acquire_fst] at written
      refine .inr (.inr ⟨decl, location, members, subject, projected, ?_⟩)
      split at written
      · rename_i seen
        cases written
        exact ⟨(if_pos seen).symm, rfl⟩
      · rename_i unseen
        cases written
        exact ⟨(if_neg unseen).symm, rfl⟩

/-- Answers some requests one after the other. One that has no answer keeps the others from
theirs. -/
def generateAll (generator : Generator) : List Request → Option (List Outcome × Generator)
  | [] => some ([], generator)
  | request :: rest => do
      let (outcome, next) ← generator.generate request
      let (outcomes, last) ← next.generateAll rest
      some (outcome :: outcomes, last)

end Generator
end InterfaceGen
