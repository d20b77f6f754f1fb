import InterfaceGen.Declaration.Member
import InterfaceGen.ResolvedType.Basic

/-!
Signatures: members with all types resolved, as they are compared with the members of interfaces.
-/

namespace InterfaceGen

inductive SignatureKind where
  | method
  | property
  | indexer
  | event
  deriving DecidableEq

inductive PassingMode where
  | byValue
  | byRef
  | output
  | readOnlyRef
  deriving DecidableEq

/-- The modifier `out` wins over all others, and a read-only reference over a plain one. -/
def PassingMode.ofModifiers (modifiers : List String) : PassingMode :=
  if hasModifier modifiers "out" then .output
  else if hasModifier modifiers "in" || hasModifier modifiers "ref" && hasModifier modifiers "readonly"
  then .readOnlyRef
  else if hasModifier modifiers "ref" then .byRef
  else .byValue

structure AccessorSet where
  get : Bool
  set : Bool
  init : Bool
  add : Bool
  remove : Bool
  deriving DecidableEq

namespace AccessorSet

def empty : AccessorSet := ⟨false, false, false, false, false⟩

def getter : AccessorSet := { empty with get := true }

def event : AccessorSet := { empty with add := true, remove := true }

def insert (shown : AccessorSet) : AccessorKind → AccessorSet
  | .get => { shown with get := true }
  | .set => { shown with set := true }
  | .init => { shown with init := true }
  | .add => { shown with add := true }
  | .remove => { shown with remove := true }

def contains (shown : AccessorSet) : AccessorKind → Bool
  | .get => shown.get
  | .set => shown.set
  | .init => shown.init
  | .add => shown.add
  | .remove => shown.remove

/-- The exposed accessors of a list; no list means an expression body, which is read only. -/
def ofAccessors : Option (List Accessor) → AccessorSet
  | none => getter
  | some accessors => (accessors.filter Accessor.isExposed).foldl (·.insert ·.kind) empty

end AccessorSet

structure ParameterType where
  type : ResolvedType
  mode : PassingMode

structure Signature where
  kind : SignatureKind
  name : String
  type : ResolvedType
  parameters : List ParameterType
  arity : Nat
  isStatic : Bool
  accessors : AccessorSet

namespace ParameterType

def substitute (arguments : List ResolvedType) (parameter : ParameterType) : ParameterType :=
  ⟨parameter.type.substitute arguments, parameter.mode⟩

def equivalent (a b : ParameterType) : Bool :=
  a.mode = b.mode && a.type.equivalent b.type

/-- Equivalence of parameter lists, item by item; their lengths have to agree. -/
def equivalentEach : List ParameterType → List ParameterType → Bool
  | [], [] => true
  | a :: as, b :: bs => a.equivalent b && equivalentEach as bs
  | _, _ => false

end ParameterType

namespace Signature

def substitute (arguments : List ResolvedType) (signature : Signature) : Signature :=
  { signature with
    type := signature.type.substitute arguments
    parameters := signature.parameters.map (ParameterType.substitute arguments) }

/-- Two signatures declare the same member. Parameter names play no part, and neither do the names
of type parameters. -/
def equivalent (a b : Signature) : Bool :=
  a.kind = b.kind && a.name = b.name && a.isStatic = b.isStatic && a.arity = b.arity &&
    a.accessors = b.accessors && a.type.equivalent b.type &&
    ParameterType.equivalentEach a.parameters b.parameters

end Signature
end InterfaceGen
