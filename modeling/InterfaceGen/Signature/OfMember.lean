import InterfaceGen.Scope
import InterfaceGen.Signature.Basic

/-!
The signatures that a member declares, given how type references are resolved in a scope.
-/

namespace InterfaceGen

def ParameterType.ofParameter (resolve : TypeRef → ResolvedType) (parameter : Parameter) :
    ParameterType :=
  ⟨resolve parameter.type, .ofModifiers parameter.modifiers⟩

namespace Feature

/-- The signatures of a feature: one for each name that it declares. -/
def signatures (resolve : TypeRef → Scope → ResolvedType) (scope : Scope) (isStatic : Bool) :
    Feature → List Signature
  | .method decl =>
      let inner := scope.inMethod decl.typeParameters
      [{ kind := .method
         name := decl.name
         type := resolve decl.result inner
         parameters := decl.parameters.map (.ofParameter (resolve · inner))
         arity := decl.typeParameters.length
         isStatic
         accessors := .empty }]
  | .property decl =>
      [{ kind := .property
         name := decl.name
         type := resolve decl.type scope
         parameters := []
         arity := 0
         isStatic
         accessors := .ofAccessors decl.accessors }]
  | .indexer decl =>
      [{ kind := .indexer
         name := "this"
         type := resolve decl.type scope
         parameters := decl.parameters.map (.ofParameter (resolve · scope))
         arity := 0
         isStatic
         accessors := .ofAccessors decl.accessors }]
  | .eventField type names =>
      names.map fun name =>
        { kind := .event
          name
          type := resolve type scope
          parameters := []
          arity := 0
          isStatic
          accessors := .event }
  | .event decl =>
      [{ kind := .event
         name := decl.name
         type := resolve decl.type scope
         parameters := []
         arity := 0
         isStatic
         accessors := .event }]

end Feature

/-- The signatures of a member; fields and other members have none. -/
def Member.signatures (resolve : TypeRef → Scope → ResolvedType) (scope : Scope)
    (member : Member) : List Signature :=
  match member.feature? with
  | some feature => feature.signatures resolve scope member.isStatic
  | none => []

end InterfaceGen
