import InterfaceGen.Resolver

/-!
Records declare members through the parameters after their name: a property for each of them and a
method `Deconstruct`. A member of the record's body takes the place of one it would repeat.
-/

namespace InterfaceGen

/-- A record parameter, and whether a member of the body hides its property. -/
structure PrimaryParameter where
  parameter : Parameter
  isShadowed : Bool

/-- The parameters of a record and what its body has taken over so far. -/
structure PrimaryConstructor where
  parameters : List PrimaryParameter
  isDeconstructDeclared : Bool
  /-- The properties can be set at any time, not only at creation. -/
  isMutable : Bool

/-- A member that a record declares through its parameters. -/
inductive ImpliedMember where
  | property (parameter : Parameter) (isMutable : Bool)
  | deconstruct (parameters : List Parameter)

namespace PrimaryConstructor

/-- The parameters of a record before any member is seen. A type that is no record, or that has
no parameters, implies no members. -/
def ofType? (decl : TypeDecl) : Option PrimaryConstructor :=
  match decl.kind.isRecord, decl.parameters with
  | true, some (first :: rest) =>
      some
        { parameters := (first :: rest).map (⟨·, false⟩)
          isDeconstructDeclared := false
          isMutable := decl.kind = .recordStruct && !hasModifier decl.modifiers "readonly" }
  | _, _ => none

def shadow (record : PrimaryConstructor) (name : String) : PrimaryConstructor :=
  { record with
    parameters := record.parameters.map fun entry =>
      { entry with isShadowed := entry.isShadowed || entry.parameter.name = name } }

/-- The parameters pair off, each one declared `out` and with a type equivalent to that of the
record's parameter. -/
def deconstructs (resolve : TypeRef → ResolvedType) :
    (declared record : List Parameter) → Bool
  | [], [] => true
  | declared :: moreDeclared, own :: moreOwn =>
      hasModifier declared.modifiers "out" &&
        (resolve declared.type).equivalent (resolve own.type) &&
        deconstructs resolve moreDeclared moreOwn
  | _, _ => false

/-- The method is the `Deconstruct` that the record would imply. -/
def isDeconstruct (record : PrimaryConstructor) (resolve : TypeRef → ResolvedType)
    (isStatic : Bool) (method : Method) : Bool :=
  method.name = "Deconstruct" && method.qualifier.isNone && method.typeParameters.isEmpty &&
    !isStatic &&
    deconstructs resolve method.parameters (record.parameters.map PrimaryParameter.parameter)

def observe (resolve : TypeRef → ResolvedType) (record : PrimaryConstructor) (member : Member) :
    PrimaryConstructor :=
  match member.body with
  | .field _ names => names.foldl shadow record
  | .feature (.property decl) =>
      if decl.qualifier.isNone then record.shadow decl.name else record
  | .feature (.method decl) =>
      if record.isDeconstruct resolve member.isStatic decl then
        { record with isDeconstructDeclared := true }
      else record
  | _ => record

def isShadowed (record : PrimaryConstructor) (index : Nat) : Bool :=
  (record.parameters[index]?.map PrimaryParameter.isShadowed).getD false

/-- The members still implied: properties in the order of their parameters, then
`Deconstruct`. -/
def implied (record : PrimaryConstructor) : List ImpliedMember :=
  ((record.parameters.filter (!·.isShadowed)).map fun entry =>
      .property entry.parameter record.isMutable) ++
    if record.isDeconstructDeclared then []
    else [.deconstruct (record.parameters.map PrimaryParameter.parameter)]

end PrimaryConstructor

namespace ImpliedMember

def render : ImpliedMember → String
  | .property parameter isMutable =>
      parameter.type.render ++ " " ++ parameter.name ++ " \x7b get; " ++
        if isMutable then "set; \x7d" else "init; \x7d"
  | .deconstruct parameters =>
      "void Deconstruct(" ++
        Text.commaSeparated
          (parameters.map fun parameter =>
            "out " ++ parameter.type.render ++ " " ++ parameter.name) ++ ");"

def signature (resolve : TypeRef → ResolvedType) : ImpliedMember → Signature
  | .property parameter isMutable =>
      { kind := .property
        name := parameter.name
        type := resolve parameter.type
        parameters := []
        arity := 0
        isStatic := false
        accessors := { AccessorSet.getter with set := isMutable, init := !isMutable } }
  | .deconstruct parameters =>
      { kind := .method
        name := "Deconstruct"
        type := resolve (.simple "void")
        parameters := parameters.map fun parameter => ⟨resolve parameter.type, .output⟩
        arity := 0
        isStatic := false
        accessors := .empty }

end ImpliedMember
end InterfaceGen
