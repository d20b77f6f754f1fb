import InterfaceGen.Attribute.Printer

/-!
Parameters, type parameters and type-parameter constraints, with their written forms.
-/

namespace InterfaceGen

/-- The modifier stands among the modifiers, spelled exactly so. -/
def hasModifier (modifiers : List String) (modifier : String) : Bool :=
  modifiers.contains modifier

structure Parameter where
  sections : List AttributeSection
  modifiers : List String
  type : TypeRef
  name : String
  default : Option String

namespace Parameter

def plain (type : TypeRef) (name : String) : Parameter :=
  ⟨[], [], type, name, none⟩

def render (parameter : Parameter) : String :=
  Text.joined (parameter.sections.map fun attributes => attributes.render ++ " ") ++
    Text.joined (parameter.modifiers.map (· ++ " ")) ++
    parameter.type.render ++ " " ++ parameter.name ++
    match parameter.default with
    | none => ""
    | some value => " = " ++ value

def renderAll (parameters : List Parameter) : String :=
  Text.commaSeparated (parameters.map render)

end Parameter

inductive Variance where
  | contravariant
  | covariant
  deriving DecidableEq

structure TypeParameter where
  variance : Option Variance
  name : String
  deriving DecidableEq

def TypeParameter.render (parameter : TypeParameter) : String :=
  match parameter.variance with
  | some .contravariant => "in " ++ parameter.name
  | some .covariant => "out " ++ parameter.name
  | none => parameter.name

/-- What a type argument has to satisfy, as in `where T : class, new()`. -/
structure Constraint where
  parameter : String
  requirements : List String
  deriving DecidableEq

def Constraint.render (clause : Constraint) : String :=
  "where " ++ clause.parameter ++ " : " ++ Text.commaSeparated clause.requirements

end InterfaceGen
