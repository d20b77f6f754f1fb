import InterfaceGen.Declaration.Member

/-!
Declarations that hold others: types, namespaces and the using directives that apply inside them.
-/

namespace InterfaceGen

inductive TypeKind where
  | classType
  | structType
  | recordClass
  | recordStruct
  | interface
  deriving DecidableEq

namespace TypeKind

def keyword : TypeKind → String
  | .classType => "class"
  | .structType => "struct"
  | .recordClass => "record"
  | .recordStruct => "record struct"
  | .interface => "interface"

def isRecord : TypeKind → Bool
  | .recordClass | .recordStruct => true
  | .classType | .structType | .interface => false

end TypeKind

/-- A type declaration without the types nested in it. -/
structure TypeDecl where
  docs : Option DocComment
  sections : List AttributeSection
  modifiers : List String
  kind : TypeKind
  name : String
  typeParameters : List TypeParameter
  /-- The parameters after the name, if there are parentheses at all. -/
  parameters : Option (List Parameter)
  bases : List TypeRef
  constraints : List Constraint
  members : List Member

namespace TypeDecl

def arity (decl : TypeDecl) : Nat :=
  decl.typeParameters.length

def typeParameterNames (decl : TypeDecl) : List String :=
  decl.typeParameters.map TypeParameter.name

end TypeDecl

structure Using where
  isGlobal : Bool
  isStatic : Bool
  aliasName : Option String
  name : String
  deriving DecidableEq

def Using.render (directive : Using) : String :=
  (if directive.isGlobal then "global " else "") ++ "using " ++
    (if directive.isStatic then "static " else "") ++
    (match directive.aliasName with
      | none => ""
      | some aliasName => aliasName ++ " = ") ++
    directive.name ++ ";"

structure Namespace where
  name : String
  usings : List Using
  isFileScoped : Bool

def Namespace.segments (decl : Namespace) : List String :=
  Text.dottedParts decl.name.toList

end InterfaceGen
