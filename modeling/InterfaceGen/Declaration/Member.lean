import InterfaceGen.Declaration.Parameter
import InterfaceGen.DocComment

/-!
Members of a type. Methods, properties, indexers and events are *features*: an interface can
declare them. Fields and all other members only take part in what they hide.
-/

namespace InterfaceGen

inductive AccessorKind where
  | get
  | set
  | init
  | add
  | remove
  deriving DecidableEq

def AccessorKind.keyword : AccessorKind → String
  | .get => "get"
  | .set => "set"
  | .init => "init"
  | .add => "add"
  | .remove => "remove"

structure Accessor where
  kind : AccessorKind
  modifiers : List String
  deriving DecidableEq

namespace Accessor

/-- An accessor with any modifier of its own is not shown in an interface. -/
def isExposed (accessor : Accessor) : Bool :=
  accessor.modifiers.isEmpty

/-- The accessor block of an interface property. No accessor list means an expression body, which
is read only. -/
def block : Option (List Accessor) → String
  | none => "\x7b get; \x7d"
  | some accessors =>
      "\x7b " ++ Text.joined ((accessors.filter isExposed).map (·.kind.keyword ++ "; ")) ++ "\x7d"

end Accessor

structure Method where
  result : TypeRef
  /-- The interface that the member implements explicitly. -/
  qualifier : Option TypeRef
  name : String
  typeParameters : List TypeParameter
  parameters : List Parameter
  constraints : List Constraint

structure Property where
  type : TypeRef
  qualifier : Option TypeRef
  name : String
  accessors : Option (List Accessor)

structure Indexer where
  type : TypeRef
  qualifier : Option TypeRef
  parameters : List Parameter
  accessors : Option (List Accessor)

/-- An event with accessors of its own. -/
structure Event where
  type : TypeRef
  qualifier : Option TypeRef
  name : String
  accessors : List Accessor

inductive Feature where
  | method (decl : Method)
  | property (decl : Property)
  | indexer (decl : Indexer)
  /-- Events declared like fields, several at once. -/
  | eventField (type : TypeRef) (names : List String)
  | event (decl : Event)

namespace Feature

def qualifier? : Feature → Option TypeRef
  | .method decl => decl.qualifier
  | .property decl => decl.qualifier
  | .indexer decl => decl.qualifier
  | .eventField _ _ => none
  | .event decl => decl.qualifier

/-- The name in reports; an indexer has none of its own. -/
def name : Feature → String
  | .method decl => decl.name
  | .property decl => decl.name
  | .indexer _ => "this[]"
  | .eventField _ names => names.headD ""
  | .event decl => decl.name

def render : Feature → String
  | .method decl =>
      decl.result.render ++ " " ++ decl.name ++
        Text.angleList (decl.typeParameters.map TypeParameter.render) ++
        "(" ++ Parameter.renderAll decl.parameters ++ ")" ++
        Text.joined (decl.constraints.map fun clause => " " ++ clause.render) ++ ";"
  | .property decl =>
      decl.type.render ++ " " ++ decl.name ++ " " ++ Accessor.block decl.accessors
  | .indexer decl =>
      decl.type.render ++ " this[" ++ Parameter.renderAll decl.parameters ++ "] " ++
        Accessor.block decl.accessors
  | .eventField type names => "event " ++ type.render ++ " " ++ Text.commaSeparated names ++ ";"
  | .event decl => "event " ++ decl.type.render ++ " " ++ decl.name ++ ";"

end Feature

inductive Member.Body where
  | feature (shown : Feature)
  | field (type : TypeRef) (names : List String)
  /-- A constructor, an operator or another member that no interface shows. -/
  | other (what : String)

structure Member where
  docs : Option DocComment
  sections : List AttributeSection
  modifiers : List String
  body : Member.Body

namespace Member

def isPublic (member : Member) : Bool :=
  hasModifier member.modifiers "public"

def isPrivate (member : Member) : Bool :=
  hasModifier member.modifiers "private"

def isStatic (member : Member) : Bool :=
  hasModifier member.modifiers "static"

def feature? (member : Member) : Option Feature :=
  match member.body with
  | .feature shown => some shown
  | .field _ _ | .other _ => none

end Member
end InterfaceGen
