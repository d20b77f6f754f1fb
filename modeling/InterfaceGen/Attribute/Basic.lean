import InterfaceGen.TypeRef.Basic
import InterfaceGen.TypeRef.Reader

/-!
Attributes and the expressions that stand as their arguments. Only the expressions that can carry
a setting have a shape of their own; any other is kept as text.
-/

namespace InterfaceGen

inductive Literal where
  | text (value : String)
  | bool (value : Bool)
  | number (digits : String)
  | char (value : Char)
  | null
  deriving DecidableEq

inductive ArgumentValue where
  | literal (value : Literal)
  | typeOf (type : TypeRef)
  | collection (items : List ArgumentValue)
  /-- An array creation that leaves its element type out. -/
  | implicitArray (items : List ArgumentValue)
  /-- An array creation, with its initializer if it has one. -/
  | newArray (type : TypeRef) (items : Option (List ArgumentValue))
  | other (text : String)

/-- An attribute argument, positional or as `Name = value`. -/
structure Argument where
  name : Option String
  value : ArgumentValue

/-- One attribute. Without parentheses it has no argument list, not an empty one. -/
structure Attribute where
  name : QualName
  arguments : Option (List Argument)

/-- Attributes in one pair of brackets, as in `[return: NotNull]`. -/
structure AttributeSection where
  target : Option String
  attributes : List Attribute

/-- The elements of an array expression in any of its three forms. An array creation without an
initializer has none to show, and neither has any other expression. -/
def ArgumentValue.elements? : ArgumentValue → Option (List ArgumentValue)
  | .collection items | .implicitArray items | .newArray _ (some items) => some items
  | .literal _ | .typeOf _ | .newArray _ none | .other _ => none

namespace Attribute

/-- An attribute by its name as written, with its arguments. -/
def ofText (name : String) (arguments : Option (List Argument)) : Attribute :=
  ⟨.ofText name, arguments⟩

/-- The last word of the name, by which markers are recognized. -/
def word (attr : Attribute) : String :=
  match attr.name.last? with
  | some segment => segment.word
  | none => ""

end Attribute
end InterfaceGen
