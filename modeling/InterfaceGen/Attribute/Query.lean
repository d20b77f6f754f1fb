import InterfaceGen.Attribute.Basic
import InterfaceGen.Text.Basic

/-!
Finding attributes by name and reading their named arguments. Every reader is total: an argument
that is absent or of another form gives `none` or no items.
-/

namespace InterfaceGen

/-- The ending that an attribute class may carry and its uses may leave out. -/
def Attribute.classEnding : String := "Attribute"

/-- The word names the attribute `base`: it is `base` itself, or as many bytes longer as the ending
has, with `base` at its start and the ending at its end. -/
def Attribute.wordNames (word base : String) : Bool :=
  if word.utf8ByteSize = base.utf8ByteSize then word = base
  else
    word.utf8ByteSize = base.utf8ByteSize + classEnding.utf8ByteSize &&
      base.toList.isPrefixOf word.toList && classEnding.toList.isSuffixOf word.toList

namespace AttributeSection

def allAttributes (sections : List AttributeSection) : List Attribute :=
  sections.flatMap AttributeSection.attributes

def named (sections : List AttributeSection) (base : String) : List Attribute :=
  (allAttributes sections).filter fun attr => Attribute.wordNames attr.word base

def firstNamed? (sections : List AttributeSection) (base : String) : Option Attribute :=
  (allAttributes sections).find? fun attr => Attribute.wordNames attr.word base

end AttributeSection

namespace ArgumentValue

def text? : ArgumentValue → Option String
  | .literal (.text value) => some value
  | _ => none

def bool? : ArgumentValue → Option Bool
  | .literal (.bool value) => some value
  | _ => none

def type? : ArgumentValue → Option TypeRef
  | .typeOf type => some type
  | _ => none

end ArgumentValue

namespace Attribute

def argument? (attr : Attribute) (name : String) : Option ArgumentValue :=
  ((attr.arguments.getD []).find? (·.name == some name)).map Argument.value

def text? (attr : Attribute) (name : String) : Option String :=
  (attr.argument? name).bind ArgumentValue.text?

def bool? (attr : Attribute) (name : String) : Option Bool :=
  (attr.argument? name).bind ArgumentValue.bool?

def elements (attr : Attribute) (name : String) : List ArgumentValue :=
  ((attr.argument? name).bind ArgumentValue.elements?).getD []

/-- The string literals among the elements. -/
def texts (attr : Attribute) (name : String) : List String :=
  (attr.elements name).filterMap ArgumentValue.text?

/-- The types of the `typeof` expressions among the elements. -/
def types (attr : Attribute) (name : String) : List TypeRef :=
  (attr.elements name).filterMap ArgumentValue.type?

end Attribute
end InterfaceGen
