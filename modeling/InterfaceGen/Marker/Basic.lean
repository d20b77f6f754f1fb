import InterfaceGen.Attribute.Query

/-!
The marker attributes: the one that asks for an interface, the one that leaves a member out, and
those that put an access keyword before a member.
-/

namespace InterfaceGen
namespace Marker

/-- Asks for an interface of the marked type. -/
def request : String := "AutoInterface"

/-- Leaves the marked member out. -/
def ignore : String := "IgnoreAutoInterface"

/-- The markers for access keywords, each with its keyword. -/
def access : List (String × String) :=
  [("AutoInterfaceVisibilityPublic", "public"),
    ("AutoInterfaceVisibilityInternal", "internal"),
    ("AutoInterfaceVisibilityProtected", "protected"),
    ("AutoInterfaceVisibilityProtectedInternal", "protected internal"),
    ("AutoInterfaceVisibilityPrivateProtected", "private protected")]

def accessKeyword? (attr : Attribute) : Option String :=
  (access.find? fun marker => Attribute.wordNames attr.word marker.1).map Prod.snd

/-- The access keywords of all attributes in source order, each followed by a blank. -/
def accessKeywords (sections : List AttributeSection) : String :=
  Text.joined (((AttributeSection.allAttributes sections).filterMap accessKeyword?).map (· ++ " "))

end Marker
end InterfaceGen
