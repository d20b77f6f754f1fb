import InterfaceGen.Attribute.Query

/-!
What a marker asks for. Each setting is read on its own: an argument that is absent or of another
form leaves that setting at its default and touches no other.
-/

namespace InterfaceGen

structure Settings where
  name : Option String
  modifiers : String
  namespaceName : Option String
  bases : List TypeRef
  containers : List String
  includeStatic : Bool
  deriving DecidableEq

namespace Settings

def defaultModifiers : String := "public partial"

def default : Settings :=
  ⟨none, defaultModifiers, none, [], [], false⟩

def ofMarker (marker : Attribute) : Settings where
  name := marker.text? "Name"
  modifiers := (marker.text? "Modifier").getD defaultModifiers
  namespaceName := marker.text? "Namespace"
  bases := marker.types "Inheritance"
  containers := marker.texts "Nested"
  includeStatic := (marker.bool? "StaticMembers").getD false

/-- The name of the interface for a type: without a setting, the type's name after an `I`. -/
def targetName (settings : Settings) (typeName : String) : String :=
  settings.name.getD ("I" ++ typeName)

/-- The namespace of the interface for a type in the namespace `source`. -/
def namespaceFor (settings : Settings) (source : List String) : String :=
  settings.namespaceName.getD (Text.separated "." source)

/-- An explicit implementation with this qualifier implements the interface for the type. Only the
last word of the qualifier counts. -/
def isTarget (settings : Settings) (typeName : String) (qualifier : TypeRef) : Bool :=
  qualifier.lastWord? = some (settings.targetName typeName)

end Settings
end InterfaceGen
