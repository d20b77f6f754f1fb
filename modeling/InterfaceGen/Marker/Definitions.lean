import InterfaceGen.Marker.Basic

/-!
The source texts that define the marker attributes, registered once in each compilation so that
user code can apply the markers.
-/

namespace InterfaceGen
namespace Marker

/-- The first lines of every generated source. -/
def preamble : String :=
  "// <auto-generated/>\n#pragma warning disable\n#nullable enable annotations\n"

/-- The symbol that leaves the definitions out of a compilation. -/
def excludeSymbol : String := "AUTOINTERFACE_EXCLUDE_ATTRIBUTES"

def toolName : String := "autoiface"

def toolVersion : String := "0.1.0"

/-- A source text under the hint by which the compilation knows it. -/
structure Definition where
  hint : String
  text : String
  deriving DecidableEq

/-- An attribute class: what it is for, where it may stand, and its body. -/
structure AttributeClass where
  name : String
  summary : String
  usage : String
  body : String

def AttributeClass.render (marker : AttributeClass) : String :=
  preamble ++ "\n\n#if !" ++ excludeSymbol ++
    "\n\nusing System;\n\nnamespace AutoInterfaceAttributes;\n\n/// <summary>\n/// " ++
    marker.summary ++ "\n/// </summary>\n[AttributeUsage(" ++ marker.usage ++
    ")]\n[System.CodeDom.Compiler.GeneratedCodeAttribute(\"" ++ toolName ++ "\", \"" ++
    toolVersion ++ "\")]\ninternal sealed class " ++ marker.name ++ " : Attribute " ++
    marker.body ++ "\n\n#endif\n"

/-- An argument of the requesting marker, with two sentences about it. -/
structure MarkerArgument where
  type : String
  name : String
  value : String
  purpose : String
  remark : String

def MarkerArgument.render (argument : MarkerArgument) : String :=
  "    /// <summary>\n    /// <para>" ++ argument.purpose ++ "</para>\n    /// <para>" ++
    argument.remark ++ "</para>\n    /// </summary>\n    public " ++ argument.type ++ " " ++
    argument.name ++ " \x7b get; init; \x7d = " ++ argument.value ++ ";\n"

/-- The arguments that `Settings.ofMarker` reads. -/
def requestArguments : List MarkerArgument :=
  [⟨"string", "Name", "string.Empty", "The name of the generated interface.",
      "Default is \"I\x7bClassName\x7d\"."⟩,
    ⟨"string", "Modifier", "\"public partial\"", "The modifier(s) of the generated interface.",
      "Default is \"public partial\"."⟩,
    ⟨"string", "Namespace", "string.Empty", "The namespace of the generated interface.",
      "Default is the namespace of the class, an empty string means no namespace."⟩,
    ⟨"Type[]", "Inheritance", "[]", "The interfaces the generated interface inherits from.",
      "Members already present in one of these are not generated again."⟩,
    ⟨"string[]", "Nested", "[]",
      "Declarations of the types the generated interface is nested in, outermost first.",
      "e.g. \"public partial class Outer\""⟩,
    ⟨"bool", "StaticMembers", "false",
      "Whether static members are generated as static abstract members.", "Default is false."⟩]

def requestClass : AttributeClass where
  name := "AutoInterfaceAttribute"
  summary := "Generates an interface for the decorated class/struct."
  usage := "AttributeTargets.Class | AttributeTargets.Struct, AllowMultiple = true"
  body :=
    "\x7b\n" ++ Text.separated "\n" (requestArguments.map MarkerArgument.render) ++ "\x7d"

/-- A marker for members, which takes no arguments. -/
def memberClass (name summary : String) : AttributeClass where
  name
  summary
  usage := "AttributeTargets.Property | AttributeTargets.Method | AttributeTargets.Event"
  body := "\x7b \x7d"

def ignoreClass : AttributeClass :=
  memberClass "IgnoreAutoInterfaceAttribute"
    "The decorated member will be ignored by the generator."

def accessClass (name keyword : String) : AttributeClass :=
  memberClass name ("Adds a \"" ++ keyword ++ "\" access modifier to the interface member.")

/-- The definitions of all markers in the order in which they are registered. -/
def definitions : List Definition :=
  ([requestClass, ignoreClass] ++ access.map fun marker => accessClass marker.1 marker.2).map
    fun marker => ⟨marker.name ++ ".g.cs", marker.render⟩

end Marker
end InterfaceGen
