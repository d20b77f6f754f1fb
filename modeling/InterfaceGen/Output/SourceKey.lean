import InterfaceGen.ResolvedType.Basic
import InterfaceGen.SourceFile.Basic

/-!
Source keys: the names under which generated sources are registered. A key is made of the name of
the interface and the place of the type: its namespace, the types around it, its own name and its
file, types with their arity.
-/

namespace InterfaceGen

structure Location where
  namespacePath : List String
  /-- The types around the type with their arities, outermost first. -/
  containers : List (String × Nat)
  name : String
  arity : Nat
  fileName : String
  deriving DecidableEq

def Location.ofSite? (file : SourceFile) (site : Site) : Option Location :=
  site.type?.map fun decl =>
    { namespacePath := site.namespacePath
      containers := site.containers.map fun container => (container.name, container.arity)
      name := decl.name
      arity := decl.arity
      fileName := file.fileName }

structure SourceKey where
  text : String
  deriving DecidableEq

namespace SourceKey

def ending : String := ".g.cs"

def derive (target : String) (location : Location) : SourceKey :=
  ⟨target ++ "_" ++ Text.joined (location.namespacePath.map (· ++ ".")) ++
    Text.joined (location.containers.map fun container =>
      container.1 ++ arityMark container.2 ++ ".") ++
    location.name ++ arityMark location.arity ++ "_" ++ location.fileName ++ ending⟩

/-- Keys are ordered by code points. -/
def le (a b : SourceKey) : Bool :=
  !decide (b.text < a.text)

/-- Drops each key that equals the one before it. -/
def dropRepeats : List SourceKey → List SourceKey
  | [] => []
  | [key] => [key]
  | key :: next :: rest =>
      if key = next then dropRepeats (next :: rest) else key :: dropRepeats (next :: rest)

/-- The keys in ascending order, each once. -/
def sortedUnique (keys : List SourceKey) : List SourceKey :=
  dropRepeats (keys.mergeSort le)

end SourceKey
end InterfaceGen
