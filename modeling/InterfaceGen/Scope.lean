import InterfaceGen.ResolvedType.Basic
import InterfaceGen.SourceFile.Basic

/-!
Scopes: what a name may refer to at a place, apart from the types themselves.
-/

namespace InterfaceGen

structure Scope where
  namespacePath : List String
  /-- The names of the types around the place, outermost first. -/
  enclosing : List String
  usings : List Using
  typeParameters : List String
  methodTypeParameters : List String
  deriving DecidableEq

namespace Scope

def empty : Scope :=
  ⟨[], [], [], [], []⟩

/-- The scope inside the node of a site. A type adds its own name and its type parameters; the
type parameters of the types around it are not in scope. -/
def ofSite (site : Site) : Scope where
  namespacePath := site.namespacePath
  enclosing := site.containers.map TypeDecl.name ++ (site.type?.map TypeDecl.name).toList
  usings := site.usingScopes.flatten
  typeParameters := (site.type?.map TypeDecl.typeParameterNames).getD []
  methodTypeParameters := []

def inMethod (scope : Scope) (parameters : List TypeParameter) : Scope :=
  { scope with methodTypeParameters := parameters.map TypeParameter.name }

/-- The type parameter with this name. Those of the method hide those of the type. -/
def typeParameter? (scope : Scope) (name : String) : Option ResolvedType :=
  match scope.methodTypeParameters.idxOf? name with
  | some ordinal => some (.parameter .method ordinal name)
  | none => (scope.typeParameters.idxOf? name).map fun ordinal => .parameter .type ordinal name

/-- The parts of a name in a using directive, without `global::` marks at its start. -/
def usingPath (name : String) : List String :=
  Text.dottedParts (Text.dropStarts "global::".toList (Text.trim name).toList)

/-- What a using alias stands for; of two directives with one alias the first counts. -/
def aliasTarget? (scope : Scope) (aliasName : String) : Option (List String) :=
  (scope.usings.find? (·.aliasName == some aliasName)).map fun directive =>
    usingPath directive.name

/-- The beginnings of a list with at least `least` items, longest first. -/
def startsDownTo (least : Nat) (path : List String) : List (List String) :=
  (List.range (path.length + 1 - least)).reverse.map fun length => path.take (length + least)

/-- The paths that `words` may stand for when no alias mark precedes them, in the order in which
they are tried: a using alias, the types around, the namespaces around, the namespaces in use. -/
def plainCandidates (scope : Scope) (words : List String) : List (List String) :=
  ((words.head?.bind scope.aliasTarget?).map (· ++ words.tail)).toList ++
    (startsDownTo 1 scope.enclosing).map (scope.namespacePath ++ · ++ words) ++
    (startsDownTo 0 scope.namespacePath).map (· ++ words) ++
    (scope.usings.filter fun directive => directive.aliasName.isNone && !directive.isStatic).map
      fun directive => usingPath directive.name ++ words

/-- The paths that a name may stand for. After `global::` there is one, after another alias mark
one at most. -/
def candidates (scope : Scope) (aliasName : Option String) (words : List String) :
    List (List String) :=
  match aliasName with
  | some "global" => [words]
  | some aliasName => ((scope.aliasTarget? aliasName).map (· ++ words)).toList
  | none => scope.plainCandidates words

end Scope
end InterfaceGen
