import InterfaceGen.TypeTable.Basic

/-!
Resolving type references against a table. A name stands for the first of its candidate paths that
is known with the arity of its last segment. A name that no candidate fits keeps the words it is
written with, or, after an alias mark, its first candidate.
-/

namespace InterfaceGen
namespace TypeTable

/-- The type that a name stands for, given its resolved arguments. Only a single word without an
alias mark and without arguments can be a type parameter or a keyword. -/
def resolveName (table : TypeTable) (scope : Scope) (name : QualName)
    (arguments : List ResolvedType) : ResolvedType :=
  let words := name.words
  let plain : Option ResolvedType :=
    match name.aliasName, arguments, words with
    | none, [], [word] => scope.typeParameter? word <|> ResolvedType.ofKeyword? word
    | _, _, _ => none
  let arity := (name.last?.map fun segment => segment.arguments.length).getD 0
  let candidates := scope.candidates name.aliasName words
  let fallback := if name.aliasName.isSome then candidates.head?.getD words else words
  plain.getD (.named ((candidates.find? (table.knows · arity)).getD fallback) arguments)

mutual

def resolve (table : TypeTable) (scope : Scope) : TypeRef → ResolvedType
  | .named ⟨aliasName, segments⟩ =>
      table.resolveName scope ⟨aliasName, segments⟩ (resolveArguments table scope segments)
  | .array element rank => .array (resolve table scope element) rank
  | .nullable inner => .nullable (resolve table scope inner)
  | .pointer inner => .pointer (resolve table scope inner)
  | .tuple fields => .tuple (resolveFields table scope fields)
  | .verbatim text => .unresolved text

def resolveArguments (table : TypeTable) (scope : Scope) : List Segment → List ResolvedType
  | [] => []
  | ⟨_, arguments⟩ :: rest =>
      resolveEach table scope arguments ++ resolveArguments table scope rest

def resolveEach (table : TypeTable) (scope : Scope) : List TypeRef → List ResolvedType
  | [] => []
  | type :: rest => resolve table scope type :: resolveEach table scope rest

def resolveFields (table : TypeTable) (scope : Scope) : List TupleField → List ResolvedType
  | [] => []
  | ⟨type, _⟩ :: rest => resolve table scope type :: resolveFields table scope rest

end

@[simp] theorem resolveEach_eq_map (table : TypeTable) (scope : Scope) (types : List TypeRef) :
    table.resolveEach scope types = types.map (table.resolve scope) := by
  induction types with
  | nil => rfl
  | cons type rest ih => simp [resolveEach, ih]

@[simp] theorem resolveFields_eq_map (table : TypeTable) (scope : Scope)
    (fields : List TupleField) :
    table.resolveFields scope fields =
      fields.map fun field => table.resolve scope field.type := by
  induction fields with
  | nil => rfl
  | cons field rest ih => cases field; simp [resolveFields, ih]

@[simp] theorem resolveArguments_eq_flatMap (table : TypeTable) (scope : Scope)
    (segments : List Segment) :
    table.resolveArguments scope segments =
      segments.flatMap fun segment => segment.arguments.map (table.resolve scope) := by
  induction segments with
  | nil => rfl
  | cons segment rest ih => cases segment; simp [resolveArguments, ih]

/-- The signatures that a declared interface shows: those of its features that are not private. -/
def shownSignatures (table : TypeTable) (entry : DeclaredInterface) : List Signature :=
  (entry.decl.members.filter (!·.isPrivate)).flatMap
    (·.signatures (fun type scope => table.resolve scope type) entry.scope)

/-- What a resolved type offers as an interface: the latest declaration under its key, with the
arguments put for the type parameters. -/
def interface? (table : TypeTable) (type : ResolvedType) : Option InterfaceView :=
  match type with
  | .named path arguments =>
      (table.interfaces.lookup (lookupKey path arguments.length)).map fun entry =>
        { type
          members := (table.shownSignatures entry).map (·.substitute arguments)
          bases := entry.decl.bases.map fun base =>
            (table.resolve entry.scope base).substitute arguments }
  | _ => none

def resolver (table : TypeTable) : Resolver where
  resolve := fun type scope => table.resolve scope type
  interface? := table.interface?

end TypeTable
end InterfaceGen
