import InterfaceGen.Text.Basic

/-!
Resolved types: what a type reference means. Names are full paths, and a type parameter is known by
its owner and its position; its name is kept for display only.
-/

namespace InterfaceGen

inductive ParameterOwner where
  | type
  | method
  deriving DecidableEq

inductive ResolvedType where
  | named (path : List String) (arguments : List ResolvedType)
  | parameter (owner : ParameterOwner) (ordinal : Nat) (name : String)
  | array (element : ResolvedType) (rank : Nat)
  | nullable (inner : ResolvedType)
  | pointer (inner : ResolvedType)
  | tuple (elements : List ResolvedType)
  /-- Text that no type could be read from. -/
  | unresolved (text : String)

/-- The keywords that name types, each with the type's name in `System`. -/
def keywordTypes : List (String × String) :=
  [("bool", "Boolean"), ("byte", "Byte"), ("sbyte", "SByte"), ("char", "Char"),
    ("decimal", "Decimal"), ("double", "Double"), ("float", "Single"), ("int", "Int32"),
    ("uint", "UInt32"), ("nint", "IntPtr"), ("nuint", "UIntPtr"), ("long", "Int64"),
    ("ulong", "UInt64"), ("short", "Int16"), ("ushort", "UInt16"), ("object", "Object"),
    ("string", "String"), ("void", "Void")]

/-- The mark for the number of type parameters after a name, absent for none. -/
def arityMark (arity : Nat) : String :=
  if arity = 0 then "" else "`" ++ toString arity

/-- The key under which a type is known: its dotted path and its arity. -/
def lookupKey (path : List String) (arity : Nat) : String :=
  Text.separated "." path ++ arityMark arity

namespace ResolvedType

def ofPath (path : String) : ResolvedType :=
  .named ((Text.pieces (· == '.') path.toList).map String.ofList) []

def ofKeyword? (keyword : String) : Option ResolvedType :=
  (keywordTypes.find? (·.1 == keyword)).map fun entry => .named ["System", entry.2] []

/-- Replaces the arguments of a named type; other types have none. -/
def withArguments (type : ResolvedType) (arguments : List ResolvedType) : ResolvedType :=
  match type with
  | .named path _ => .named path arguments
  | other => other

def lookupKey? : ResolvedType → Option String
  | .named path arguments => some (lookupKey path arguments.length)
  | _ => none

mutual

/-- Puts `arguments` for the type parameters of the declaring type. A parameter beyond them, and
every parameter of a method, stays. -/
def substitute (arguments : List ResolvedType) : ResolvedType → ResolvedType
  | .parameter .type ordinal name => arguments[ordinal]?.getD (.parameter .type ordinal name)
  | .parameter .method ordinal name => .parameter .method ordinal name
  | .named path own => .named path (substituteEach arguments own)
  | .array element rank => .array (substitute arguments element) rank
  | .nullable inner => .nullable (substitute arguments inner)
  | .pointer inner => .pointer (substitute arguments inner)
  | .tuple elements => .tuple (substituteEach arguments elements)
  | .unresolved text => .unresolved text

def substituteEach (arguments : List ResolvedType) : List ResolvedType → List ResolvedType
  | [] => []
  | type :: rest => substitute arguments type :: substituteEach arguments rest

end

@[simp] theorem substituteEach_eq_map (arguments types : List ResolvedType) :
    substituteEach arguments types = types.map (substitute arguments) := by
  induction types with
  | nil => rfl
  | cons type rest ih => simp [substituteEach, ih]

mutual

/-- Equality up to the names of type parameters. -/
def equivalent : ResolvedType → ResolvedType → Bool
  | .named p xs, .named q ys => p = q && equivalentEach xs ys
  | .parameter o i _, .parameter p j _ => o = p && i = j
  | .array x m, .array y n => m = n && equivalent x y
  | .nullable x, .nullable y => equivalent x y
  | .pointer x, .pointer y => equivalent x y
  | .tuple xs, .tuple ys => equivalentEach xs ys
  | .unresolved s, .unresolved t => s = t
  | _, _ => false

/-- Equivalence of lists, item by item; lists of different lengths are not equivalent. -/
def equivalentEach : List ResolvedType → List ResolvedType → Bool
  | [], [] => true
  | x :: xs, y :: ys => equivalent x y && equivalentEach xs ys
  | _, _ => false

end

def keyword? : List String → Option String
  | ["System", name] => (keywordTypes.find? (·.2 == name)).map Prod.fst
  | _ => none

mutual

/-- The written form: full paths, except that types with a keyword are written by it. -/
def render : ResolvedType → String
  | .named path [] => (keyword? path).getD (Text.separated "." path)
  | .named path (first :: rest) =>
      Text.separated "." path ++ Text.angleList (render first :: renderEach rest)
  | .parameter _ _ name => name
  | .array element rank => render element ++ "[" ++ Text.repeated "," (rank - 1) ++ "]"
  | .nullable inner => render inner ++ "?"
  | .pointer inner => render inner ++ "*"
  | .tuple elements => "(" ++ Text.commaSeparated (renderEach elements) ++ ")"
  | .unresolved text => text

def renderEach : List ResolvedType → List String
  | [] => []
  | type :: rest => render type :: renderEach rest

end

@[simp] theorem renderEach_eq_map (types : List ResolvedType) :
    renderEach types = types.map render := by
  induction types with
  | nil => rfl
  | cons type rest ih => simp [renderEach, ih]

end ResolvedType
end InterfaceGen
