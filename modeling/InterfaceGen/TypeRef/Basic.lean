/-!
Type references as they are written in C# source. Nothing here is resolved: `int` and
`System.Int32` are different references.
-/

namespace InterfaceGen

mutual

/-- A type as written. Text that does not follow the grammar is kept verbatim. -/
inductive TypeRef where
  | named (name : QualName)
  | array (element : TypeRef) (rank : Nat)
  | nullable (inner : TypeRef)
  | pointer (inner : TypeRef)
  | tuple (fields : List TupleField)
  | verbatim (text : String)

/-- A dotted name, with the alias before `::` if it has one. -/
structure QualName where
  aliasName : Option String
  segments : List Segment

/-- One dotted part of a name with its type arguments. -/
structure Segment where
  word : String
  arguments : List TypeRef

structure TupleField where
  type : TypeRef
  name : Option String

end

mutual

def TypeRef.decEq : (a b : TypeRef) → Decidable (a = b)
  | .named m, .named n =>
      match QualName.decEq m n with
      | .isTrue h => .isTrue (h ▸ rfl)
      | .isFalse h => .isFalse fun e => h (TypeRef.named.inj e)
  | .array s m, .array t n =>
      match TypeRef.decEq s t, Nat.decEq m n with
      | .isTrue h, .isTrue k => .isTrue (h ▸ k ▸ rfl)
      | .isFalse h, _ => .isFalse fun e => h (TypeRef.array.inj e).1
      | _, .isFalse k => .isFalse fun e => k (TypeRef.array.inj e).2
  | .nullable s, .nullable t =>
      match TypeRef.decEq s t with
      | .isTrue h => .isTrue (h ▸ rfl)
      | .isFalse h => .isFalse fun e => h (TypeRef.nullable.inj e)
  | .pointer s, .pointer t =>
      match TypeRef.decEq s t with
      | .isTrue h => .isTrue (h ▸ rfl)
      | .isFalse h => .isFalse fun e => h (TypeRef.pointer.inj e)
  | .tuple s, .tuple t =>
      match TupleField.decEqList s t with
      | .isTrue h => .isTrue (h ▸ rfl)
      | .isFalse h => .isFalse fun e => h (TypeRef.tuple.inj e)
  | .verbatim s, .verbatim t =>
      match decEq s t with
      | .isTrue h => .isTrue (h ▸ rfl)
      | .isFalse h => .isFalse fun e => h (TypeRef.verbatim.inj e)
  | .named _, .array .. | .named _, .nullable _ | .named _, .pointer _ | .named _, .tuple _
  | .named _, .verbatim _ | .array .., .named _ | .array .., .nullable _ | .array .., .pointer _
  | .array .., .tuple _ | .array .., .verbatim _ | .nullable _, .named _ | .nullable _, .array ..
  | .nullable _, .pointer _ | .nullable _, .tuple _ | .nullable _, .verbatim _
  | .pointer _, .named _ | .pointer _, .array .. | .pointer _, .nullable _ | .pointer _, .tuple _
  | .pointer _, .verbatim _ | .tuple _, .named _ | .tuple _, .array .. | .tuple _, .nullable _
  | .tuple _, .pointer _ | .tuple _, .verbatim _ | .verbatim _, .named _ | .verbatim _, .array ..
  | .verbatim _, .nullable _ | .verbatim _, .pointer _ | .verbatim _, .tuple _ =>
      .isFalse nofun

def QualName.decEq : (a b : QualName) → Decidable (a = b)
  | ⟨a, s⟩, ⟨b, t⟩ =>
      match decEq a b, Segment.decEqList s t with
      | .isTrue h, .isTrue k => .isTrue (h ▸ k ▸ rfl)
      | .isFalse h, _ => .isFalse fun e => h (QualName.mk.inj e).1
      | _, .isFalse k => .isFalse fun e => k (QualName.mk.inj e).2

def Segment.decEq : (a b : Segment) → Decidable (a = b)
  | ⟨a, s⟩, ⟨b, t⟩ =>
      match decEq a b, TypeRef.decEqList s t with
      | .isTrue h, .isTrue k => .isTrue (h ▸ k ▸ rfl)
      | .isFalse h, _ => .isFalse fun e => h (Segment.mk.inj e).1
      | _, .isFalse k => .isFalse fun e => k (Segment.mk.inj e).2

def TupleField.decEq : (a b : TupleField) → Decidable (a = b)
  | ⟨s, a⟩, ⟨t, b⟩ =>
      match TypeRef.decEq s t, decEq a b with
      | .isTrue h, .isTrue k => .isTrue (h ▸ k ▸ rfl)
      | .isFalse h, _ => .isFalse fun e => h (TupleField.mk.inj e).1
      | _, .isFalse k => .isFalse fun e => k (TupleField.mk.inj e).2

def TypeRef.decEqList : (a b : List TypeRef) → Decidable (a = b)
  | [], [] => .isTrue rfl
  | a :: as, b :: bs =>
      match TypeRef.decEq a b, TypeRef.decEqList as bs with
      | .isTrue h, .isTrue k => .isTrue (h ▸ k ▸ rfl)
      | .isFalse h, _ => .isFalse fun e => h (List.cons.inj e).1
      | _, .isFalse k => .isFalse fun e => k (List.cons.inj e).2
  | [], _ :: _ | _ :: _, [] => .isFalse nofun

def Segment.decEqList : (a b : List Segment) → Decidable (a = b)
  | [], [] => .isTrue rfl
  | a :: as, b :: bs =>
      match Segment.decEq a b, Segment.decEqList as bs with
      | .isTrue h, .isTrue k => .isTrue (h ▸ k ▸ rfl)
      | .isFalse h, _ => .isFalse fun e => h (List.cons.inj e).1
      | _, .isFalse k => .isFalse fun e => k (List.cons.inj e).2
  | [], _ :: _ | _ :: _, [] => .isFalse nofun

def TupleField.decEqList : (a b : List TupleField) → Decidable (a = b)
  | [], [] => .isTrue rfl
  | a :: as, b :: bs =>
      match TupleField.decEq a b, TupleField.decEqList as bs with
      | .isTrue h, .isTrue k => .isTrue (h ▸ k ▸ rfl)
      | .isFalse h, _ => .isFalse fun e => h (List.cons.inj e).1
      | _, .isFalse k => .isFalse fun e => k (List.cons.inj e).2
  | [], _ :: _ | _ :: _, [] => .isFalse nofun

end

instance : DecidableEq TypeRef := TypeRef.decEq
instance : DecidableEq QualName := QualName.decEq
instance : DecidableEq Segment := Segment.decEq
instance : DecidableEq TupleField := TupleField.decEq
instance : Inhabited TypeRef := ⟨.verbatim ""⟩

namespace QualName

def simple (word : String) : QualName :=
  ⟨none, [⟨word, []⟩]⟩

def last? (name : QualName) : Option Segment :=
  name.segments.getLast?

/-- The number of type arguments over all segments. -/
def arity (name : QualName) : Nat :=
  (name.segments.flatMap Segment.arguments).length

def words (name : QualName) : List String :=
  name.segments.map Segment.word

end QualName

namespace TypeRef

def simple (word : String) : TypeRef :=
  .named (.simple word)

def isVoid (type : TypeRef) : Bool :=
  type = simple "void"

/-- The word of the last segment of a name: `ITest` for `MyCode.ITest<int>`. -/
def lastWord? : TypeRef → Option String
  | .named name => name.last?.map Segment.word
  | _ => none

end TypeRef
end InterfaceGen
