import InterfaceGen.Text.Basic
import InterfaceGen.TypeRef.Basic

/-!
The written form of type references. Type arguments and tuple elements are separated by a comma and
a space, an array of rank `r` has `r - 1` commas between its brackets, and verbatim text stands as
it is.
-/

namespace InterfaceGen

mutual

def TypeRef.render : TypeRef → String
  | .named name => name.render
  | .array element rank => element.render ++ "[" ++ Text.repeated "," (rank - 1) ++ "]"
  | .nullable inner => inner.render ++ "?"
  | .pointer inner => inner.render ++ "*"
  | .tuple fields => "(" ++ Text.commaSeparated (TupleField.renderEach fields) ++ ")"
  | .verbatim text => text

def QualName.render : QualName → String
  | ⟨none, segments⟩ => Text.separated "." (Segment.renderEach segments)
  | ⟨some aliasName, segments⟩ =>
      aliasName ++ "::" ++ Text.separated "." (Segment.renderEach segments)

def Segment.render : Segment → String
  | ⟨word, arguments⟩ => word ++ Text.angleList (TypeRef.renderEach arguments)

def TupleField.render : TupleField → String
  | ⟨type, none⟩ => type.render
  | ⟨type, some name⟩ => type.render ++ " " ++ name

def TypeRef.renderEach : List TypeRef → List String
  | [] => []
  | type :: rest => type.render :: TypeRef.renderEach rest

def Segment.renderEach : List Segment → List String
  | [] => []
  | segment :: rest => segment.render :: Segment.renderEach rest

def TupleField.renderEach : List TupleField → List String
  | [] => []
  | field :: rest => field.render :: TupleField.renderEach rest

end

@[simp] theorem TypeRef.renderEach_eq_map (types : List TypeRef) :
    TypeRef.renderEach types = types.map TypeRef.render := by
  induction types with
  | nil => rfl
  | cons type rest ih => simp [TypeRef.renderEach, ih]

@[simp] theorem Segment.renderEach_eq_map (segments : List Segment) :
    Segment.renderEach segments = segments.map Segment.render := by
  induction segments with
  | nil => rfl
  | cons segment rest ih => simp [Segment.renderEach, ih]

@[simp] theorem TupleField.renderEach_eq_map (fields : List TupleField) :
    TupleField.renderEach fields = fields.map TupleField.render := by
  induction fields with
  | nil => rfl
  | cons field rest ih => simp [TupleField.renderEach, ih]

theorem QualName.render_simple (word : String) : (QualName.simple word).render = word := by
  simp [QualName.simple, QualName.render, Segment.render, Text.separated, Text.angleList]

end InterfaceGen
