import InterfaceGen.TypeTable.Resolution

/-!
Equivalence as equality of erasures. Erasing blanks the names of type parameters and keeps
everything else, so two types are equivalent exactly when their erasures are one type. Substitution
and the lookup of interfaces commute with erasure; hence equivalent types offer the same members
and the same bases, up to names.
-/

namespace InterfaceGen
namespace ResolvedType

/-- Induction with a hypothesis for each argument and for each tuple element. -/
@[elab_as_elim, induction_eliminator]
theorem inductionOn {motive : ResolvedType → Prop}
    (named : ∀ path arguments, (∀ type ∈ arguments, motive type) → motive (.named path arguments))
    (parameter : ∀ owner ordinal name, motive (.parameter owner ordinal name))
    (array : ∀ element rank, motive element → motive (.array element rank))
    (nullable : ∀ inner, motive inner → motive (.nullable inner))
    (pointer : ∀ inner, motive inner → motive (.pointer inner))
    (tuple : ∀ elements, (∀ type ∈ elements, motive type) → motive (.tuple elements))
    (unresolved : ∀ text, motive (.unresolved text))
    (type : ResolvedType) : motive type := by
  refine @ResolvedType.rec motive (fun types => ∀ type ∈ types, motive type)
    named parameter array nullable pointer tuple unresolved ?_ ?_ type
  · intro type member
    cases member
  · intro head tail ihHead ihTail type member
    obtain rfl | later := List.mem_cons.mp member
    · exact ihHead
    · exact ihTail type later

mutual

/-- The type with every type-parameter name in it blanked. -/
def erase : ResolvedType → ResolvedType
  | .named path arguments => .named path (eraseEach arguments)
  | .parameter owner ordinal _ => .parameter owner ordinal ""
  | .array element rank => .array (erase element) rank
  | .nullable inner => .nullable (erase inner)
  | .pointer inner => .pointer (erase inner)
  | .tuple elements => .tuple (eraseEach elements)
  | .unresolved text => .unresolved text

def eraseEach : List ResolvedType → List ResolvedType
  | [] => []
  | type :: rest => erase type :: eraseEach rest

end

@[simp] theorem eraseEach_eq_map (types : List ResolvedType) :
    eraseEach types = types.map erase := by
  induction types with
  | nil => rfl
  | cons type rest ih => simp [eraseEach, ih]

theorem equivalentEach_iff_map_erase {xs : List ResolvedType}
    (h : ∀ x ∈ xs, ∀ y, x.equivalent y = true ↔ x.erase = y.erase) (ys : List ResolvedType) :
    equivalentEach xs ys = true ↔ xs.map erase = ys.map erase := by
  induction xs generalizing ys with
  | nil => cases ys <;> simp [equivalentEach]
  | cons x xs ih =>
      cases ys with
      | nil => simp [equivalentEach]
      | cons y ys =>
          have hx := h x (by simp) y
          have hxs := ih (fun x hx => h x (by simp [hx])) ys
          simp [equivalentEach, hx, hxs]

theorem equivalent_iff_erase (a b : ResolvedType) :
    a.equivalent b = true ↔ a.erase = b.erase := by
  induction a generalizing b with
  | named path arguments ih =>
      cases b <;> simp [equivalent, erase, equivalentEach_iff_map_erase ih]
  | parameter owner ordinal name => cases b <;> simp [equivalent, erase]
  | array element rank ih => cases b <;> simp [equivalent, erase, ih, and_comm]
  | nullable inner ih | pointer inner ih => cases b <;> simp [equivalent, erase, ih]
  | tuple elements ih => cases b <;> simp [equivalent, erase, equivalentEach_iff_map_erase ih]
  | unresolved text => cases b <;> simp [equivalent, erase]

theorem equivalent_refl (a : ResolvedType) : a.equivalent a = true :=
  (equivalent_iff_erase a a).mpr rfl

theorem equivalent_symm {a b : ResolvedType} (h : a.equivalent b = true) :
    b.equivalent a = true := by
  rw [equivalent_iff_erase] at h ⊢
  exact h.symm

theorem equivalent_trans {a b c : ResolvedType} (hab : a.equivalent b = true)
    (hbc : b.equivalent c = true) : a.equivalent c = true := by
  rw [equivalent_iff_erase] at hab hbc ⊢
  exact hab.trans hbc

theorem erase_substitute (arguments : List ResolvedType) (type : ResolvedType) :
    (type.substitute arguments).erase = type.erase.substitute (arguments.map erase) := by
  induction type with
  | parameter owner ordinal name =>
      cases owner with
      | method => simp [substitute, erase]
      | type => cases h : arguments[ordinal]? <;> simp [substitute, erase, h]
  | named path own ih | tuple own ih => simpa [substitute, erase] using ih
  | array element rank ih | nullable inner ih | pointer inner ih => simp [substitute, erase, ih]
  | unresolved text => simp [substitute, erase]

end ResolvedType

def ParameterType.erase (parameter : ParameterType) : ParameterType :=
  ⟨parameter.type.erase, parameter.mode⟩

theorem ParameterType.equivalentEach_iff_map_erase (as bs : List ParameterType) :
    equivalentEach as bs = true ↔ as.map erase = bs.map erase := by
  induction as generalizing bs with
  | nil => cases bs <;> simp [equivalentEach]
  | cons a as ih =>
      cases bs with
      | nil => simp [equivalentEach]
      | cons b bs =>
          simp [equivalentEach, equivalent, erase, ih, ResolvedType.equivalent_iff_erase, and_comm]

namespace Signature

/-- The signature with the type-parameter names in its types blanked. -/
def erase (signature : Signature) : Signature :=
  { signature with
    type := signature.type.erase
    parameters := signature.parameters.map ParameterType.erase }

theorem equivalent_iff_erase (a b : Signature) : a.equivalent b = true ↔ a.erase = b.erase := by
  simp only [equivalent, erase, Bool.and_eq_true, decide_eq_true_eq, mk.injEq,
    ResolvedType.equivalent_iff_erase, ParameterType.equivalentEach_iff_map_erase]
  grind

theorem erase_substitute (arguments : List ResolvedType) (signature : Signature) :
    (signature.substitute arguments).erase =
      signature.erase.substitute (arguments.map ResolvedType.erase) := by
  simp [substitute, erase, ParameterType.substitute, ParameterType.erase,
    ResolvedType.erase_substitute]

end Signature

/-- The view with the type-parameter names blanked throughout. -/
def InterfaceView.erase (view : InterfaceView) : InterfaceView where
  type := view.type.erase
  members := view.members.map Signature.erase
  bases := view.bases.map ResolvedType.erase

namespace TypeTable

/-- Equivalent types are looked up under one key, which is made of the path and of the number of
arguments, and so they offer the same members and bases up to names. -/
theorem interface?_congr (table : TypeTable) {a b : ResolvedType} (h : a.equivalent b = true) :
    (table.interface? a).map InterfaceView.erase =
      (table.interface? b).map InterfaceView.erase := by
  rw [ResolvedType.equivalent_iff_erase] at h
  cases a with
  | named path xs =>
      cases b <;> simp [ResolvedType.erase] at h
      case named other ys =>
        obtain ⟨rfl, arguments⟩ := h
        have lengths : xs.length = ys.length := by
          simpa using congrArg List.length arguments
        simp only [interface?, lengths]
        cases table.interfaces.lookup (lookupKey path ys.length) with
        | none => rfl
        | some entry =>
            simp [InterfaceView.erase, Signature.erase_substitute,
              ResolvedType.erase_substitute, ResolvedType.erase, arguments]
  | parameter | array | nullable | pointer | tuple | unresolved =>
      cases b <;> simp [ResolvedType.erase] at h
      rfl

end TypeTable
end InterfaceGen
