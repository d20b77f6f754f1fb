import InterfaceGen.Proofs.RecordDesugaring
import Mathlib.Data.List.Forall2

/-!
What a record has learned when members were seen: which of its parameters lost their property, and
whether `Deconstruct` is taken. Both are told by conditions on the members alone, that some member
among those seen is of the right form. So neither the order in which members are seen nor how often
they are seen counts, also where parameters share a name or one field declares several variables.
-/

namespace InterfaceGen
namespace Member

/-- The member is a field with a variable of this name, or a property of this name that is no
explicit implementation. -/
def TakesName (member : Member) (name : String) : Prop :=
  (∃ type names, member.body = .field type names ∧ name ∈ names) ∨
    ∃ decl, member.body = .feature (.property decl) ∧ decl.qualifier = none ∧ decl.name = name

/-- A declared parameter gives a parameter of the record back: it is marked `out`, and the types
mean the same. -/
def GivesBack (resolve : TypeRef → ResolvedType) (declared own : Parameter) : Prop :=
  "out" ∈ declared.modifiers ∧ (resolve declared.type).equivalent (resolve own.type) = true

/-- The member is a method `Deconstruct`, neither explicit nor generic nor static, whose parameters
give those of the record back one by one. -/
def TakesDeconstruct (resolve : TypeRef → ResolvedType) (parameters : List Parameter)
    (member : Member) : Prop :=
  ∃ decl, member.body = .feature (.method decl) ∧ decl.name = "Deconstruct" ∧
    decl.qualifier = none ∧ decl.typeParameters = [] ∧ "static" ∉ member.modifiers ∧
    List.Forall₂ (GivesBack resolve) decl.parameters parameters

theorem takesName_iff {member : Member} {name : String} :
    member.takesName name = true ↔ member.TakesName name := by
  obtain ⟨docs, sections, modifiers, body⟩ := member
  cases body with
  | field type names => simp [takesName, TakesName]
  | other what => simp [takesName, TakesName]
  | feature shown => cases shown <;> simp [takesName, TakesName]

theorem isDeconstructOf_iff {resolve : TypeRef → ResolvedType} {parameters : List Parameter}
    {member : Member} :
    member.isDeconstructOf resolve parameters = true ↔
      member.TakesDeconstruct resolve parameters := by
  obtain ⟨docs, sections, modifiers, body⟩ := member
  cases body with
  | field type names => simp [isDeconstructOf, TakesDeconstruct]
  | other what => simp [isDeconstructOf, TakesDeconstruct]
  | feature shown =>
      cases shown with
      | method decl =>
          simp [isDeconstructOf, TakesDeconstruct, isStatic, hasModifier, List.forall₂_iff_zip,
            GivesBack, and_assoc]
      | property decl => simp [isDeconstructOf, TakesDeconstruct]
      | indexer decl => simp [isDeconstructOf, TakesDeconstruct]
      | eventField type names => simp [isDeconstructOf, TakesDeconstruct]
      | event decl => simp [isDeconstructOf, TakesDeconstruct]

instance (member : Member) (name : String) : Decidable (member.TakesName name) :=
  decidable_of_iff _ takesName_iff

instance (resolve : TypeRef → ResolvedType) (parameters : List Parameter) (member : Member) :
    Decidable (member.TakesDeconstruct resolve parameters) :=
  decidable_of_iff _ isDeconstructOf_iff

end Member

namespace PrimaryConstructor

/-- What a record with these parameters has learned from these members. -/
def afterSeeing (resolve : TypeRef → ResolvedType) (parameters : List Parameter)
    (isMutable : Bool) (members : List Member) : PrimaryConstructor where
  parameters := parameters.map fun parameter =>
    ⟨parameter, ∃ member ∈ members, member.TakesName parameter.name⟩
  isDeconstructDeclared := ∃ member ∈ members, member.TakesDeconstruct resolve parameters
  isMutable

variable {resolve : TypeRef → ResolvedType} {parameters : List Parameter} {isMutable : Bool}

theorem foldl_observe_eq_afterSeeing (members : List Member) :
    members.foldl (·.observe resolve ·) ⟨parameters.map (⟨·, false⟩), false, isMutable⟩ =
      afterSeeing resolve parameters isMutable members := by
  have names (name : String) : members.any (·.takesName name) =
      decide (∃ member ∈ members, member.TakesName name) := by
    rw [Bool.eq_iff_iff]
    simp [Member.takesName_iff]
  have methods : members.any (Member.isDeconstructOf resolve parameters) =
      decide (∃ member ∈ members, member.TakesDeconstruct resolve parameters) := by
    rw [Bool.eq_iff_iff]
    simp [Member.isDeconstructOf_iff]
  have own : (parameters.map (PrimaryParameter.mk · false)).map PrimaryParameter.parameter =
      parameters := by simp [Function.comp_def]
  rw [foldl_observe, own, methods]
  simp [after, afterSeeing, names]

theorem isShadowed_afterSeeing (members : List Member) (i : Nat) :
    (afterSeeing resolve parameters isMutable members).isShadowed i = true ↔
      ∃ parameter ∈ parameters[i]?, ∃ member ∈ members, member.TakesName parameter.name := by
  cases found : parameters[i]? with
  | none => simp [isShadowed, afterSeeing, found]
  | some parameter => simp [isShadowed, afterSeeing, found]

theorem implied_afterSeeing (members : List Member) :
    (afterSeeing resolve parameters isMutable members).implied =
      (parameters.filter fun parameter =>
          ¬ ∃ member ∈ members, member.TakesName parameter.name).map (.property · isMutable) ++
        if ∃ member ∈ members, member.TakesDeconstruct resolve parameters then []
        else [.deconstruct parameters] := by
  simp only [implied, afterSeeing, List.filter_map, List.map_map, Function.comp_def, List.map_id',
    decide_not, decide_eq_true_eq]

theorem afterSeeing_congr {members others : List Member}
    (same : ∀ member, member ∈ others ↔ member ∈ members) :
    afterSeeing resolve parameters isMutable others =
      afterSeeing resolve parameters isMutable members := by
  simp only [afterSeeing, same]

/-- Whatever members a record with parameters sees, a parameter is shadowed exactly if a member of
its name was among them, `Deconstruct` is declared exactly if such a method was among them, and the
rest is implied, in the order of the parameters. Any other list of the same members, in whatever
order and however often, leaves the same record. -/
theorem observed_members (decl : TypeDecl) {parameters : List Parameter}
    (record : decl.kind.isRecord = true) (listed : decl.parameters = some parameters)
    (nonempty : parameters ≠ []) (resolver : Resolver) (scope : Scope) (members : List Member) :
    ∃ initial, ofType? decl = some initial ∧
      let resolve := (resolver.resolve · scope)
      let seen := members.foldl (·.observe resolve ·) initial
      let isMutable := decl.kind = .recordStruct && !hasModifier decl.modifiers "readonly"
      (∀ i, seen.isShadowed i = true ↔
        ∃ parameter ∈ parameters[i]?, ∃ member ∈ members, member.TakesName parameter.name) ∧
      (seen.isDeconstructDeclared = true ↔
        ∃ member ∈ members, member.TakesDeconstruct resolve parameters) ∧
      seen.implied =
        (parameters.filter fun parameter =>
            ¬ ∃ member ∈ members, member.TakesName parameter.name).map (.property · isMutable) ++
          (if ∃ member ∈ members, member.TakesDeconstruct resolve parameters then []
            else [.deconstruct parameters]) ∧
      ∀ others : List Member, (∀ member, member ∈ others ↔ member ∈ members) →
        others.foldl (·.observe resolve ·) initial = seen := by
  refine ⟨_, ofType?_of_record record listed nonempty, ?_⟩
  simp only [foldl_observe_eq_afterSeeing]
  refine ⟨isShadowed_afterSeeing members, ?_, implied_afterSeeing members, ?_⟩
  · simp only [afterSeeing, decide_eq_true_eq]
  · intro others same
    exact afterSeeing_congr same

/-- The record `Triple(int X, string Y, bool X)`, two parameters of which share a name. -/
def triple : TypeDecl where
  docs := none
  sections := []
  modifiers := []
  kind := .recordClass
  name := "Triple"
  typeParameters := []
  parameters := some
    [.plain (.simple "int") "X", .plain (.simple "string") "Y", .plain (.simple "bool") "X"]
  bases := []
  constraints := []
  members := []

/-- `int Z, X;`, then `string ITriple.Y`, then a method `Deconstruct` that spells `int` as
`System.Int32`. -/
def tripleMembers : List Member :=
  [ ⟨none, [], ["private"], .field (.simple "int") ["Z", "X"]⟩,
    ⟨none, [], [], .feature (.property
      ⟨.simple "string", some (.simple "ITriple"), "Y", some [⟨.get, []⟩]⟩)⟩,
    ⟨none, [], ["public"], .feature (.method
      ⟨.simple "void", none, "Deconstruct", [],
        [⟨[], ["out"], .ofText "System.Int32", "A", none⟩,
          ⟨[], ["out"], .simple "string", "B", none⟩, ⟨[], ["out"], .simple "bool", "C", none⟩],
        []⟩)⟩]

theorem observed_members_triple :
    ∃ initial, ofType? triple = some initial ∧
      let resolve := (TypeTable.initial.resolver.resolve · .empty)
      let seen := tripleMembers.foldl (·.observe resolve ·) initial
      seen.isShadowed 0 = true ∧ seen.isShadowed 2 = true ∧ seen.isDeconstructDeclared = true ∧
      seen.implied.map ImpliedMember.render = ["string Y \x7b get; init; \x7d"] ∧
      (tripleMembers.reverse ++ tripleMembers).foldl (·.observe resolve ·) initial = seen := by
  obtain ⟨initial, started, shadowed, declared, implied, orderless⟩ :=
    observed_members triple rfl rfl (List.cons_ne_nil _ _) TypeTable.initial.resolver .empty
      tripleMembers
  have field : ∃ member ∈ tripleMembers, member.TakesName "X" := by decide +kernel
  refine ⟨initial, started, (shadowed 0).mpr ⟨_, rfl, field⟩, (shadowed 2).mpr ⟨_, rfl, field⟩,
    declared.mpr (by decide +kernel), ?_, orderless _ (by simp)⟩
  rw [implied]
  decide +kernel

end PrimaryConstructor
end InterfaceGen
