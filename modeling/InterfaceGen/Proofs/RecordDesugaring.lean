import InterfaceGen.Proofs.ProjectedMembers

/-!
A record is projected like the class that spells out what the record implies. The class has the
members of the record's body and after them a public property for each parameter whose name the
body leaves free, and a public `Deconstruct` unless the body has one. Implied members have a
printer, a signature and a check against the bases of their own; all three agree with those of the
members spelled out. The two projections go through the same entries and make the same searches, so
that they have the same members or, if one of the searches does not end, neither has any.
-/

namespace InterfaceGen

namespace Member

/-- The member is a field or property of this name. Explicit implementations take no name. -/
def takesName (member : Member) (name : String) : Bool :=
  match member.body with
  | .field _ names => names.contains name
  | .feature (.property decl) => decl.qualifier.isNone && decl.name = name
  | _ => false

/-- The member is an instance method `Deconstruct` with an `out` parameter for each of these, of an
equivalent type. -/
def isDeconstructOf (resolve : TypeRef → ResolvedType) (parameters : List Parameter)
    (member : Member) : Bool :=
  match member.body with
  | .feature (.method decl) =>
      decl.name = "Deconstruct" && decl.qualifier.isNone && decl.typeParameters.isEmpty &&
        !member.isStatic && decl.parameters.length = parameters.length &&
        (decl.parameters.zip parameters).all fun pair =>
          hasModifier pair.1.modifiers "out" &&
            (resolve pair.1.type).equivalent (resolve pair.2.type)
  | _ => false

/-- The public property that a record parameter stands for. -/
def ofRecordParameter (isMutable : Bool) (parameter : Parameter) : Member :=
  ⟨none, [], ["public"], .feature (.property
    { type := parameter.type
      qualifier := none
      name := parameter.name
      accessors := some [⟨.get, []⟩, ⟨if isMutable then .set else .init, []⟩] })⟩

/-- The public method that gives the parameters of a record back. -/
def deconstructOf (parameters : List Parameter) : Member :=
  ⟨none, [], ["public"], .feature (.method
    { result := .simple "void"
      qualifier := none
      name := "Deconstruct"
      typeParameters := []
      parameters := parameters.map fun parameter =>
        ⟨[], ["out"], parameter.type, parameter.name, none⟩
      constraints := [] })⟩

end Member

namespace TypeDecl

/-- The class with the members of a record's body and those that the record implies. -/
def desugared (resolve : TypeRef → ResolvedType) (decl : TypeDecl) : TypeDecl :=
  let parameters := decl.parameters.getD []
  let isMutable := decl.kind = .recordStruct && !hasModifier decl.modifiers "readonly"
  let isFree := fun parameter : Parameter => !decl.members.any (·.takesName parameter.name)
  { decl with
    kind := .classType
    parameters := none
    members := decl.members ++
      (parameters.filter isFree).map (Member.ofRecordParameter isMutable) ++
      if decl.members.any (Member.isDeconstructOf resolve parameters) then []
      else [Member.deconstructOf parameters] }

end TypeDecl

namespace PrimaryConstructor

theorem deconstructs_eq_zip (resolve : TypeRef → ResolvedType)
    (declared record : List Parameter) :
    deconstructs resolve declared record =
      (decide (declared.length = record.length) &&
        (declared.zip record).all fun pair =>
          hasModifier pair.1.modifiers "out" &&
            (resolve pair.1.type).equivalent (resolve pair.2.type)) := by
  induction declared generalizing record with
  | nil => cases record <;> simp [deconstructs]
  | cons first rest ih =>
      cases record with
      | nil => simp [deconstructs]
      | cons own more =>
          simp only [deconstructs, ih, List.length_cons, Nat.add_right_cancel_iff,
            List.zip_cons_cons, List.all_cons]
          exact Bool.and_left_comm ..

theorem ofType?_of_record {decl : TypeDecl} {parameters : List Parameter}
    (record : decl.kind.isRecord = true) (listed : decl.parameters = some parameters)
    (nonempty : parameters ≠ []) :
    ofType? decl =
      some ⟨parameters.map (⟨·, false⟩), false,
        decl.kind = .recordStruct && !hasModifier decl.modifiers "readonly"⟩ := by
  obtain ⟨first, rest, rfl⟩ := List.exists_cons_of_ne_nil nonempty
  simp only [ofType?, record, listed]

/-- The record after some members were seen that take the names `taken` and of which one may be
`Deconstruct`. -/
def after (record : PrimaryConstructor) (taken : String → Bool) (isDeconstructed : Bool) :
    PrimaryConstructor where
  parameters := record.parameters.map fun entry =>
    ⟨entry.parameter, entry.isShadowed || taken entry.parameter.name⟩
  isDeconstructDeclared := record.isDeconstructDeclared || isDeconstructed
  isMutable := record.isMutable

theorem after_none (record : PrimaryConstructor) :
    record.after (fun _ => false) false = record := by
  simp [after]

theorem after_after (record : PrimaryConstructor) (taken more : String → Bool)
    (isDeconstructed now : Bool) :
    (record.after taken isDeconstructed).after more now =
      record.after (fun name => taken name || more name) (isDeconstructed || now) := by
  simp [after, Bool.or_assoc]

theorem shadow_eq_after (record : PrimaryConstructor) (name : String) :
    record.shadow name = record.after (fun other => other = name) false := by
  simp [shadow, after]

theorem foldl_shadow (record : PrimaryConstructor) (names : List String) :
    names.foldl shadow record = record.after names.contains false := by
  induction names generalizing record with
  | nil => exact (after_none record).symm
  | cons name rest ih =>
      rw [List.foldl_cons, ih, shadow_eq_after, after_after]
      rfl

theorem observe_eq_after (resolve : TypeRef → ResolvedType) (record : PrimaryConstructor)
    (member : Member) :
    record.observe resolve member =
      record.after member.takesName
        (member.isDeconstructOf resolve (record.parameters.map PrimaryParameter.parameter)) := by
  obtain ⟨docs, sections, modifiers, body⟩ := member
  cases body with
  | field type names => exact foldl_shadow record names
  | other what => exact (after_none record).symm
  | feature shown =>
      cases shown with
      | property decl =>
          have taken : Member.takesName ⟨docs, sections, modifiers, .feature (.property decl)⟩ =
              fun name => decl.qualifier.isNone && decide (decl.name = name) := rfl
          cases explicit : decl.qualifier with
          | none =>
              simp [observe, explicit, taken, shadow_eq_after, Member.isDeconstructOf, eq_comm]
          | some qualifier => simp [observe, explicit, taken, Member.isDeconstructOf, after_none]
      | method decl =>
          have same : record.isDeconstruct resolve (hasModifier modifiers "static") decl =
              Member.isDeconstructOf resolve (record.parameters.map PrimaryParameter.parameter)
                ⟨docs, sections, modifiers, .feature (.method decl)⟩ := by
            simp only [isDeconstruct, Member.isDeconstructOf, Member.isStatic, deconstructs_eq_zip,
              Bool.and_assoc]
          simp only [observe, Member.isStatic, same]
          split
          · rename_i declared
            simp [declared, after, Member.takesName]
          · rename_i absent
            rw [eq_false_of_ne_true absent]
            exact (after_none record).symm
      | indexer decl => exact (after_none record).symm
      | eventField type names => exact (after_none record).symm
      | event decl => exact (after_none record).symm

theorem parameters_after (record : PrimaryConstructor) (taken : String → Bool)
    (isDeconstructed : Bool) :
    (record.after taken isDeconstructed).parameters.map PrimaryParameter.parameter =
      record.parameters.map PrimaryParameter.parameter := by
  simp [after]

/-- What a record knows of its body when all members have been seen. -/
theorem foldl_observe (resolve : TypeRef → ResolvedType) (record : PrimaryConstructor)
    (members : List Member) :
    members.foldl (·.observe resolve ·) record =
      record.after (fun name => members.any (·.takesName name))
        (members.any (Member.isDeconstructOf resolve
          (record.parameters.map PrimaryParameter.parameter))) := by
  induction members generalizing record with
  | nil => exact (after_none record).symm
  | cons member rest ih =>
      rw [List.foldl_cons, ih, observe_eq_after, parameters_after, after_after]
      rfl

end PrimaryConstructor

namespace ImpliedMember

/-- The member spelled out. -/
def declared : ImpliedMember → Member
  | .property parameter isMutable => Member.ofRecordParameter isMutable parameter
  | .deconstruct parameters => Member.deconstructOf parameters

theorem block_accessors (isMutable : Bool) :
    Accessor.block (some [⟨.get, []⟩, ⟨if isMutable then .set else .init, []⟩]) =
      "\x7b get; " ++ if isMutable then "set; \x7d" else "init; \x7d" := by
  cases isMutable <;> decide +kernel

theorem feature?_declared (member : ImpliedMember) :
    ∃ feature, member.declared.feature? = some feature ∧ feature.render = member.render := by
  cases member with
  | property parameter isMutable =>
      refine ⟨_, rfl, ?_⟩
      have blank : (" " : String) ++ "\x7b get; " = " \x7b get; " := by decide +kernel
      show _ = parameter.type.render ++ " " ++ parameter.name ++ " \x7b get; " ++
        if isMutable then "set; \x7d" else "init; \x7d"
      rw [Feature.render, block_accessors, ← blank]
      simp only [String.append_assoc]
  | deconstruct parameters =>
      refine ⟨_, rfl, ?_⟩
      have result : (TypeRef.simple "void").render = "void" := by decide +kernel
      have start : ("void" : String) ++ (" " ++ ("Deconstruct" ++ "(")) = "void Deconstruct(" := by
        decide +kernel
      show _ = "void Deconstruct(" ++ Text.commaSeparated (parameters.map fun parameter =>
        "out " ++ parameter.type.render ++ " " ++ parameter.name) ++ ");"
      rw [Feature.render, result, ← start]
      simp [Parameter.renderAll, Parameter.render, Text.joined, Text.angleList,
        String.append_assoc, Function.comp_def]

theorem signatures_declared (resolver : Resolver) {scope : Scope}
    (plain : scope.methodTypeParameters = []) (member : ImpliedMember) :
    member.declared.signatures resolver.resolve scope =
      [member.signature (resolver.resolve · scope)] := by
  cases member with
  | property parameter isMutable => cases isMutable <;> rfl
  | deconstruct parameters =>
      have inner : scope.inMethod [] = scope := by
        rw [Scope.inMethod, List.map_nil, ← plain]
      simp only [declared, Member.deconstructOf, Member.signatures, Member.feature?,
        Feature.signatures, inner, signature, List.map_map]
      rfl

end ImpliedMember

namespace Projection

section Declared
variable (p : Projection) (member : ImpliedMember)

theorem admitsFeature_declared (feature : Feature) :
    p.AdmitsFeature member.declared feature := by
  have sections : member.declared.sections = [] := by cases member <;> rfl
  have isPublic : member.declared.isPublic = true := by cases member <;> rfl
  have isStatic : member.declared.isStatic = false := by cases member <;> rfl
  simp [AdmitsFeature, sections, isPublic, isStatic, AttributeSection.allAttributes]

variable (plain : p.scope.methodTypeParameters = [])
include plain

theorem leavesToBases_declared :
    p.LeavesToBases member.declared ↔ p.leavesOutImplied member = true := by
  have isPublic : member.declared.isPublic = true := by cases member <;> rfl
  have signatures : member.declared.signatures p.resolver.resolve p.scope =
      [member.signature p.resolve] :=
    member.signatures_declared p.resolver plain
  rw [leavesOutImplied_iff]
  simp [LeavesToBases, isPublic, signatures]

theorem declaredEntry?_declared :
    p.declaredEntry? member.declared =
      if p.leavesOutImplied member then none else some ⟨none, [], member.render⟩ := by
  obtain ⟨feature, found, rendered⟩ := member.feature?_declared
  have docs : member.declared.docs = none := by cases member <;> rfl
  have sections : member.declared.sections = [] := by cases member <;> rfl
  have isStatic : member.declared.isStatic = false := by cases member <;> rfl
  have shows : p.Shows member.declared feature ↔ ¬ p.leavesOutImplied member = true := by
    rw [Shows, p.leavesToBases_declared member plain]
    exact and_iff_right (p.admitsFeature_declared member feature)
  have keywords : Marker.accessKeywords [] = "" := rfl
  simp only [found, declaredEntry?, Option.bind_some, shows, docs, sections, isStatic, rendered,
    keywords]
  by_cases out : p.leavesOutImplied member = true <;> simp [out]

/-- The member spelled out is searched for exactly like the implied one. -/
theorem endsFor_declared : p.EndsFor member.declared ↔ p.EndsForImplied member := by
  obtain ⟨feature, found, -⟩ := member.feature?_declared
  have isPublic : member.declared.isPublic = true := by cases member <;> rfl
  have signatures : member.declared.signatures p.resolver.resolve p.scope =
      [member.signature p.resolve] :=
    member.signatures_declared p.resolver plain
  simp [EndsFor, EndsForImplied, found, isPublic, signatures, searchedFor,
    p.admitsFeature_declared member feature]

end Declared

theorem impliedMembers_of_record (p : Projection) {parameters : List Parameter}
    (record : p.decl.kind.isRecord = true) (listed : p.decl.parameters = some parameters)
    (nonempty : parameters ≠ []) :
    p.impliedMembers =
      (parameters.filter fun parameter => !p.decl.members.any (·.takesName parameter.name)).map
          (.property · (p.decl.kind = .recordStruct && !hasModifier p.decl.modifiers "readonly")) ++
        if p.decl.members.any (Member.isDeconstructOf p.resolve parameters) then []
        else [.deconstruct parameters] := by
  simp only [impliedMembers, PrimaryConstructor.ofType?_of_record record listed nonempty,
    PrimaryConstructor.foldl_observe, PrimaryConstructor.implied, PrimaryConstructor.after,
    Bool.false_or, List.map_map, List.filter_map, Function.comp_def, List.map_id']

/-- The class has the members of the body and the implied ones spelled out. -/
theorem desugared_members (p : Projection) {parameters : List Parameter}
    (record : p.decl.kind.isRecord = true) (listed : p.decl.parameters = some parameters)
    (nonempty : parameters ≠ []) :
    (p.decl.desugared p.resolve).members =
      p.decl.members ++ p.impliedMembers.map ImpliedMember.declared := by
  rw [p.impliedMembers_of_record record listed nonempty, List.map_append, List.map_map,
    ← List.append_assoc]
  simp only [TypeDecl.desugared, listed, Option.getD_some]
  congr 1
  split <;> rfl

theorem filterMap_declared (p : Projection) (plain : p.scope.methodTypeParameters = [])
    (implied : List ImpliedMember) :
    (implied.map ImpliedMember.declared).filterMap p.declaredEntry? =
      (implied.filter (!p.leavesOutImplied ·)).map (⟨none, [], ·.render⟩) := by
  induction implied with
  | nil => rfl
  | cons member rest ih =>
      rw [List.map_cons, List.filterMap_cons, p.declaredEntry?_declared member plain, ih]
      by_cases out : p.leavesOutImplied member = true <;> simp [out]

/-- The class has the entries of the record. -/
theorem entries_desugared (p : Projection) {parameters : List Parameter}
    (record : p.decl.kind.isRecord = true) (listed : p.decl.parameters = some parameters)
    (nonempty : parameters ≠ []) (plain : p.scope.methodTypeParameters = [])
    (isLeftOut : ImpliedMember → Bool) :
    { p with decl := p.decl.desugared p.resolve }.entries isLeftOut =
      p.entries p.leavesOutImplied := by
  have classEntries : { p with decl := p.decl.desugared p.resolve }.entries isLeftOut =
      (p.decl.desugared p.resolve).members.filterMap p.declaredEntry? :=
    List.append_nil _
  rw [classEntries, p.desugared_members record listed nonempty, List.filterMap_append,
    p.filterMap_declared plain]
  rfl

/-- The class makes the searches of the record. -/
theorem searchesEnd_desugared (p : Projection) {parameters : List Parameter}
    (record : p.decl.kind.isRecord = true) (listed : p.decl.parameters = some parameters)
    (nonempty : parameters ≠ []) (plain : p.scope.methodTypeParameters = []) :
    { p with decl := p.decl.desugared p.resolve }.SearchesEnd ↔ p.SearchesEnd := by
  have spelledOut : ∀ member : ImpliedMember, p.EndsFor member.declared ↔ p.EndsForImplied member :=
    fun member => p.endsFor_declared member plain
  have members := p.desugared_members record listed nonempty
  constructor
  · intro ends
    have all : ∀ member ∈ p.decl.members ++ p.impliedMembers.map ImpliedMember.declared,
        p.EndsFor member := by
      rw [← members]
      exact ends.declared
    obtain ⟨declared, implied⟩ := List.forall_mem_append.mp all
    exact ⟨declared, fun member own => (spelledOut member).mp
      (implied _ (List.mem_map_of_mem own))⟩
  · intro ends
    refine ⟨?_, fun member own => ?_⟩
    · show ∀ member ∈ (p.decl.desugared p.resolve).members, p.EndsFor member
      rw [members, List.forall_mem_append, List.forall_mem_map]
      exact ⟨ends.declared, fun member own => (spelledOut member).mpr (ends.implied member own)⟩
    · cases own

/-- A record with parameters and the class that spells out what it implies have the same
interface. If a search of the bases does not end, neither of them has one. -/
theorem members_desugared (p : Projection) {parameters : List Parameter}
    (record : p.decl.kind.isRecord = true) (listed : p.decl.parameters = some parameters)
    (nonempty : parameters ≠ []) (plain : p.scope.methodTypeParameters = []) :
    { p with decl := p.decl.desugared p.resolve }.members = p.members := by
  apply Option.ext
  intro shown
  rw [members_eq_some_iff, members_eq_some_iff,
    p.searchesEnd_desugared record listed nonempty plain,
    p.entries_desugared record listed nonempty plain]

/-- The record struct `Point(int X, string Y)`, whose body declares `X` itself. -/
def pointRecord : Projection where
  decl :=
    { docs := none
      sections := []
      modifiers := ["public"]
      kind := .recordStruct
      name := "Point"
      typeParameters := []
      parameters := some [.plain (.simple "int") "X", .plain (.simple "string") "Y"]
      bases := []
      constraints := []
      members :=
        [⟨none, [], ["public"], .feature (.property ⟨.simple "int", none, "X",
          some [⟨.get, []⟩]⟩)⟩] }
  settings := .default
  scope := { Scope.empty with enclosing := ["Point"] }
  resolver := TypeTable.initial.resolver
  policy := .inheritanceAware
  bases := []

/-- The class has three members, where the body of the record has one. -/
theorem members_desugared_pointRecord :
    let spelledOut := pointRecord.decl.desugared pointRecord.resolve
    spelledOut.members.length = 3 ∧
      { pointRecord with decl := spelledOut }.members = pointRecord.members ∧
      pointRecord.members.map (·.map (·.declaration)) =
        some ["int X \x7b get; \x7d", "string Y \x7b get; set; \x7d",
          "void Deconstruct(out int X, out string Y);"] :=
  ⟨by decide +kernel, members_desugared pointRecord rfl rfl (List.cons_ne_nil _ _) rfl,
    by decide +kernel⟩

end Projection
end InterfaceGen
