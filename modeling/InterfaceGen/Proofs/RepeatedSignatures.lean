import InterfaceGen.Proofs.MemberOrigins
import InterfaceGen.Proofs.RecordDesugaring
import Mathlib.Data.List.Nodup
import Mathlib.Data.List.Pairwise

/-!
When an interface declares one member twice. Repeated declarations are found by their text, not by
their signature. For a type whose public members have signatures of their own, and whose explicit
implementations of the interface have too, the main statement lists all ways in which two entries
can still have equivalent signatures: an explicit implementation beside a public or an implied
member, record parameters that share a name, and a `Deconstruct` read inside a generic method.
Elsewhere no public member meets an implied one, because a property or a `Deconstruct` in the body
of a record takes its place.
-/

namespace InterfaceGen

theorem Signature.equivalent_comm (a b : Signature) : a.equivalent b = b.equivalent a := by
  rw [Bool.eq_iff_iff, equivalent_iff_erase, equivalent_iff_erase]
  exact eq_comm

theorem Signature.parts_of_equivalent {a b : Signature} (same : a.equivalent b = true) :
    a.kind = b.kind ∧ a.name = b.name ∧ a.isStatic = b.isStatic ∧ a.arity = b.arity ∧
      ParameterType.equivalentEach a.parameters b.parameters = true := by
  simp only [equivalent, Bool.and_eq_true, decide_eq_true_eq] at same
  obtain ⟨⟨⟨⟨⟨⟨kind, name⟩, isStatic⟩, arity⟩, -⟩, -⟩, parameters⟩ := same
  exact ⟨kind, name, isStatic, arity, parameters⟩

theorem Member.body_of_feature? {member : Member} {feature : Feature}
    (found : member.feature? = some feature) : member.body = .feature feature := by
  unfold feature? at found
  split at found
  · rename_i shown body
    rw [body, Option.some.inj found]
  · cases found
  · cases found

theorem Feature.property_of_mem_signatures {resolve : TypeRef → Scope → ResolvedType}
    {scope : Scope} {isStatic : Bool} {feature : Feature} {signature : Signature}
    (own : signature ∈ feature.signatures resolve scope isStatic)
    (kind : signature.kind = .property) :
    ∃ decl, feature = .property decl ∧ decl.name = signature.name := by
  cases feature with
  | property decl =>
      obtain rfl := List.mem_singleton.mp own
      exact ⟨decl, rfl, rfl⟩
  | method decl | indexer decl | event decl =>
      obtain rfl := List.mem_singleton.mp own
      cases kind
  | eventField type names =>
      obtain ⟨name, -, rfl⟩ := List.mem_map.mp own
      cases kind

theorem Feature.method_of_mem_signatures {resolve : TypeRef → Scope → ResolvedType}
    {scope : Scope} {isStatic : Bool} {feature : Feature} {signature : Signature}
    (own : signature ∈ feature.signatures resolve scope isStatic)
    (kind : signature.kind = .method) :
    ∃ decl, feature = .method decl ∧ decl.name = signature.name ∧
      isStatic = signature.isStatic ∧ decl.typeParameters.length = signature.arity ∧
      decl.parameters.map (.ofParameter (resolve · (scope.inMethod decl.typeParameters))) =
        signature.parameters := by
  cases feature with
  | method decl =>
      obtain rfl := List.mem_singleton.mp own
      exact ⟨decl, rfl, rfl, rfl, rfl, rfl⟩
  | property decl | indexer decl | event decl =>
      obtain rfl := List.mem_singleton.mp own
      cases kind
  | eventField type names =>
      obtain ⟨name, -, rfl⟩ := List.mem_map.mp own
      cases kind

theorem PassingMode.ofModifiers_eq_output_iff (modifiers : List String) :
    ofModifiers modifiers = .output ↔ hasModifier modifiers "out" = true := by
  unfold ofModifiers
  split <;> grind

/-- Parameters with the signature of an implied `Deconstruct` are those of a declared one. -/
theorem PrimaryConstructor.deconstructs_of_equivalentEach (resolve : TypeRef → ResolvedType)
    (declared record : List Parameter)
    (same : ParameterType.equivalentEach (declared.map (.ofParameter resolve))
      (record.map fun parameter => ⟨resolve parameter.type, .output⟩) = true) :
    deconstructs resolve declared record = true := by
  induction declared generalizing record with
  | nil =>
      cases record with
      | nil => rfl
      | cons own more => cases same
  | cons first rest ih =>
      cases record with
      | nil => cases same
      | cons own more =>
          simp only [List.map_cons, ParameterType.equivalentEach, ParameterType.equivalent,
            ParameterType.ofParameter, PassingMode.ofModifiers_eq_output_iff, Bool.and_eq_true,
            decide_eq_true_eq] at same
          obtain ⟨⟨isOut, type⟩, others⟩ := same
          simp only [deconstructs, isOut, type, ih more others, Bool.and_self]

namespace Projection

/-- The member implements the wanted interface explicitly. -/
def implementsTarget (p : Projection) (member : Member) : Bool :=
  (member.feature?.bind Feature.qualifier?).any (p.settings.isTarget p.decl.name)

theorem implementsTarget_iff (p : Projection) {member : Member} {feature : Feature}
    (found : member.feature? = some feature) :
    p.implementsTarget member = true ↔
      feature.qualifier?.bind TypeRef.lastWord? = some (p.settings.targetName p.decl.name) := by
  rw [implementsTarget, found, Option.bind_some]
  cases feature.qualifier? <;> simp [Settings.isTarget]

/-- No signature of the one member is equivalent to one of the other. -/
def Unrelated (p : Projection) (a b : Member) : Prop :=
  ∀ s ∈ a.signatures p.resolver.resolve p.scope, ∀ t ∈ b.signatures p.resolver.resolve p.scope,
    s.equivalent t = false

instance (p : Projection) (a b : Member) : Decidable (p.Unrelated a b) :=
  inferInstanceAs (Decidable (∀ s ∈ _, ∀ t ∈ _, _))

instance (p : Projection) : Std.Symm p.Unrelated where
  symm a b unrelated s own t other := by
    rw [Signature.equivalent_comm]
    exact unrelated t other s own

/-- The public members have signatures of their own, and so have the explicit implementations of the
wanted interface. -/
structure DistinctSignatures (p : Projection) : Prop where
  publics : (p.decl.members.filter Member.isPublic).Pairwise p.Unrelated
  explicits : (p.decl.members.filter p.implementsTarget).Pairwise p.Unrelated

instance (p : Projection) : Decidable p.DistinctSignatures :=
  decidable_of_iff
    ((p.decl.members.filter Member.isPublic).Pairwise p.Unrelated ∧
      (p.decl.members.filter p.implementsTarget).Pairwise p.Unrelated)
    ⟨fun both => ⟨both.1, both.2⟩, fun distinct => ⟨distinct.publics, distinct.explicits⟩⟩

/-- The entry is written for this member of the type. -/
def IsSource (p : Projection) (origin : Origin) (entry : InterfaceMember) : Prop :=
  origin ∈ p.origins ∧ p.Shown origin ∧ origin.text = entry.declaration

/-- Two members have a signature each that are equivalent. -/
def Related (p : Projection) (a b : Origin) : Prop :=
  ∃ s ∈ p.signaturesOf a, ∃ t ∈ p.signaturesOf b, s.equivalent t = true

instance (p : Projection) (a b : Origin) : Decidable (p.Related a b) :=
  inferInstanceAs (Decidable (∃ s ∈ _, ∃ t ∈ _, _))

theorem Related.symm {p : Projection} {a b : Origin} (related : p.Related a b) :
    p.Related b a := by
  obtain ⟨s, own, t, other, same⟩ := related
  rw [Signature.equivalent_comm] at same
  exact ⟨t, other, s, own, same⟩

/-- The interface has members, and two different ones come from members of the type with equivalent
signatures. -/
def Repeats (p : Projection) : Prop :=
  ∃ shown, p.members = some shown ∧
    ∃ first ∈ shown, ∃ second ∈ shown, first ≠ second ∧
      ∃ a b, p.IsSource a first ∧ p.IsSource b second ∧ p.Related a b

/-- The ways in which two members with equivalent signatures can both be shown. -/
inductive MayRepeat (p : Projection) : Origin → Origin → Prop where
  /-- An explicit implementation of the interface, and a public member that is none. -/
  | explicit {explicit other : Member} {feature otherFeature : Feature}
      (implements : p.implementsTarget explicit = true) (hidden : explicit.isPublic = false)
      (isPublic : other.isPublic = true) (implicit : p.implementsTarget other = false) :
      p.MayRepeat (.declared explicit feature) (.declared other otherFeature)
  /-- An explicit implementation, of this or another interface, and an implied member. -/
  | qualified {member : Member} {feature : Feature} {implied : ImpliedMember}
      (qualifier : feature.qualifier?.isSome = true) :
      p.MayRepeat (.declared member feature) (.implied implied)
  /-- The properties of two record parameters with one name. -/
  | parameters {first second : Parameter} {isMutable : Bool} (name : first.name = second.name) :
      p.MayRepeat (.implied (.property first isMutable)) (.implied (.property second isMutable))
  /-- A declared `Deconstruct` beside the implied one, in a scope inside a generic method. -/
  | generic {member : Member} {feature : Feature} {parameters : List Parameter}
      (inMethod : p.scope.methodTypeParameters ≠ []) :
      p.MayRepeat (.declared member feature) (.implied (.deconstruct parameters))

section Declared
variable {p : Projection} {member other : Member} {feature otherFeature : Feature}

theorem not_related_of_pairwise {members : List Member} (pairwise : members.Pairwise p.Unrelated)
    (listed : member ∈ members) (otherListed : other ∈ members) (different : member ≠ other)
    (found : member.feature? = some feature) (otherFound : other.feature? = some otherFeature) :
    ¬ p.Related (.declared member feature) (.declared other otherFeature) := by
  rintro ⟨s, own, t, others, same⟩
  rw [← p.signatures_of_feature found] at own
  rw [← p.signatures_of_feature otherFound] at others
  have unrelated := pairwise.forall listed otherListed different s own t others
  rw [unrelated] at same
  cases same

/-- Of two declared members with equivalent signatures one is public and the other is not. -/
theorem mayRepeat_declared (distinct : p.DistinctSignatures) (listed : member ∈ p.decl.members)
    (otherListed : other ∈ p.decl.members) (found : member.feature? = some feature)
    (otherFound : other.feature? = some otherFeature) (different : member ≠ other)
    (admits : p.Admits (.declared member feature))
    (otherAdmits : p.Admits (.declared other otherFeature))
    (related : p.Related (.declared member feature) (.declared other otherFeature)) :
    p.MayRepeat (.declared member feature) (.declared other otherFeature) ∨
      p.MayRepeat (.declared other otherFeature) (.declared member feature) := by
  have publics : ¬ (member.isPublic = true ∧ other.isPublic = true) := by
    rintro ⟨isPublic, otherPublic⟩
    exact not_related_of_pairwise distinct.publics (List.mem_filter.mpr ⟨listed, isPublic⟩)
      (List.mem_filter.mpr ⟨otherListed, otherPublic⟩) different found otherFound related
  have explicits : ¬ (p.implementsTarget member = true ∧ p.implementsTarget other = true) := by
    rintro ⟨explicit, otherExplicit⟩
    exact not_related_of_pairwise distinct.explicits (List.mem_filter.mpr ⟨listed, explicit⟩)
      (List.mem_filter.mpr ⟨otherListed, otherExplicit⟩) different found otherFound related
  have eligible := admits.2.1
  have otherEligible := otherAdmits.2.1
  rw [← p.implementsTarget_iff found] at eligible
  rw [← p.implementsTarget_iff otherFound] at otherEligible
  cases isPublic : member.isPublic with
  | true =>
      have hidden : other.isPublic = false := by simpa [isPublic] using publics
      have explicit : p.implementsTarget other = true := by simpa [hidden] using otherEligible
      have implicit : p.implementsTarget member = false := by simpa [explicit] using explicits
      exact .inr (.explicit explicit hidden isPublic implicit)
  | false =>
      have explicit : p.implementsTarget member = true := by simpa [isPublic] using eligible
      have implicit : p.implementsTarget other = false := by simpa [explicit] using explicits
      have otherPublic : other.isPublic = true := by simpa [implicit] using otherEligible
      exact .inl (.explicit explicit isPublic otherPublic implicit)

end Declared

section Implied
variable {p : Projection} {member : Member} {feature : Feature}

/-- Only a record with parameters implies members, and it implies those that its body leaves to
it. -/
theorem impliedMembers_cases {implied : ImpliedMember} (listed : implied ∈ p.impliedMembers) :
    (∃ parameter, (∀ member ∈ p.decl.members, member.takesName parameter.name = false) ∧
        implied = .property parameter
          (p.decl.kind = .recordStruct && !hasModifier p.decl.modifiers "readonly")) ∨
      ∃ parameters, p.decl.parameters = some parameters ∧
        (∀ member ∈ p.decl.members, member.isDeconstructOf p.resolve parameters = false) ∧
        implied = .deconstruct parameters := by
  cases record : p.decl.kind.isRecord with
  | false => simp [impliedMembers, PrimaryConstructor.ofType?, record] at listed
  | true =>
      cases own : p.decl.parameters with
      | none => simp [impliedMembers, PrimaryConstructor.ofType?, own] at listed
      | some parameters =>
          cases parameters with
          | nil => simp [impliedMembers, PrimaryConstructor.ofType?, own] at listed
          | cons first rest =>
              rw [p.impliedMembers_of_record record own (List.cons_ne_nil _ _),
                List.mem_append] at listed
              obtain property | deconstruct := listed
              · obtain ⟨parameter, free, rfl⟩ := List.mem_map.mp property
                exact .inl ⟨parameter, by simpa using (List.mem_filter.mp free).2, rfl⟩
              · split at deconstruct
                · cases deconstruct
                · rename_i absent
                  exact .inr ⟨first :: rest, rfl, by simpa using absent,
                    List.mem_singleton.mp deconstruct⟩

/-- A property in the body of a record takes the name of the implied one, unless it is an explicit
implementation. -/
theorem qualifier_of_related_property {parameter : Parameter} {isMutable : Bool}
    (found : member.feature? = some feature) (free : member.takesName parameter.name = false)
    (related : p.Related (.declared member feature) (.implied (.property parameter isMutable))) :
    feature.qualifier?.isSome = true := by
  obtain ⟨s, own, t, implied, same⟩ := related
  obtain rfl := List.mem_singleton.mp implied
  obtain ⟨kind, name, -⟩ := Signature.parts_of_equivalent same
  obtain ⟨decl, rfl, named⟩ := Feature.property_of_mem_signatures own kind
  have taken : decl.name = parameter.name := named.trans name
  simpa [Member.takesName, Member.body_of_feature? found, taken, Feature.qualifier?,
    Option.isSome_iff_ne_none] using free

/-- A `Deconstruct` in the body of a record takes the place of the implied one, unless it is an
explicit implementation. -/
theorem qualifier_of_related_deconstruct {parameters : List Parameter}
    (plain : p.scope.methodTypeParameters = []) (found : member.feature? = some feature)
    (free : member.isDeconstructOf p.resolve parameters = false)
    (related : p.Related (.declared member feature) (.implied (.deconstruct parameters))) :
    feature.qualifier?.isSome = true := by
  obtain ⟨s, own, t, implied, same⟩ := related
  obtain rfl := List.mem_singleton.mp implied
  obtain ⟨kind, name, isStatic, arity, each⟩ := Signature.parts_of_equivalent same
  obtain ⟨decl, rfl, named, static, count, types⟩ := Feature.method_of_mem_signatures own kind
  have isDeconstruct : decl.name = "Deconstruct" := named.trans name
  have isInstance : member.isStatic = false := static.trans isStatic
  have typeParameters : decl.typeParameters = [] :=
    List.eq_nil_of_length_eq_zero (count.trans arity)
  -- signatures are read inside the method and the record looks from outside; here both scopes agree
  have inner : p.scope.inMethod decl.typeParameters = p.scope := by
    rw [typeParameters, Scope.inMethod, List.map_nil, ← plain]
  rw [← types, inner] at each
  have pairs := PrimaryConstructor.deconstructs_of_equivalentEach p.resolve _ _ each
  rw [PrimaryConstructor.deconstructs_eq_zip] at pairs
  simp only [Member.isDeconstructOf, Member.body_of_feature? found, isDeconstruct, typeParameters,
    isInstance, Bool.and_assoc, pairs] at free
  simpa [Feature.qualifier?, Option.isSome_iff_ne_none] using free

theorem mayRepeat_implied {implied : ImpliedMember} (listed : member ∈ p.decl.members)
    (found : member.feature? = some feature) (implies : implied ∈ p.impliedMembers)
    (related : p.Related (.declared member feature) (.implied implied)) :
    p.MayRepeat (.declared member feature) (.implied implied) := by
  obtain ⟨parameter, free, rfl⟩ | ⟨parameters, -, free, rfl⟩ := impliedMembers_cases implies
  · exact .qualified (qualifier_of_related_property found (free member listed) related)
  · by_cases plain : p.scope.methodTypeParameters = []
    · exact .qualified (qualifier_of_related_deconstruct plain found (free member listed) related)
    · exact .generic plain

theorem mayRepeat_implied_implied {first second : ImpliedMember}
    (implies : first ∈ p.impliedMembers) (alsoImplies : second ∈ p.impliedMembers)
    (different : first ≠ second) (related : p.Related (.implied first) (.implied second)) :
    p.MayRepeat (.implied first) (.implied second) := by
  obtain ⟨s, own, t, other, same⟩ := related
  obtain rfl := List.mem_singleton.mp own
  obtain rfl := List.mem_singleton.mp other
  obtain ⟨kind, name, -⟩ := Signature.parts_of_equivalent same
  obtain ⟨parameter, -, rfl⟩ | ⟨parameters, listed, -, rfl⟩ := impliedMembers_cases implies
  · obtain ⟨twin, -, rfl⟩ | ⟨all, -, -, rfl⟩ := impliedMembers_cases alsoImplies
    · exact .parameters name
    · cases kind
  · obtain ⟨twin, -, rfl⟩ | ⟨all, alsoListed, -, rfl⟩ := impliedMembers_cases alsoImplies
    · cases kind
    · rw [listed] at alsoListed
      exact absurd (congrArg _ (Option.some.inj alsoListed)) different

end Implied

section Entries
variable {p : Projection} {shown : List InterfaceMember} (ends : p.members = some shown)
include ends

theorem declaration_ne_of_mem_members {first second : InterfaceMember} (listed : first ∈ shown)
    (alsoListed : second ∈ shown) (different : first ≠ second) :
    first.declaration ≠ second.declaration := by
  intro same
  obtain ⟨-, rfl⟩ := (p.members_eq_some_iff shown).mp ends
  exact different (List.inj_on_of_nodup_map (nodup_map_distinct _) listed alsoListed same)

theorem exists_isSource {entry : InterfaceMember} (listed : entry ∈ shown) :
    ∃ origin, p.IsSource origin entry := by
  have text : entry.declaration ∈ texts shown := List.mem_map_of_mem listed
  obtain ⟨origin, own, shown, written⟩ := (mem_texts_iff ends _).mp text
  exact ⟨origin, own, shown, written⟩

end Entries

/-- Every entry of an interface is written for a member of the type. If the public members of the
type have signatures of their own and its explicit implementations have too, two different entries
have equivalent signatures only in the ways listed. -/
theorem mayRepeat_of_related (p : Projection) (distinct : p.DistinctSignatures)
    (shown : List InterfaceMember) (ends : p.members = some shown) :
    (∀ entry ∈ shown, ∃ origin, p.IsSource origin entry) ∧
      ∀ first ∈ shown, ∀ second ∈ shown, first ≠ second →
        ∀ a b, p.IsSource a first → p.IsSource b second → p.Related a b →
          p.MayRepeat a b ∨ p.MayRepeat b a := by
  refine ⟨fun entry listed => exists_isSource ends listed, ?_⟩
  intro first listed second alsoListed different a b ⟨own, rules, text⟩ ⟨other, alsoRules, alsoText⟩
    related
  have apart : a.text ≠ b.text := by
    rw [text, alsoText]
    exact declaration_ne_of_mem_members ends listed alsoListed different
  obtain ⟨member, isMember, feature, found, rfl⟩ | ⟨implied, implies, rfl⟩ := mem_origins.mp own
  · obtain ⟨twin, alsoMember, twinFeature, twinFound, rfl⟩ | ⟨implied, implies, rfl⟩ :=
      mem_origins.mp other
    · -- one member has one text, and so not two entries
      have members : member ≠ twin := by
        rintro rfl
        rw [found] at twinFound
        rw [Option.some.inj twinFound] at apart
        exact apart rfl
      exact mayRepeat_declared distinct isMember alsoMember found twinFound members rules.1
        alsoRules.1 related
    · exact .inl (mayRepeat_implied isMember found implies related)
  · obtain ⟨member, isMember, feature, found, rfl⟩ | ⟨twin, alsoImplies, rfl⟩ :=
      mem_origins.mp other
    · exact .inr (mayRepeat_implied isMember found implies related.symm)
    · have members : implied ≠ twin := fun same => apart (congrArg ImpliedMember.render same)
      exact .inl (mayRepeat_implied_implied implies alsoImplies members related)

/-- The type `Test` on its own, for which the interface `ITest` is wanted. -/
def testType (kind : TypeKind) (parameters : Option (List Parameter))
    (methodTypeParameters : List String) (members : List Member) : Projection where
  decl := ⟨none, [], [], kind, "Test", [], parameters, [], [], members⟩
  settings := .default
  scope := { Scope.empty with enclosing := ["Test"], methodTypeParameters }
  resolver := TypeTable.initial.resolver
  policy := .inheritanceAware
  bases := []

/-- The class with the methods `public int M(int a)` and `int ITest.M(int b)`. -/
def explicitBesidePublic : Projection :=
  let method (qualifier : Option TypeRef) (parameter : String) : Feature :=
    .method ⟨.simple "int", qualifier, "M", [], [.plain (.simple "int") parameter], []⟩
  testType .classType none []
    [⟨none, [], ["public"], .feature (method none "a")⟩,
      ⟨none, [], [], .feature (method (some (.simple "ITest")) "b")⟩]

/-- The record `Test(int A)` with the property `System.Int32 ITest.A`. -/
def explicitBesideImplied : Projection :=
  let property : Property :=
    ⟨.named ⟨none, [⟨"System", []⟩, ⟨"Int32", []⟩]⟩, some (.simple "ITest"), "A",
      some [⟨.get, []⟩, ⟨.init, []⟩]⟩
  testType .recordClass (some [.plain (.simple "int") "A"]) []
    [⟨none, [], [], .feature (.property property)⟩]

/-- The record `Test(int A, System.Int32 A)`. -/
def parametersOfOneName : Projection :=
  testType .recordClass
    (some [.plain (.simple "int") "A",
      .plain (.named ⟨none, [⟨"System", []⟩, ⟨"Int32", []⟩]⟩) "A"]) [] []

/-- The record `Test(global::T A)` with the method `Deconstruct(out T a)`, inside a generic method
with the type parameter `T`. -/
def deconstructInMethod : Projection :=
  let method : Method :=
    ⟨.simple "void", none, "Deconstruct", [], [⟨[], ["out"], .simple "T", "a", none⟩], []⟩
  testType .recordClass (some [.plain (.named ⟨some "global", [⟨"T", []⟩]⟩) "A"]) ["T"]
    [⟨none, [], ["public"], .feature (.method method)⟩]

theorem repeats_of_origins {p : Projection} {i j : Nat} {a b : Origin}
    (own : p.origins[i]? = some a) (other : p.origins[j]? = some b) (alone : p.bases = [])
    (admits : p.Admits a ∧ p.Admits b) (apart : a.text ≠ b.text) (related : p.Related a b) :
    p.Repeats := by
  have rules {origin : Origin} (admits : p.Admits origin) : p.Shown origin :=
    ⟨admits, fun left => left.2.1 alone⟩
  have first : a ∈ p.origins ∧ p.Shown a := ⟨List.mem_of_getElem? own, rules admits.1⟩
  have second : b ∈ p.origins ∧ p.Shown b := ⟨List.mem_of_getElem? other, rules admits.2⟩
  have ends := (p.members_eq_some_iff _).mpr ⟨searchesEnd_of_silent (.inr alone), rfl⟩
  obtain ⟨entry, listed, text⟩ := List.mem_map.mp
    ((mem_texts_iff ends _).mpr ⟨a, first.1, first.2, rfl⟩)
  obtain ⟨twin, alsoListed, alsoText⟩ := List.mem_map.mp
    ((mem_texts_iff ends _).mpr ⟨b, second.1, second.2, rfl⟩)
  refine ⟨_, ends, entry, listed, twin, alsoListed, ?_, a, b, ⟨first.1, first.2, text.symm⟩,
    ⟨second.1, second.2, alsoText.symm⟩, related⟩
  rintro rfl
  exact apart (text.symm.trans alsoText)

theorem repeats_explicitBesidePublic :
    explicitBesidePublic.DistinctSignatures ∧ explicitBesidePublic.Repeats :=
  ⟨by decide +kernel, repeats_of_origins (i := 0) (j := 1) rfl rfl rfl (by decide +kernel)
    (by decide +kernel) (by decide +kernel)⟩

/-- The class with `public int M(int a)` and `int ITest.M(int b)` has two entries for one
signature. -/
theorem mayRepeat_explicitBesidePublic :
    explicitBesidePublic.DistinctSignatures ∧
      ∃ shown, explicitBesidePublic.members = some shown ∧
        ∃ first ∈ shown, ∃ second ∈ shown, first ≠ second ∧
          ∃ a b, explicitBesidePublic.IsSource a first ∧
            explicitBesidePublic.IsSource b second ∧ explicitBesidePublic.Related a b ∧
            (explicitBesidePublic.MayRepeat a b ∨ explicitBesidePublic.MayRepeat b a) := by
  obtain ⟨distinct, shown, ends, first, listed, second, alsoListed, different, a, b, own, other,
    related⟩ := repeats_explicitBesidePublic
  obtain ⟨-, repeated⟩ := mayRepeat_of_related explicitBesidePublic distinct shown ends
  exact ⟨distinct, shown, ends, first, listed, second, alsoListed, different, a, b, own, other,
    related, repeated first listed second alsoListed different a b own other related⟩

/-- All the ways are taken, so distinct signatures do not keep an interface from declaring a member
twice. -/
theorem members_repeat_signatures :
    (∀ p ∈ [explicitBesidePublic, explicitBesideImplied, parametersOfOneName,
        deconstructInMethod], p.DistinctSignatures ∧ p.Repeats) ∧
      ¬ ∀ p : Projection, p.DistinctSignatures → ¬ p.Repeats := by
  have besideImplied : explicitBesideImplied.DistinctSignatures ∧ explicitBesideImplied.Repeats :=
    ⟨by decide +kernel, repeats_of_origins (i := 0) (j := 1) rfl rfl rfl (by decide +kernel)
      (by decide +kernel) (by decide +kernel)⟩
  have parameters : parametersOfOneName.DistinctSignatures ∧ parametersOfOneName.Repeats :=
    ⟨by decide +kernel, repeats_of_origins (i := 0) (j := 1) rfl rfl rfl (by decide +kernel)
      (by decide +kernel) (by decide +kernel)⟩
  have deconstruct : deconstructInMethod.DistinctSignatures ∧ deconstructInMethod.Repeats :=
    ⟨by decide +kernel, repeats_of_origins (i := 0) (j := 2) rfl rfl rfl (by decide +kernel)
      (by decide +kernel) (by decide +kernel)⟩
  constructor
  · simp only [List.forall_mem_cons]
    exact ⟨repeats_explicitBesidePublic, besideImplied, parameters, deconstruct,
      List.forall_mem_nil _⟩
  · intro never
    exact never _ repeats_explicitBesidePublic.1 repeats_explicitBesidePublic.2

end Projection
end InterfaceGen
