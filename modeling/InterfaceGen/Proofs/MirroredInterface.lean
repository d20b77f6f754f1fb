import InterfaceGen.Generator
import InterfaceGen.Proofs.ProjectedMembers
import InterfaceGen.Proofs.TypeResolution

/-!
A class beside an interface that mirrors it has nothing left to show. The signatures of the class
are resolved in the scope of the class; those of the interface in its own scope, and then the
arguments of the base are put for its type parameters. Where nothing is known below the two types
and the arguments are the type parameters of the class themselves, both ways give the same
signatures, and the search of the base finds each of them at once.
-/

namespace InterfaceGen
open ResolvedType BaseSearch

namespace ParameterType

theorem map_ofParameter_congr {resolve : TypeRef → Scope → ResolvedType} {scope other : Scope}
    {parameters : List Parameter}
    (same : ∀ type ∈ parameters.map Parameter.type, resolve type scope = resolve type other) :
    parameters.map (ofParameter (resolve · scope)) =
      parameters.map (ofParameter (resolve · other)) := by
  refine List.map_congr_left fun parameter listed => ?_
  rw [ofParameter, ofParameter, same parameter.type (List.mem_map_of_mem listed)]

theorem map_substitute_ofParameter {resolve : TypeRef → ResolvedType}
    {arguments : List ResolvedType}
    (kept : ∀ type, (resolve type).substitute arguments = resolve type)
    (parameters : List Parameter) :
    (parameters.map (ofParameter resolve)).map (substitute arguments) =
      parameters.map (ofParameter resolve) := by
  rw [List.map_map]
  refine List.map_congr_left fun parameter _ => ?_
  rw [Function.comp_apply, ofParameter, substitute, kept]

end ParameterType

namespace Feature

/-- The types that the signatures of the feature are made of. -/
def types : Feature → List TypeRef
  | .method decl => decl.result :: decl.parameters.map Parameter.type
  | .property decl => [decl.type]
  | .indexer decl => decl.type :: decl.parameters.map Parameter.type
  | .eventField type _ => [type]
  | .event decl => [decl.type]

/-- The feature declares a name; only events declared like fields can do without. -/
def hasNames : Feature → Bool
  | .eventField _ names => !names.isEmpty
  | .method _ | .property _ | .indexer _ | .event _ => true

theorem signatures_ne_nil {feature : Feature} (named : feature.hasNames = true)
    (resolve : TypeRef → Scope → ResolvedType) (scope : Scope) (isStatic : Bool) :
    feature.signatures resolve scope isStatic ≠ [] := by
  cases feature with
  | eventField type names =>
      have nonempty : names ≠ [] := by simpa [hasNames] using named
      simpa [signatures] using nonempty
  | method | property | indexer | event => exact List.cons_ne_nil _ _

theorem signatures_congr {resolve : TypeRef → Scope → ResolvedType} {scope other : Scope}
    {feature : Feature}
    (same : ∀ type ∈ feature.types, resolve type scope = resolve type other)
    (inner : ∀ type ∈ feature.types, ∀ parameters,
      resolve type (scope.inMethod parameters) = resolve type (other.inMethod parameters))
    (isStatic : Bool) :
    feature.signatures resolve scope isStatic = feature.signatures resolve other isStatic := by
  cases feature with
  | method decl =>
      have result := inner decl.result List.mem_cons_self decl.typeParameters
      have parameters := ParameterType.map_ofParameter_congr fun type listed =>
        inner type (List.mem_cons_of_mem _ listed) decl.typeParameters
      simp only [signatures, result, parameters]
  | indexer decl =>
      have type := same decl.type List.mem_cons_self
      have parameters := ParameterType.map_ofParameter_congr fun type listed =>
        same type (List.mem_cons_of_mem _ listed)
      simp only [signatures, type, parameters]
  | property decl | event decl => simp only [signatures, same decl.type List.mem_cons_self]
  | eventField type names => simp only [signatures, same type List.mem_cons_self]

theorem signatures_around {table : TypeTable} {scope : Scope}
    (leaf : table.IsLeaf (scope.namespacePath ++ scope.enclosing)) (within : scope.enclosing ≠ [])
    {feature : Feature} (spelled : ∀ type ∈ feature.types, type.Spelled) (isStatic : Bool) :
    feature.signatures table.resolver.resolve scope.around isStatic =
      feature.signatures table.resolver.resolve scope isStatic := by
  apply signatures_congr
  · exact fun type inside => TypeTable.resolve_around leaf within (spelled type inside)
  · intro type inside parameters
    have inner : table.IsLeaf ((scope.inMethod parameters).namespacePath ++
        (scope.inMethod parameters).enclosing) := leaf
    exact TypeTable.resolve_around inner within (spelled type inside)

/-- The type parameters of the type around a feature, put for themselves, change none of its
signatures. -/
theorem substitute_signatures (table : TypeTable) (scope : Scope) (isStatic : Bool)
    (feature : Feature) :
    (feature.signatures table.resolver.resolve scope isStatic).map
        (·.substitute (parametersOf scope.typeParameters)) =
      feature.signatures table.resolver.resolve scope isStatic := by
  have kept (type : TypeRef) :
      (table.resolver.resolve type scope).substitute (parametersOf scope.typeParameters) =
        table.resolver.resolve type scope :=
    table.substitute_resolve scope type
  cases feature with
  | method decl =>
      have inner (type : TypeRef) :
          (table.resolver.resolve type (scope.inMethod decl.typeParameters)).substitute
              (parametersOf scope.typeParameters) =
            table.resolver.resolve type (scope.inMethod decl.typeParameters) :=
        table.substitute_resolve (scope.inMethod decl.typeParameters) type
      simp only [signatures, List.map_cons, List.map_nil, Signature.substitute, inner,
        ParameterType.map_substitute_ofParameter inner]
  | indexer decl =>
      simp only [signatures, List.map_cons, List.map_nil, Signature.substitute, kept,
        ParameterType.map_substitute_ofParameter kept]
  | property decl | event decl => simp [signatures, Signature.substitute, kept]
  | eventField type names => simp [signatures, Signature.substitute, kept, Function.comp_def]

end Feature

/-- The member without the modifier `public`, as an interface declares it. -/
def Member.withoutPublic (member : Member) : Member :=
  { member with modifiers := member.modifiers.filter (· ≠ "public") }

theorem Member.hasModifier_withoutPublic (member : Member) {modifier : String}
    (other : modifier ≠ "public") :
    hasModifier member.withoutPublic.modifiers modifier =
      hasModifier member.modifiers modifier := by
  simp [hasModifier, withoutPublic, other]

theorem Member.isPrivate_withoutPublic (member : Member) :
    member.withoutPublic.isPrivate = member.isPrivate :=
  member.hasModifier_withoutPublic (by decide)

theorem Member.isStatic_withoutPublic (member : Member) :
    member.withoutPublic.isStatic = member.isStatic :=
  member.hasModifier_withoutPublic (by decide)

/-- In these files a class stands beside an interface that mirrors it. The two have the same type
parameters; the members of the class are public features, and those of the interface are the same
without `public`. No other interface has the key of this one, and no type is known below either. -/
structure Mirrors (files : List SourceFile) (own twin : Site × TypeDecl) : Prop where
  declared : ∃ file ∈ files, own ∈ file.typeSites ∧ twin ∈ file.typeSites
  siblings : twin.1.above = own.1.above
  isClass : own.2.kind = .classType
  isInterface : twin.2.kind = .interface
  typeParameters : twin.2.typeParameterNames = own.2.typeParameterNames
  members : twin.2.members = own.2.members.map Member.withoutPublic
  shown : ∀ member ∈ own.2.members, member.isPublic = true ∧ member.isPrivate = false ∧
    ∃ feature, member.feature? = some feature ∧ feature.hasNames = true
  unique : ∀ file ∈ files, ∀ other ∈ file.typeSites, other.2.kind = .interface →
    TypeTable.declaredKey other = TypeTable.declaredKey twin → other = twin
  ownLeaf : (TypeTable.ofFiles files).IsLeaf (TypeTable.declaredPath own.1 own.2)
  twinLeaf : (TypeTable.ofFiles files).IsLeaf (TypeTable.declaredPath twin.1 twin.2)

theorem Scope.ofSite_of_type {site : Site} {decl : TypeDecl} (typed : site.type? = some decl) :
    Scope.ofSite site =
      { namespacePath := site.namespacePath
        enclosing := site.containers.map TypeDecl.name ++ [decl.name]
        usings := site.usingScopes.flatten
        typeParameters := decl.typeParameterNames
        methodTypeParameters := [] } := by
  simp [Scope.ofSite, typed]

theorem Scope.path_ofSite {site : Site} {decl : TypeDecl} (typed : site.type? = some decl) :
    (Scope.ofSite site).namespacePath ++ (Scope.ofSite site).enclosing =
      TypeTable.declaredPath site decl := by
  rw [ofSite_of_type typed, TypeTable.declaredPath, List.append_assoc]

theorem Scope.enclosing_ofSite_ne_nil {site : Site} {decl : TypeDecl}
    (typed : site.type? = some decl) : (Scope.ofSite site).enclosing ≠ [] := by
  simp [ofSite_of_type typed]

namespace Mirrors
variable {files : List SourceFile} {own twin : Site × TypeDecl}

theorem type?_own (mirrors : Mirrors files own twin) : own.1.type? = some own.2 := by
  obtain ⟨file, _, member, _⟩ := mirrors.declared
  exact SourceFile.type?_of_mem_typeSites member

theorem type?_twin (mirrors : Mirrors files own twin) : twin.1.type? = some twin.2 := by
  obtain ⟨file, _, _, member⟩ := mirrors.declared
  exact SourceFile.type?_of_mem_typeSites member

theorem around_eq (mirrors : Mirrors files own twin) :
    (Scope.ofSite twin.1).around = (Scope.ofSite own.1).around := by
  rw [Scope.ofSite_of_type mirrors.type?_own, Scope.ofSite_of_type mirrors.type?_twin]
  simp only [Scope.around, List.dropLast_concat, mirrors.typeParameters, Site.namespacePath,
    Site.containers, Site.usingScopes, mirrors.siblings]

/-- A feature has the same signatures in the scope of the interface as in that of the class. -/
theorem signatures_eq (mirrors : Mirrors files own twin) {feature : Feature}
    (spelled : ∀ type ∈ feature.types, type.Spelled) (isStatic : Bool) :
    feature.signatures (TypeTable.ofFiles files).resolver.resolve (.ofSite twin.1) isStatic =
      feature.signatures (TypeTable.ofFiles files).resolver.resolve (.ofSite own.1) isStatic := by
  have ownLeaf := mirrors.ownLeaf
  have twinLeaf := mirrors.twinLeaf
  rw [← Scope.path_ofSite mirrors.type?_own] at ownLeaf
  rw [← Scope.path_ofSite mirrors.type?_twin] at twinLeaf
  calc feature.signatures (TypeTable.ofFiles files).resolver.resolve (.ofSite twin.1) isStatic
      = feature.signatures _ (Scope.ofSite twin.1).around isStatic :=
        (Feature.signatures_around twinLeaf (Scope.enclosing_ofSite_ne_nil mirrors.type?_twin)
          spelled isStatic).symm
    _ = feature.signatures _ (Scope.ofSite own.1).around isStatic := by rw [mirrors.around_eq]
    _ = feature.signatures _ (.ofSite own.1) isStatic :=
        Feature.signatures_around ownLeaf (Scope.enclosing_ofSite_ne_nil mirrors.type?_own)
          spelled isStatic

/-- The interface, applied to the type parameters of the class. -/
def base (own twin : Site × TypeDecl) : ResolvedType :=
  .named (TypeTable.declaredPath twin.1 twin.2) (parametersOf own.2.typeParameterNames)

theorem members_offered_base (mirrors : Mirrors files own twin) :
    (offered (TypeTable.ofFiles files).interface? (base own twin)).members =
      ((TypeTable.ofFiles files).shownSignatures ⟨twin.2, .ofSite twin.1⟩).map
        (·.substitute (parametersOf own.2.typeParameterNames)) := by
  obtain ⟨file, listed, _, twinMember⟩ := mirrors.declared
  have arity : (parametersOf own.2.typeParameterNames).length = twin.2.arity := by
    rw [← mirrors.typeParameters]
    simp [parametersOf, TypeDecl.typeParameterNames, TypeDecl.arity]
  have found := TypeTable.lookup_interfaces_ofFiles listed twinMember mirrors.isInterface
    mirrors.unique
  rw [TypeTable.declaredKey] at found
  simp [offered, base, TypeTable.interface?, arity, found]

/-- The interface offers each signature of the class. -/
theorem mem_members_offered_base (mirrors : Mirrors files own twin) {member : Member}
    {feature : Feature} (listed : member ∈ own.2.members) (found : member.feature? = some feature)
    (spelled : ∀ type ∈ feature.types, type.Spelled) {signature : Signature}
    (declared : signature ∈
      member.signatures (TypeTable.ofFiles files).resolver.resolve (.ofSite own.1)) :
    signature ∈ (offered (TypeTable.ofFiles files).interface? (base own twin)).members := by
  have parameters : (Scope.ofSite own.1).typeParameters = own.2.typeParameterNames := by
    rw [Scope.ofSite_of_type mirrors.type?_own]
  have written : member.withoutPublic ∈ twin.2.members := by
    rw [mirrors.members]
    exact List.mem_map_of_mem listed
  have visible : member.withoutPublic.isPrivate = false := by
    rw [Member.isPrivate_withoutPublic]
    exact (mirrors.shown member listed).2.1
  have here : signature ∈ feature.signatures (TypeTable.ofFiles files).resolver.resolve
      (.ofSite own.1) member.isStatic := by
    simpa only [Member.signatures, found] using declared
  -- the signature is the image of one that the interface declares, because it is its own image
  rw [← Feature.substitute_signatures, parameters] at here
  obtain ⟨source, inOwn, rfl⟩ := List.mem_map.mp here
  rw [mirrors.members_offered_base]
  refine List.mem_map_of_mem (List.mem_flatMap.mpr ⟨member.withoutPublic, ?_, ?_⟩)
  · exact List.mem_filter.mpr ⟨written, by rw [visible]; rfl⟩
  · rw [← mirrors.signatures_eq spelled] at inOwn
    have twinFound : member.withoutPublic.feature? = some feature := found
    simp only [Member.signatures, twinFound, Member.isStatic_withoutPublic]
    exact inOwn

theorem providedByBases_base (mirrors : Mirrors files own twin) {member : Member}
    {feature : Feature} (listed : member ∈ own.2.members) (found : member.feature? = some feature)
    (spelled : ∀ type ∈ feature.types, type.Spelled) {signature : Signature}
    (declared : signature ∈
      member.signatures (TypeTable.ofFiles files).resolver.resolve (.ofSite own.1)) :
    (TypeTable.ofFiles files).resolver.providedByBases [base own twin] signature = some true := by
  apply providedByBases_singleton
  exact List.any_eq_true.mpr ⟨signature,
    mirrors.mem_members_offered_base listed found spelled declared,
    (Signature.equivalent_iff_erase _ _).mpr rfl⟩

section Projected
variable {p : Projection} (mirrors : Mirrors files own twin)
  (resolver : p.resolver = (TypeTable.ofFiles files).resolver)
  (scope : p.scope = .ofSite own.1) (bases : p.bases = [base own twin]) {member : Member}
  (listed : member ∈ own.2.members)
  (spelled : ∀ feature ∈ member.feature?, ∀ type ∈ feature.types, type.Spelled)

include mirrors resolver scope bases listed spelled

/-- With the interface as its base, a projection finds every signature of the class there. -/
theorem provided : ∀ signature ∈ member.signatures p.resolver.resolve p.scope,
    p.resolver.providedByBases p.bases signature = some true := by
  obtain ⟨-, -, feature, found, -⟩ := mirrors.shown member listed
  intro signature declared
  rw [resolver, scope] at declared
  rw [resolver, bases]
  exact mirrors.providedByBases_base listed found (spelled feature found) declared

theorem endsFor : p.EndsFor member := by
  intro _ _ _ _ _ _ signature asked
  have answer := mirrors.provided resolver scope bases listed spelled signature
    (Projection.mem_of_mem_searchedFor asked)
  exact Option.isSome_of_eq_some answer

/-- Such a projection shows no declared member of the class. -/
theorem declaredEntry?_eq_none (policy : p.policy = .inheritanceAware) :
    p.declaredEntry? member = none := by
  obtain ⟨isPublic, _, feature, found, named⟩ := mirrors.shown member listed
  have nonempty : member.signatures p.resolver.resolve p.scope ≠ [] := by
    simpa only [Member.signatures, found] using Feature.signatures_ne_nil named _ _ _
  have left : p.LeavesToBases member :=
    ⟨policy, by simp [bases], isPublic, nonempty,
      mirrors.provided resolver scope bases listed spelled⟩
  have hidden : ¬ p.Shows member feature := fun shows => shows.2 left
  simp [found, hidden, Projection.declaredEntry?]

end Projected

end Mirrors

theorem Request.bases_projection (request : Request) {entry : TypeRef}
    (inherits : request.marker.types "Inheritance" = [entry]) {policy : Policy} {decl : TypeDecl} :
    (request.projection policy decl).bases =
      [request.resolver.resolve entry (.ofSite request.site)] := by
  simp [Request.projection, Settings.ofMarker, inherits]

/-- A class whose marker names the interface that mirrors it, applied to the type parameters of the
class, has no member to show of its own. -/
theorem Request.members_eq_nil_of_mirrors {files : List SourceFile} {own twin : Site × TypeDecl}
    (mirrors : Mirrors files own twin)
    (spelled : ∀ member ∈ own.2.members, ∀ feature ∈ member.feature?, ∀ type ∈ feature.types,
      type.Spelled)
    (request : Request) (site : request.site = own.1)
    (resolver : request.resolver = (TypeTable.ofFiles files).resolver) {entry : TypeRef}
    (inherits : request.marker.types "Inheritance" = [entry])
    (resolves : request.resolver.resolve entry (.ofSite own.1) = Mirrors.base own twin) :
    (request.projection .inheritanceAware own.2).members = some [] := by
  have bases : (request.projection .inheritanceAware own.2).bases = [Mirrors.base own twin] := by
    rw [request.bases_projection inherits, site, resolves]
  have scope : (request.projection .inheritanceAware own.2).scope = .ofSite own.1 :=
    congrArg Scope.ofSite site
  have hidden (member : Member) (listed : member ∈ own.2.members) :
      Projection.declaredEntry? (request.projection .inheritanceAware own.2) member = none :=
    mirrors.declaredEntry?_eq_none resolver scope bases listed (spelled member listed) rfl
  have implied : (request.projection .inheritanceAware own.2).impliedMembers = [] := by
    have noRecord : PrimaryConstructor.ofType? own.2 = none := by
      simp [PrimaryConstructor.ofType?, mirrors.isClass, TypeKind.isRecord]
    simp [Projection.impliedMembers, Request.projection, noRecord]
  rw [Projection.members_eq_nil_iff, Projection.entries, implied]
  constructor
  · constructor
    · intro member listed
      exact mirrors.endsFor resolver scope bases listed (spelled member listed)
    · simp [implied]
  · exact List.append_eq_nil_iff.mpr ⟨List.filterMap_eq_nil_iff.mpr hidden, rfl⟩

section Siblings
variable (typeParameters : List TypeParameter) (members : List Member)

def siblingClass : TypeDecl :=
  ⟨none, [], ["public"], .classType, "C", typeParameters, none, [], [], members⟩

def siblingInterface : TypeDecl :=
  ⟨none, [], ["public"], .interface, "B", typeParameters, none, [], [],
    members.map Member.withoutPublic⟩

/-- A file with the class `C` and the interface `B`, which has the members of `C` without
`public`. -/
def siblingFile : SourceFile :=
  ⟨"C.cs", [],
    [.ofType (siblingClass typeParameters members) [],
      .ofType (siblingInterface typeParameters members) []]⟩

def siblingEntry (number : Nat) (decl : TypeDecl) : Site × TypeDecl :=
  (⟨⟨number, .type decl⟩, [⟨0, .file []⟩]⟩, decl)

/-- The request for `C`, with static members and with a base as written. -/
def siblingRequest (base : TypeRef) : Request where
  file := siblingFile typeParameters members
  site := (siblingEntry 1 (siblingClass typeParameters members)).1
  marker := .ofText "AutoInterface" (some
    [⟨some "Inheritance", .collection [.typeOf base]⟩,
      ⟨some "StaticMembers", .literal (.bool true)⟩])
  resolver := (TypeTable.ofFiles [siblingFile typeParameters members]).resolver
  stop := .never

variable {typeParameters members}

theorem mirrors_siblings
    (shown : ∀ member ∈ members, member.isPublic = true ∧ member.isPrivate = false ∧
      ∃ feature, member.feature? = some feature ∧ feature.hasNames = true)
    (classLeaf : (TypeTable.ofFiles [siblingFile typeParameters members]).IsLeaf ["C"])
    (interfaceLeaf : (TypeTable.ofFiles [siblingFile typeParameters members]).IsLeaf ["B"]) :
    Mirrors [siblingFile typeParameters members]
      (siblingEntry 1 (siblingClass typeParameters members))
      (siblingEntry 2 (siblingInterface typeParameters members)) where
  declared := ⟨_, List.mem_singleton_self _, List.mem_cons_self,
    List.mem_cons_of_mem _ (List.mem_singleton_self _)⟩
  siblings := rfl
  isClass := rfl
  isInterface := rfl
  typeParameters := rfl
  members := rfl
  shown := shown
  unique := by
    intro file listed other inside isInterface _
    rw [List.mem_singleton.mp listed] at inside
    obtain rfl | inside := List.mem_cons.mp inside
    · cases isInterface
    · exact List.mem_singleton.mp inside
  ownLeaf := classLeaf
  twinLeaf := interfaceLeaf

/-- No node of the files stands directly in the node of this site. -/
def Childless (files : List SourceFile) (site : Site) : Prop :=
  ∀ file ∈ files, ∀ other ∈ file.sites, other.above.head? ≠ some site.toNumberedNode

/-- Of the three nodes of the file only the file itself has nodes in it. -/
theorem childless_siblings {site : Site} (inner : 0 ≠ site.number) :
    Childless [siblingFile typeParameters members] site := by
  intro file listed other inside parent
  have sites : (siblingFile typeParameters members).sites =
      [⟨⟨0, .file []⟩, []⟩, (siblingEntry 1 (siblingClass typeParameters members)).1,
        (siblingEntry 2 (siblingInterface typeParameters members)).1] := rfl
  rw [List.mem_singleton.mp listed, sites] at inside
  simp only [List.mem_cons, List.not_mem_nil, or_false] at inside
  obtain rfl | rfl | rfl := inside
  · cases parent
  · exact inner (congrArg NumberedNode.number (Option.some.inj parent))
  · exact inner (congrArg NumberedNode.number (Option.some.inj parent))

end Siblings

/-- A method that takes an array of `T` by reference, and two static events in one declaration. -/
def swapMembers : List Member :=
  [⟨none, [], ["public"], .feature (.method ⟨.simple "T", none, "Swap", [],
      [⟨[], ["ref"], .array (.simple "T") 1, "items", none⟩], []⟩)⟩,
    ⟨none, [], ["public", "static"],
      .feature (.eventField (.simple "Action") ["Added", "Removed"])⟩]

def swapBase : TypeRef :=
  .named ⟨none, [⟨"B", [.simple "T"]⟩]⟩

theorem mirrors_swapMembers :
    Mirrors [siblingFile [⟨none, "T"⟩] swapMembers]
      (siblingEntry 1 (siblingClass [⟨none, "T"⟩] swapMembers))
      (siblingEntry 2 (siblingInterface [⟨none, "T"⟩] swapMembers)) := by
  refine mirrors_siblings ?_ (by decide +kernel) (by decide +kernel)
  simp only [swapMembers, List.forall_mem_cons]
  exact ⟨⟨by decide, by decide, _, rfl, rfl⟩, ⟨by decide, by decide, _, rfl, rfl⟩, by simp⟩

theorem spelled_swapMembers : ∀ member ∈ swapMembers, ∀ feature ∈ member.feature?,
    ∀ type ∈ feature.types, type.Spelled := by
  have plain := TypeRef.spelled_simple
  simp only [swapMembers, Member.feature?, Option.mem_def, Option.some.injEq, forall_eq',
    List.forall_mem_cons, Feature.types, List.map_cons, List.map_nil]
  exact ⟨⟨plain "T", .array (plain "T"), by simp⟩, ⟨plain "Action", by simp⟩, by simp⟩

/-- Beside its mirror the class shows nothing; without the look at the bases it shows both
declarations. -/
theorem Request.members_swapMembers_eq_nil :
    let request := siblingRequest [⟨none, "T"⟩] swapMembers swapBase
    let decl := siblingClass [⟨none, "T"⟩] swapMembers
    (request.projection .inheritanceAware decl).members = some [] ∧
      (request.projection .declaredModifiers decl).members.map (·.map (·.declaration)) =
        some ["T Swap(ref T[] items);", "static abstract event Action Added, Removed;"] := by
  intro request decl
  have inherits : request.marker.types "Inheritance" = [swapBase] := by decide +kernel
  have resolves : request.resolver.resolve swapBase (.ofSite (siblingEntry 1 decl).1) =
      Mirrors.base (siblingEntry 1 decl)
        (siblingEntry 2 (siblingInterface [⟨none, "T"⟩] swapMembers)) := by rfl
  exact ⟨Request.members_eq_nil_of_mirrors mirrors_swapMembers spelled_swapMembers request rfl rfl
    inherits resolves, by decide +kernel⟩

/-- A property whose type is a name without segments. -/
def unspelledProperty : Property :=
  ⟨.named ⟨none, []⟩, none, "P", some [⟨.get, []⟩]⟩

def unspelledMember : Member :=
  ⟨none, [], ["public"], .feature (.property unspelledProperty)⟩

def unspelledRequest : Request :=
  siblingRequest [] [unspelledMember] (.simple "B")

theorem mirrors_unspelledMember :
    Mirrors [siblingFile [] [unspelledMember]] (siblingEntry 1 (siblingClass [] [unspelledMember]))
      (siblingEntry 2 (siblingInterface [] [unspelledMember])) := by
  refine mirrors_siblings ?_ (by decide +kernel) (by decide +kernel)
  simp only [List.forall_mem_cons]
  exact ⟨⟨by decide, by decide, _, rfl, rfl⟩, by simp⟩

/-- The class with this member, and the interface beside it as its base. -/
def unspelledProjection : Projection :=
  unspelledRequest.projection .inheritanceAware (siblingClass [] [unspelledMember])

theorem types_unspelledRequest :
    unspelledRequest.marker.types "Inheritance" = [.simple "B"] := by
  decide +kernel

theorem resolve_unspelledRequest :
    unspelledRequest.resolver.resolve (.simple "B") (.ofSite unspelledRequest.site) =
      .named ["B"] [] := by
  rfl

/-- A name without segments means the innermost type, which is the class in one scope and the
interface in the other. -/
theorem providedByBases_unspelledMember : ∀ signature ∈
    unspelledMember.signatures unspelledProjection.resolver.resolve unspelledProjection.scope,
    unspelledProjection.resolver.providedByBases unspelledProjection.bases signature =
      some false := by
  have bases : unspelledProjection.bases = [.named ["B"] []] := by
    rw [unspelledProjection, unspelledRequest.bases_projection types_unspelledRequest,
      resolve_unspelledRequest]
  have topmost :
      (offered unspelledProjection.resolver.interface? (.named ["B"] [])).bases = [] := by rfl
  intro signature declared
  rw [bases, List.mem_singleton.mp declared, providedByBases_singleton_eq_any _ topmost]
  decide +kernel

theorem exists_members_unspelledProjection :
    ∃ shown, unspelledProjection.members = some shown ∧ shown ≠ [] := by
  have ends : unspelledProjection.SearchesEnd := by
    refine ⟨fun member listed _ _ _ _ _ _ signature asked => ?_, fun _ none => nomatch none⟩
    obtain rfl := List.mem_singleton.mp listed
    exact Option.isSome_of_eq_some
      (providedByBases_unspelledMember signature (Projection.mem_of_mem_searchedFor asked))
  have shows : unspelledProjection.Shows unspelledMember (.property unspelledProperty) := by
    refine ⟨⟨by decide, .inl rfl, .inl rfl⟩, ?_⟩
    rintro ⟨_, _, _, _, provided⟩
    have absent := providedByBases_unspelledMember _ (List.mem_singleton_self _)
    rw [provided _ (List.mem_singleton_self _)] at absent
    cases absent
  have members := (unspelledProjection.members_eq_some_iff _).mpr ⟨ends, rfl⟩
  refine ⟨_, members, fun nothing => ?_⟩
  rw [nothing, Projection.members_eq_nil_iff] at members
  have hidden : unspelledProjection.declaredEntry? unspelledMember = none :=
    List.filterMap_eq_nil_iff.mp (List.append_eq_nil_iff.mp members.2).1 _
      (List.mem_singleton_self _)
  have found : unspelledMember.feature? = some (.property unspelledProperty) := rfl
  simp [found, shows, Projection.declaredEntry?] at hidden

/-- With such a name the class keeps a member that its mirror has as well, though nothing stands
inside the two. -/
theorem Request.members_unspelled_ne_nil :
    ¬ ∀ (files : List SourceFile) (own twin : Site × TypeDecl) (request : Request)
        (entry : TypeRef),
      Mirrors files own twin → Childless files own.1 → Childless files twin.1 →
      request.site = own.1 →
      request.resolver = (TypeTable.ofFiles files).resolver →
      request.marker.types "Inheritance" = [entry] →
      request.resolver.resolve entry (.ofSite own.1) = Mirrors.base own twin →
      ∀ shown, (request.projection .inheritanceAware own.2).members = some shown →
        shown = [] := by
  intro empty
  obtain ⟨shown, ends, nonempty⟩ := exists_members_unspelledProjection
  exact nonempty (empty _ _ _ unspelledRequest _ mirrors_unspelledMember
    (childless_siblings (by decide)) (childless_siblings (by decide)) rfl rfl
    types_unspelledRequest resolve_unspelledRequest shown ends)

end InterfaceGen
