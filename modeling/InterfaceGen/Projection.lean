import InterfaceGen.Marker.Basic
import InterfaceGen.PrimaryConstructor
import InterfaceGen.Settings

/-!
Projection: the members of the interface for a type. A declared feature is shown if no marker
leaves it out, if it is public or implements the interface explicitly, and if it is not static
unless static members are asked for. Under the inheritance-aware policy a public feature is left to
the base interfaces when these provide all of it. The members that a record implies follow, and a
declaration that has been written once is not repeated. A projection that asks the bases for a
member has no members at all if that search does not end.
-/

namespace InterfaceGen

/-- Whether members that the bases provide are left out. -/
inductive Policy where
  | declaredModifiers
  | inheritanceAware
  deriving DecidableEq

structure InterfaceMember where
  docs : Option DocComment
  sections : List AttributeSection
  declaration : String

/-- A type whose interface is wanted, with all that its members are judged by. -/
structure Projection where
  decl : TypeDecl
  settings : Settings
  scope : Scope
  resolver : Resolver
  policy : Policy
  /-- The base interfaces of the wanted interface. -/
  bases : List ResolvedType

namespace Projection

def resolve (p : Projection) (type : TypeRef) : ResolvedType :=
  p.resolver.resolve type p.scope

/-- Members that the bases provide are left out. -/
def leavesInherited (p : Projection) : Bool :=
  p.policy = .inheritanceAware && !p.bases.isEmpty

def isInherited (p : Projection) (signature : Signature) : Option Bool :=
  p.resolver.providedByBases p.bases signature

/-- The member is public or implements the wanted interface explicitly. -/
def isEligible (p : Projection) (member : Member) (feature : Feature) : Bool :=
  member.isPublic || feature.qualifier?.any (p.settings.isTarget p.decl.name)

/-- The bases provide each of the member's signatures, of which there is at least one. They are
asked for one after the other, up to the first that they do not provide. -/
def isLeftToBases (p : Projection) (member : Member) : Option Bool :=
  if p.leavesInherited && member.isPublic then
    match member.signatures p.resolver.resolve p.scope with
    | [] => some false
    | signatures => signatures.allM p.isInherited
  else some false

/-- The bases are looked at, and they provide the implied member. -/
def leavesImplied (p : Projection) (member : ImpliedMember) : Option Bool :=
  if p.leavesInherited then p.isInherited (member.signature p.resolve) else some false

/-- The declaration of a feature with its access keywords; a static one is abstract in the
interface. -/
def declarationText (member : Member) (feature : Feature) : String :=
  Marker.accessKeywords member.sections ++
    (if member.isStatic then "static abstract " else "") ++ feature.render

/-- The declaration that the interface shows for a member, if it shows one. -/
def declaration? (p : Projection) (member : Member) : Option (Option String) :=
  match member.feature? with
  | none => some none
  | some feature =>
      if (AttributeSection.firstNamed? member.sections Marker.ignore).isSome then some none
      else if !p.isEligible member feature then some none
      else if member.isStatic && !p.settings.includeStatic then some none
      else
        (p.isLeftToBases member).map fun isLeft =>
          if isLeft then none else some (declarationText member feature)

/-- Adds a member unless its declaration stands there already. -/
def emit (shown : List InterfaceMember) (entry : InterfaceMember) : List InterfaceMember :=
  if shown.any (·.declaration = entry.declaration) then shown else shown ++ [entry]

/-- How far the members have been read: the record parameters, and the interface members so far. -/
structure Progress where
  record? : Option PrimaryConstructor
  shown : List InterfaceMember

def readMember (p : Projection) (progress : Progress) (member : Member) : Option Progress :=
  (p.declaration? member).map fun declaration =>
    { record? := progress.record?.map (·.observe p.resolve member)
      shown :=
        match declaration with
        | none => progress.shown
        | some text => emit progress.shown ⟨member.docs, member.sections, text⟩ }

/-- Adds a member that a record implies, unless the bases provide it. -/
def addImplied (p : Projection) (shown : List InterfaceMember) (member : ImpliedMember) :
    Option (List InterfaceMember) :=
  (p.leavesImplied member).map fun isLeft =>
    if isLeft then shown else emit shown ⟨none, [], member.render⟩

/-- The members of the interface in the order in which they are written. -/
def members (p : Projection) : Option (List InterfaceMember) := do
  let progress ← p.decl.members.foldlM p.readMember ⟨PrimaryConstructor.ofType? p.decl, []⟩
  match progress.record? with
  | none => some progress.shown
  | some record => record.implied.foldlM p.addImplied progress.shown

end Projection
end InterfaceGen
