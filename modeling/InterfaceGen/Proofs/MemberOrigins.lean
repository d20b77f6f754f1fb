import InterfaceGen.Proofs.ProjectedMembers

/-!
Where the declarations of an interface come from. A text stands in the interface exactly when it is
written for a member of the type, declared or implied, that the rules admit and that is not left to
the bases. So the two policies can be compared member by member, although each leaves out repeated
texts on its own: the policy that looks at the bases shows no text that the other does not show, and
what it leaves out the bases provide. Only the look at the bases can keep an interface from having
members at all.
-/

namespace InterfaceGen

/-- A member of a type that may have a declaration in the interface: a declared feature, or a member
that a record implies. -/
inductive Origin where
  | declared (member : Member) (feature : Feature)
  | implied (member : ImpliedMember)

namespace Origin

/-- The declaration that is written for it. -/
def text : Origin → String
  | .declared member feature => Projection.declarationText member feature
  | .implied member => member.render

/-- Implied members are public. -/
def isPublic : Origin → Bool
  | .declared member _ => member.isPublic
  | .implied _ => true

end Origin

namespace Projection

/-- The features of the type in the order of their declarations, then the members it implies. -/
def origins (p : Projection) : List Origin :=
  (p.decl.members.filterMap fun member => member.feature?.map (.declared member)) ++
    p.impliedMembers.map .implied

def signaturesOf (p : Projection) : Origin → List Signature
  | .declared member feature => feature.signatures p.resolver.resolve p.scope member.isStatic
  | .implied member => [member.signature p.resolve]

/-- All rules for showing a member but the one about the bases. There are none for implied
members. -/
def Admits (p : Projection) : Origin → Prop
  | .declared member feature => p.AdmitsFeature member feature
  | .implied _ => True

instance (p : Projection) (origin : Origin) : Decidable (p.Admits origin) :=
  match origin with
  | .declared member feature => inferInstanceAs (Decidable (p.AdmitsFeature member feature))
  | .implied _ => inferInstanceAs (Decidable True)

/-- The bases provide all its signatures, of which there is at least one. -/
def IsProvided (p : Projection) (origin : Origin) : Prop :=
  p.signaturesOf origin ≠ [] ∧
    ∀ signature ∈ p.signaturesOf origin,
      p.resolver.providedByBases p.bases signature = some true

/-- The rules admit it and it is not left to the bases. -/
def Shown (p : Projection) (origin : Origin) : Prop :=
  p.Admits origin ∧
    ¬ (p.policy = .inheritanceAware ∧ p.bases ≠ [] ∧ origin.isPublic = true ∧
      p.IsProvided origin)

theorem mem_origins {p : Projection} {origin : Origin} :
    origin ∈ p.origins ↔
      (∃ member ∈ p.decl.members, ∃ feature, member.feature? = some feature ∧
          .declared member feature = origin) ∨
        ∃ member ∈ p.impliedMembers, .implied member = origin := by
  simp only [origins, List.mem_append, List.mem_filterMap, Option.map_eq_some_iff, List.mem_map]

theorem signatures_of_feature (p : Projection) {member : Member} {feature : Feature}
    (found : member.feature? = some feature) :
    member.signatures p.resolver.resolve p.scope = p.signaturesOf (.declared member feature) := by
  simp only [Member.signatures, found, signaturesOf]

theorem shows_iff_shown (p : Projection) {member : Member} {feature : Feature}
    (found : member.feature? = some feature) :
    p.Shows member feature ↔ p.Shown (.declared member feature) := by
  simp only [Shows, LeavesToBases, p.signatures_of_feature found, Shown, Admits, IsProvided,
    Origin.isPublic]

theorem leavesOutImplied_iff_shown (p : Projection) (member : ImpliedMember) :
    p.leavesOutImplied member = false ↔ p.Shown (.implied member) := by
  rw [← Bool.not_eq_true, leavesOutImplied_iff]
  simp [Shown, Admits, IsProvided, Origin.isPublic, signaturesOf]

/-- The texts of the declarations in an interface. -/
def texts (shown : List InterfaceMember) : List String :=
  shown.map (·.declaration)

theorem mem_texts_distinct {entries : List InterfaceMember} {text : String} :
    text ∈ texts (distinct entries) ↔ text ∈ texts entries := by
  constructor
  · intro listed
    obtain ⟨entry, found, rfl⟩ := List.mem_map.mp listed
    exact List.mem_map_of_mem (mem_of_mem_distinct found)
  · intro listed
    obtain ⟨entry, found, rfl⟩ := List.mem_map.mp listed
    exact declaration_mem_distinct found

theorem declaredEntry?_eq_some_iff (p : Projection) (member : Member) (entry : InterfaceMember) :
    p.declaredEntry? member = some entry ↔
      ∃ feature, member.feature? = some feature ∧ p.Shown (.declared member feature) ∧
        ⟨member.docs, member.sections, declarationText member feature⟩ = entry := by
  unfold declaredEntry?
  rw [Option.bind_eq_some_iff]
  refine exists_congr fun feature => and_congr_right fun found => ?_
  rw [← p.shows_iff_shown found]
  by_cases shows : p.Shows member feature
  · simp [shows, declarationText]
  · simp [shows]

/-- A text stands in the interface exactly when it is that of a member shown. -/
theorem mem_texts_iff {p : Projection} {shown : List InterfaceMember}
    (ends : p.members = some shown) (text : String) :
    text ∈ texts shown ↔ ∃ origin ∈ p.origins, p.Shown origin ∧ origin.text = text := by
  obtain ⟨-, rfl⟩ := (p.members_eq_some_iff shown).mp ends
  rw [mem_texts_distinct]
  simp only [texts, Projection.entries, List.map_append, List.mem_append, List.mem_map,
    List.mem_filterMap, List.mem_filter, declaredEntry?_eq_some_iff, Bool.not_eq_true',
    leavesOutImplied_iff_shown]
  constructor
  · rintro (⟨_, ⟨member, declared, feature, found, shown, rfl⟩, rfl⟩ |
      ⟨_, ⟨member, ⟨implied, shown⟩, rfl⟩, rfl⟩)
    · exact ⟨.declared member feature,
        mem_origins.mpr (.inl ⟨member, declared, feature, found, rfl⟩), shown, rfl⟩
    · exact ⟨.implied member, mem_origins.mpr (.inr ⟨member, implied, rfl⟩), shown, rfl⟩
  · rintro ⟨origin, listed, shown, rfl⟩
    obtain ⟨member, declared, feature, found, rfl⟩ | ⟨member, implied, rfl⟩ := mem_origins.mp listed
    · exact .inl ⟨_, ⟨member, declared, feature, found, shown, rfl⟩, rfl⟩
    · exact .inr ⟨_, ⟨member, ⟨implied, shown⟩, rfl⟩, rfl⟩

/-- Without bases there is nothing to look at, and every policy gives the same list. -/
theorem members_eq_of_no_bases {p : Projection} (alone : p.bases = []) (policy : Policy) :
    { p with policy }.members = p.members := by
  let q : Projection := { p with policy }
  have kept (r : Projection) (none : r.bases = []) (member : Member) : ¬ r.LeavesToBases member :=
    fun left => left.2.1 none
  have declared : q.declaredEntry? = p.declaredEntry? := by
    funext member
    simp only [Shows, declaredEntry?, kept q alone, kept p alone]
    rfl
  have implied : q.leavesOutImplied = p.leavesOutImplied := by
    funext member
    simp [leavesOutImplied, leavesInherited, q, alone]
  have entries : q.entries q.leavesOutImplied = p.entries p.leavesOutImplied := by
    rw [Projection.entries, declared, implied]
    rfl
  apply Option.ext
  intro shown
  show q.members = some shown ↔ p.members = some shown
  rw [members_eq_some_iff, members_eq_some_iff, entries]
  exact and_congr_left fun _ =>
    iff_of_true (searchesEnd_of_silent (.inr alone)) (searchesEnd_of_silent (.inr alone))

/-- Where the bases are not looked at, the interface has members. -/
theorem exists_members_of_declaredModifiers {p : Projection}
    (policy : p.policy = .declaredModifiers) : ∃ shown, p.members = some shown :=
  ⟨_, (p.members_eq_some_iff _).mpr ⟨searchesEnd_of_silent (.inl policy), rfl⟩⟩

/-- The two policies differ only by what the bases provide. Each text that is shown when the bases
are looked at is shown when they are not. If a text is lost by the look at the bases, each member
that would be written with it and that passes the other rules is provided by them. -/
theorem policies_differ_by_provided (p : Projection) :
    let aware : Projection := { p with policy := .inheritanceAware }
    let plain : Projection := { p with policy := .declaredModifiers }
    ∃ all, plain.members = some all ∧
      (∀ shown, aware.members = some shown →
        (∀ text ∈ texts shown, text ∈ texts all) ∧
          ∀ text ∈ texts all, text ∉ texts shown →
            ∀ origin ∈ p.origins, origin.text = text → p.Admits origin →
              p.signaturesOf origin ≠ [] ∧
                ∀ signature ∈ p.signaturesOf origin,
                  p.resolver.providedByBases p.bases signature = some true) ∧
      (p.bases = [] → aware.members = plain.members) := by
  intro aware plain
  obtain ⟨all, returned⟩ : ∃ all, plain.members = some all :=
    exists_members_of_declaredModifiers rfl
  refine ⟨all, returned, fun shown ends => ⟨?_, ?_⟩, ?_⟩
  · intro text listed
    obtain ⟨origin, member, ⟨admitted, _⟩, written⟩ := (mem_texts_iff ends text).mp listed
    refine (mem_texts_iff returned text).mpr ⟨origin, member, ⟨admitted, ?_⟩, written⟩
    rintro ⟨policy, _⟩
    cases policy
  · intro text _ lost origin member written admitted
    apply Classical.byContradiction
    intro unprovided
    apply lost
    refine (mem_texts_iff ends text).mpr ⟨origin, member, ⟨admitted, ?_⟩, written⟩
    rintro ⟨_, _, _, provided⟩
    exact unprovided provided
  · intro alone
    exact (members_eq_of_no_bases alone _).trans (members_eq_of_no_bases alone _).symm

/-- In the record `R(int A)` the property `A` is lost by the look at the base that declares it. -/
theorem policies_differ_recordOverBase :
    let aware : Projection := { recordOverBase with policy := .inheritanceAware }
    let plain : Projection := { recordOverBase with policy := .declaredModifiers }
    let property : ImpliedMember := .property (.plain (.simple "int") "A") false
    ∃ all shown, plain.members = some all ∧ aware.members = some shown ∧
      property.render ∈ texts all ∧ property.render ∉ texts shown ∧
        recordOverBase.resolver.providedByBases recordOverBase.bases
          (property.signature recordOverBase.resolve) = some true := by
  intro aware plain property
  have searches : aware.SearchesEnd :=
    searchesEnd_of_finitelyManyAbove rfl finitelyManyAbove_recordTable
  have shown : aware.members = some [⟨none, [], "void Deconstruct(out int A);"⟩] :=
    (aware.members_eq_some_iff _).mpr
      ⟨searches, congrArg distinct (entries_recordOver .inheritanceAware)⟩
  obtain ⟨all, returned, compared, -⟩ := policies_differ_by_provided recordOverBase
  obtain ⟨-, provided⟩ := compared _ shown
  have listed : Origin.implied property ∈ recordOverBase.origins := List.mem_cons_self
  have kept : property.render ∈ texts all := by
    refine (mem_texts_iff returned _).mpr ⟨.implied property, listed, ⟨trivial, ?_⟩, rfl⟩
    rintro ⟨policy, _⟩
    cases policy
  have lost : property.render ∉ texts [⟨none, [], "void Deconstruct(out int A);"⟩] := by
    decide +kernel
  obtain ⟨-, each⟩ := provided _ kept lost (.implied property) listed rfl trivial
  exact ⟨all, _, returned, shown, kept, lost, each _ (List.mem_singleton_self _)⟩

end Projection
end InterfaceGen
