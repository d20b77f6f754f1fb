import InterfaceGen.Projection
import InterfaceGen.Proofs.BaseSearch

/-!
The members of a projection as one list. The pass over the declared members, the pass over the
members that a record implies and the check for repeated declarations are three loops in one; here
they are taken apart: the members are the first occurrences, by declaration text, in the list of
all entries that the rules admit. The loops ask the bases for members, and they get through exactly
if each of these searches ends.
-/

namespace InterfaceGen
namespace Projection

/-- The rules for a declared feature that have nothing to do with the bases: no marker leaves it
out, it is public or implements the interface explicitly, and it is not static unless static members
are asked for. -/
def AdmitsFeature (p : Projection) (member : Member) (feature : Feature) : Prop :=
  (∀ attr ∈ AttributeSection.allAttributes member.sections,
      Attribute.wordNames attr.word Marker.ignore = false) ∧
    (member.isPublic = true ∨
      feature.qualifier?.bind TypeRef.lastWord? = some (p.settings.targetName p.decl.name)) ∧
    (member.isStatic = false ∨ p.settings.includeStatic = true)

instance (p : Projection) (member : Member) (feature : Feature) :
    Decidable (p.AdmitsFeature member feature) :=
  inferInstanceAs (Decidable (_ ∧ _ ∧ _))

/-- The bases are looked at, and they provide each of the member's signatures, of which there is at
least one. Only public members are left to the bases. -/
def LeavesToBases (p : Projection) (member : Member) : Prop :=
  p.policy = .inheritanceAware ∧ p.bases ≠ [] ∧ member.isPublic = true ∧
    member.signatures p.resolver.resolve p.scope ≠ [] ∧
    ∀ signature ∈ member.signatures p.resolver.resolve p.scope,
      p.resolver.providedByBases p.bases signature = some true

instance (p : Projection) (member : Member) : Decidable (p.LeavesToBases member) :=
  inferInstanceAs (Decidable (_ ∧ _ ∧ _ ∧ _ ∧ _))

/-- The rules under which a declared feature is shown. -/
def Shows (p : Projection) (member : Member) (feature : Feature) : Prop :=
  p.AdmitsFeature member feature ∧ ¬ p.LeavesToBases member

instance (p : Projection) (member : Member) (feature : Feature) :
    Decidable (p.Shows member feature) :=
  inferInstanceAs (Decidable (_ ∧ _))

/-- What the interface shows for a declared member, if the rules admit it. -/
def declaredEntry? (p : Projection) (member : Member) : Option InterfaceMember :=
  member.feature?.bind fun feature =>
    if p.Shows member feature then
      some ⟨member.docs, member.sections,
        Marker.accessKeywords member.sections ++
          (if member.isStatic then "static abstract " else "") ++ feature.render⟩
    else none

/-- The members that the type implies once its whole body has been read. -/
def impliedMembers (p : Projection) : List ImpliedMember :=
  match PrimaryConstructor.ofType? p.decl with
  | none => []
  | some record => (p.decl.members.foldl (·.observe p.resolve ·) record).implied

/-- All entries that the rules admit, repeated declarations included: the declared members, then
those implied members that `isLeftOut` does not leave out. -/
def entries (p : Projection) (isLeftOut : ImpliedMember → Bool) : List InterfaceMember :=
  p.decl.members.filterMap p.declaredEntry? ++
    (p.impliedMembers.filter (!isLeftOut ·)).map (⟨none, [], ·.render⟩)

def providesImplied (p : Projection) (member : ImpliedMember) : Bool :=
  p.resolver.providedByBases p.bases (member.signature p.resolve) = some true

/-- Those of the signatures that a search is made for: each in turn, as long as all before it are
found. -/
def searchedFor (search : Signature → Option Bool) : List Signature → List Signature
  | [] => []
  | signature :: rest =>
      signature :: if search signature = some true then searchedFor search rest else []

theorem mem_of_mem_searchedFor {search : Signature → Option Bool} {signatures : List Signature}
    {signature : Signature} (h : signature ∈ searchedFor search signatures) :
    signature ∈ signatures := by
  induction signatures with
  | nil => exact h
  | cons first rest ih =>
      obtain rfl | later := List.mem_cons.mp h
      · exact List.mem_cons_self
      · split at later
        · exact List.mem_cons_of_mem _ (ih later)
        · cases later

/-- The searches for a declared member end. There are none unless the bases are looked at, the
member is public and the other rules admit it. -/
def EndsFor (p : Projection) (member : Member) : Prop :=
  p.policy = .inheritanceAware → p.bases ≠ [] → member.isPublic = true →
    ∀ feature, member.feature? = some feature → p.AdmitsFeature member feature →
      ∀ signature ∈ searchedFor (p.resolver.providedByBases p.bases)
          (member.signatures p.resolver.resolve p.scope),
        (p.resolver.providedByBases p.bases signature).isSome = true

/-- The search for an implied member ends, if there is one. -/
def EndsForImplied (p : Projection) (member : ImpliedMember) : Prop :=
  p.policy = .inheritanceAware → p.bases ≠ [] →
    (p.resolver.providedByBases p.bases (member.signature p.resolve)).isSome = true

/-- Every search that is made for the projection ends. -/
structure SearchesEnd (p : Projection) : Prop where
  declared : ∀ member ∈ p.decl.members, p.EndsFor member
  implied : ∀ member ∈ p.impliedMembers, p.EndsForImplied member

/-- The first entry for each declaration text, in order. -/
def distinct : List InterfaceMember → List InterfaceMember
  | [] => []
  | entry :: rest => entry :: (distinct rest).filter (·.declaration ≠ entry.declaration)

theorem mem_of_mem_distinct {entries : List InterfaceMember} {entry : InterfaceMember}
    (h : entry ∈ distinct entries) : entry ∈ entries := by
  induction entries with
  | nil => exact h
  | cons first rest ih =>
      obtain rfl | later := List.mem_cons.mp h
      · exact List.mem_cons_self
      · exact List.mem_cons_of_mem _ (ih (List.mem_filter.mp later).1)

theorem declaration_mem_distinct {entries : List InterfaceMember} {entry : InterfaceMember}
    (h : entry ∈ entries) : entry.declaration ∈ (distinct entries).map (·.declaration) := by
  induction entries with
  | nil => cases h
  | cons first rest ih =>
      by_cases same : entry.declaration = first.declaration
      · simp [distinct, same]
      · have later : entry ∈ rest := by
          obtain rfl | later := List.mem_cons.mp h
          · exact absurd rfl same
          · exact later
        obtain ⟨twin, found, equal⟩ := List.mem_map.mp (ih later)
        refine List.mem_map.mpr ⟨twin, List.mem_cons_of_mem _ ?_, equal⟩
        exact List.mem_filter.mpr ⟨found, by simpa [equal] using same⟩

theorem nodup_map_distinct (entries : List InterfaceMember) :
    ((distinct entries).map (·.declaration)).Nodup := by
  induction entries with
  | nil => exact List.nodup_nil
  | cons first rest ih =>
      simp only [distinct, List.map_cons, List.nodup_cons]
      constructor
      · intro repeated
        obtain ⟨twin, found, equal⟩ := List.mem_map.mp repeated
        simpa [equal] using (List.mem_filter.mp found).2
      · exact ih.sublist (List.filter_sublist.map _)

theorem foldl_emit (shown entries : List InterfaceMember) :
    entries.foldl emit shown =
      shown ++ (distinct entries).filter fun entry =>
        !shown.any (·.declaration = entry.declaration) := by
  induction entries generalizing shown with
  | nil => simp [distinct]
  | cons first rest ih =>
      rw [List.foldl_cons, ih]
      -- an old declaration is filtered out of the rest on both sides; a new one joins `shown`
      by_cases old : shown.any (·.declaration = first.declaration)
      · simp only [emit, old, if_true, distinct, Bool.not_true, Bool.false_eq_true,
          not_false_eq_true, List.filter_cons_of_neg, List.filter_filter]
        congr 1
        apply List.filter_congr
        intro entry _
        by_cases same : entry.declaration = first.declaration <;> simp_all
      · simp only [emit, old, distinct, Bool.not_false, List.filter_cons_of_pos,
          List.filter_filter, Bool.false_eq_true, if_false, List.append_assoc,
          List.singleton_append]
        congr 2
        apply List.filter_congr
        intro entry _
        simp [Bool.and_comm, eq_comm]

theorem foldl_emit_nil (entries : List InterfaceMember) :
    entries.foldl emit [] = distinct entries := by
  simp [foldl_emit]

theorem isEligible_iff (p : Projection) (member : Member) (feature : Feature) :
    p.isEligible member feature = true ↔
      member.isPublic = true ∨
        feature.qualifier?.bind TypeRef.lastWord? = some (p.settings.targetName p.decl.name) := by
  cases h : feature.qualifier? <;> simp [isEligible, Settings.isTarget, h]

theorem leavesInherited_iff (p : Projection) :
    p.leavesInherited = true ↔ p.policy = .inheritanceAware ∧ p.bases ≠ [] := by
  simp [leavesInherited]

/-- Searching for one signature after the other has an outcome if each search that is made ends. -/
theorem allM_eq_some_iff (search : Signature → Option Bool) (signatures : List Signature)
    (all : Bool) :
    signatures.allM search = some all ↔
      (∀ signature ∈ searchedFor search signatures, (search signature).isSome = true) ∧
        (all = true ↔ ∀ signature ∈ signatures, search signature = some true) := by
  induction signatures with
  | nil => cases all <;> simp [List.allM, searchedFor]
  | cons signature rest ih =>
      cases answer : search signature with
      | none => simp [List.allM, searchedFor, answer]
      | some found =>
          cases found with
          | false => cases all <;> simp [List.allM, searchedFor, answer]
          | true => simpa [List.allM, searchedFor, answer] using ih

theorem isLeftToBases_eq_some_iff (p : Projection) (member : Member) (isLeft : Bool) :
    p.isLeftToBases member = some isLeft ↔
      (p.policy = .inheritanceAware → p.bases ≠ [] → member.isPublic = true →
        ∀ signature ∈ searchedFor (p.resolver.providedByBases p.bases)
            (member.signatures p.resolver.resolve p.scope),
          (p.resolver.providedByBases p.bases signature).isSome = true) ∧
      (isLeft = true ↔ p.LeavesToBases member) := by
  have looks : (p.leavesInherited && member.isPublic) = true ↔
      p.policy = .inheritanceAware ∧ p.bases ≠ [] ∧ member.isPublic = true := by
    rw [Bool.and_eq_true, leavesInherited_iff, and_assoc]
  by_cases all : p.policy = .inheritanceAware ∧ p.bases ≠ [] ∧ member.isPublic = true
  · rw [isLeftToBases, if_pos (looks.mpr all)]
    obtain ⟨policy, bases, isPublic⟩ := all
    cases signatures : member.signatures p.resolver.resolve p.scope with
    | nil => cases isLeft <;> simp [LeavesToBases, signatures, searchedFor]
    | cons first rest =>
        show (first :: rest).allM (p.resolver.providedByBases p.bases) = some isLeft ↔ _
        rw [allM_eq_some_iff]
        simp [LeavesToBases, policy, bases, isPublic, signatures]
  · have kept : ¬ p.LeavesToBases member := fun left => all ⟨left.1, left.2.1, left.2.2.1⟩
    rw [isLeftToBases, if_neg (mt looks.mp all)]
    cases isLeft with
    | false => simpa [kept] using fun policy bases isPublic => absurd ⟨policy, bases, isPublic⟩ all
    | true => simp [kept]

/-- The bases are only asked about a member that the other rules admit. -/
theorem declaration?_of_feature (p : Projection) {member : Member} {feature : Feature}
    (found : member.feature? = some feature) :
    p.declaration? member =
      if p.AdmitsFeature member feature then
        (p.isLeftToBases member).map fun isLeft =>
          if isLeft then none else some (declarationText member feature)
      else some none := by
  have unmarked : (AttributeSection.firstNamed? member.sections Marker.ignore).isSome = true ↔
      ¬ ∀ attr ∈ AttributeSection.allAttributes member.sections,
        Attribute.wordNames attr.word Marker.ignore = false := by
    simp [AttributeSection.firstNamed?]
  have static : (member.isStatic && !p.settings.includeStatic) = true ↔
      ¬ (member.isStatic = false ∨ p.settings.includeStatic = true) := by
    simp
  simp only [declaration?, found, unmarked, static, Bool.not_eq_true', ← Bool.not_eq_true,
    isEligible_iff, AdmitsFeature]
  grind

theorem declaration?_eq_some_iff (p : Projection) (member : Member) (text : Option String) :
    p.declaration? member = some text ↔
      p.EndsFor member ∧ (p.declaredEntry? member).map (·.declaration) = text := by
  cases found : member.feature? with
  | none => simp [declaration?, EndsFor, declaredEntry?, found]
  | some feature =>
      rw [p.declaration?_of_feature found]
      by_cases admits : p.AdmitsFeature member feature
      · simp only [EndsFor, declaredEntry?, found, Shows, admits, if_true, Option.map_eq_some_iff,
          isLeftToBases_eq_some_iff]
        by_cases left : p.LeavesToBases member <;> simp [left, admits, declarationText]
      · simp [EndsFor, declaredEntry?, found, Shows, admits]

/-- A loop whose steps get through under a condition each gets through if all conditions hold. -/
theorem foldlM_eq_some_iff {σ α : Type} {step : σ → α → Option σ} {next : σ → α → σ}
    {Ends : α → Prop}
    (each : ∀ state item result, step state item = some result ↔
      Ends item ∧ next state item = result)
    (items : List α) (state result : σ) :
    items.foldlM step state = some result ↔
      (∀ item ∈ items, Ends item) ∧ items.foldl next state = result := by
  induction items generalizing state with
  | nil => simp
  | cons item rest ih => simp [Option.bind_eq_some_iff, each, ih, and_assoc]

/-- What reading a member comes to if the searches for it end. -/
def afterMember (p : Projection) (progress : Progress) (member : Member) : Progress :=
  ⟨progress.record?.map (·.observe p.resolve member),
    (p.declaredEntry? member).toList.foldl emit progress.shown⟩

theorem readMember_eq_some_iff (p : Projection) (progress : Progress) (member : Member)
    (next : Progress) :
    p.readMember progress member = some next ↔
      p.EndsFor member ∧ p.afterMember progress member = next := by
  simp only [readMember, Option.map_eq_some_iff, declaration?_eq_some_iff, afterMember]
  cases found : member.feature? with
  | none => simp [found, declaredEntry?, and_assoc]
  | some feature =>
      by_cases shows : p.Shows member feature <;> simp [found, declaredEntry?, shows, and_assoc]

theorem foldl_afterMember (p : Projection) (members : List Member) (progress : Progress) :
    members.foldl p.afterMember progress =
      ⟨progress.record?.map (members.foldl (·.observe p.resolve ·)),
        (members.filterMap p.declaredEntry?).foldl emit progress.shown⟩ := by
  induction members generalizing progress with
  | nil => cases progress; simp
  | cons member rest ih =>
      rw [List.foldl_cons, ih, afterMember]
      cases h : p.declaredEntry? member <;> simp [h, Function.comp_def]

/-- The bases are looked at, and they provide the implied member. -/
def leavesOutImplied (p : Projection) (member : ImpliedMember) : Bool :=
  p.leavesInherited && p.providesImplied member

theorem leavesOutImplied_iff (p : Projection) (member : ImpliedMember) :
    p.leavesOutImplied member = true ↔
      p.policy = .inheritanceAware ∧ p.bases ≠ [] ∧
        p.resolver.providedByBases p.bases (member.signature p.resolve) = some true := by
  simp [leavesOutImplied, leavesInherited, providesImplied, and_assoc]

theorem addImplied_eq_some_iff (p : Projection) (shown : List InterfaceMember)
    (member : ImpliedMember) (next : List InterfaceMember) :
    p.addImplied shown member = some next ↔
      p.EndsForImplied member ∧
        (if !p.leavesOutImplied member then emit shown ⟨none, [], member.render⟩ else shown) =
          next := by
  by_cases looks : p.policy = .inheritanceAware ∧ p.bases ≠ []
  · have asks := p.leavesInherited_iff.mpr looks
    cases answer : p.resolver.providedByBases p.bases (member.signature p.resolve) with
    | none => simp [addImplied, leavesImplied, asks, isInherited, answer, EndsForImplied, looks]
    | some provided =>
        cases provided <;>
          simp [addImplied, leavesImplied, asks, isInherited, answer, EndsForImplied,
            leavesOutImplied, providesImplied]
  · have silent := eq_false_of_ne_true (mt p.leavesInherited_iff.mp looks)
    have ends : p.EndsForImplied member := fun policy bases => absurd ⟨policy, bases⟩ looks
    simp [addImplied, leavesImplied, silent, ends, leavesOutImplied]

theorem members_eq_some_iff (p : Projection) (shown : List InterfaceMember) :
    p.members = some shown ↔
      p.SearchesEnd ∧ distinct (p.entries p.leavesOutImplied) = shown := by
  have ends : p.SearchesEnd ↔ (∀ member ∈ p.decl.members, p.EndsFor member) ∧
      ∀ member ∈ p.impliedMembers, p.EndsForImplied member :=
    ⟨fun all => ⟨all.declared, all.implied⟩, fun both => ⟨both.1, both.2⟩⟩
  simp only [members, Option.bind_eq_bind, Option.bind_eq_some_iff,
    foldlM_eq_some_iff p.readMember_eq_some_iff, foldl_afterMember]
  rw [ends, ← foldl_emit_nil, Projection.entries, List.foldl_append]
  cases record : PrimaryConstructor.ofType? p.decl with
  | none => simp [impliedMembers, record, and_assoc]
  | some record =>
      simp [impliedMembers, record, foldlM_eq_some_iff p.addImplied_eq_some_iff, List.foldl_map,
        List.foldl_filter, and_assoc]

theorem members_eq_none_iff (p : Projection) : p.members = none ↔ ¬ p.SearchesEnd := by
  rw [Option.eq_none_iff_forall_ne_some]
  simp [members_eq_some_iff]

theorem members_eq_nil_iff (p : Projection) :
    p.members = some [] ↔ p.SearchesEnd ∧ p.entries p.leavesOutImplied = [] := by
  rw [members_eq_some_iff]
  cases p.entries p.leavesOutImplied <;> simp [distinct]

/-- The searches end if none is made. -/
theorem searchesEnd_of_silent {p : Projection}
    (silent : p.policy = .declaredModifiers ∨ p.bases = []) : p.SearchesEnd := by
  have never (policy : p.policy = .inheritanceAware) (bases : p.bases ≠ []) : False := by
    obtain modifiers | alone := silent
    · rw [modifiers] at policy
      cases policy
    · exact bases alone
  exact ⟨fun _ _ policy bases => (never policy bases).elim,
    fun _ _ policy bases => (never policy bases).elim⟩

/-- In a type table the searches end if the types above the bases are finite in number up to
equivalence. -/
theorem searchesEnd_of_finitelyManyAbove {p : Projection} {table : TypeTable}
    (resolver : p.resolver = table.resolver)
    (finite : BaseSearch.FinitelyManyAbove table.interface? p.bases) : p.SearchesEnd := by
  have ends (wanted : Signature) :
      (p.resolver.providedByBases p.bases wanted).isSome = true := by
    obtain ⟨representatives, represented⟩ := finite
    have start : BaseSearch.Invariant table.interface? p.bases wanted [] p.bases := .initial
    obtain ⟨answer, found, -⟩ :=
      BaseSearch.search_answers table.interface?_respectful represented [] p.bases start
    rw [resolver]
    exact Option.isSome_of_eq_some found
  exact ⟨fun _ _ _ _ _ _ _ _ signature _ => ends signature, fun _ _ _ _ => ends _⟩

/-- The record `R(int A)`. -/
def singleRecord : TypeDecl :=
  ⟨none, [], [], .recordClass, "R", [], some [.plain (.simple "int") "A"], [], [], []⟩

/-- The record beside the interface `IBase`, which declares `A`. -/
def recordTable : TypeTable :=
  let property : Member :=
    ⟨none, [], [], .feature (.property ⟨.simple "int", none, "A",
      some [⟨.get, []⟩, ⟨.init, []⟩]⟩)⟩
  let base : TypeDecl :=
    ⟨none, [], [], .interface, "IBase", [], none, [], [], [property]⟩
  TypeTable.ofFiles [⟨"R.cs", [], [.ofType base [], .ofType singleRecord []]⟩]

/-- The record with one base from a table. -/
def recordOver (table : TypeTable) (policy : Policy) (base : ResolvedType) : Projection :=
  { decl := singleRecord
    settings := .default
    scope := { Scope.empty with enclosing := ["R"] }
    resolver := table.resolver
    policy
    bases := [base] }

/-- The record with the base `IBase`, under the policy that looks at modifiers only. -/
def recordOverBase : Projection :=
  recordOver recordTable .declaredModifiers (.named ["IBase"] [])

theorem providesImplied_eq_any {p : Projection} {base : ResolvedType} (only : p.bases = [base])
    (topmost : (BaseSearch.offered p.resolver.interface? base).bases = [])
    (member : ImpliedMember) :
    p.providesImplied member =
      (BaseSearch.offered p.resolver.interface? base).members.any
        (·.equivalent (member.signature p.resolve)) := by
  rw [providesImplied, only, BaseSearch.providedByBases_singleton_eq_any p.resolver topmost]
  simp only [Option.some.injEq, Bool.decide_eq_true]

/-- `IBase` provides the property of the record and not its method. -/
theorem entries_recordOver (policy : Policy) :
    let p := recordOver recordTable policy (.named ["IBase"] [])
    p.entries p.providesImplied = [⟨none, [], "void Deconstruct(out int A);"⟩] := by
  intro p
  have implied : p.impliedMembers =
      [.property (.plain (.simple "int") "A") false, .deconstruct [.plain (.simple "int") "A"]] :=
    rfl
  have topmost : (BaseSearch.offered p.resolver.interface? (.named ["IBase"] [])).bases = [] := by
    rfl
  have property : p.providesImplied (.property (.plain (.simple "int") "A") false) = true := by
    rw [providesImplied_eq_any rfl topmost]
    cases policy <;> decide +kernel
  have method : p.providesImplied (.deconstruct [.plain (.simple "int") "A"]) = false := by
    rw [providesImplied_eq_any rfl topmost]
    cases policy <;> decide +kernel
  have text : ImpliedMember.render (.deconstruct [.plain (.simple "int") "A"]) =
      "void Deconstruct(out int A);" := by
    decide +kernel
  have declared : p.decl.members = [] := rfl
  simp [Projection.entries, declared, implied, property, method, text]

theorem finitelyManyAbove_recordTable :
    BaseSearch.FinitelyManyAbove recordTable.interface? [.named ["IBase"] []] := by
  have closed : BaseSearch.isClosed recordTable.interface? [.named ["IBase"] []]
      [.named ["IBase"] []] = true := by
    decide +kernel
  exact BaseSearch.finitelyManyAbove_of_isClosed recordTable.interface?_respectful closed

end Projection
end InterfaceGen
