import InterfaceGen.Proofs.ProjectedMembers
import InterfaceGen.TypeTable.Resolution

/-!
The accessors that an interface shows of a property or an indexer. The written block and the set of
accessors in the signature are filtered apart from each other, and both keep the accessors without
any modifier. So they always agree; they agree with visibility, under which only an access modifier
hides an accessor, exactly if each kind that is visible is also declared without modifiers.
-/

namespace InterfaceGen

namespace Accessor

/-- The accessor has an access modifier of its own, so that it is less visible than its member. -/
def IsRestricted (accessor : Accessor) : Prop :=
  ∃ modifier ∈ accessor.modifiers, modifier ∈ ["private", "protected", "internal"]

/-- Some accessor of this kind has no modifier at all. -/
def IsPlainIn (accessors : List Accessor) (kind : AccessorKind) : Prop :=
  ∃ accessor ∈ accessors, accessor.kind = kind ∧ accessor.modifiers = []

/-- Some accessor of this kind is as visible as the member. -/
def IsVisibleIn (accessors : List Accessor) (kind : AccessorKind) : Prop :=
  ∃ accessor ∈ accessors, accessor.kind = kind ∧ ¬ accessor.IsRestricted

/-- The keyword of this kind, with its semicolon, is a word of the block. -/
def IsWrittenIn (block : String) (kind : AccessorKind) : Prop :=
  (kind.keyword ++ ";").toList ∈ block.toList.splitOn ' '

instance (accessor : Accessor) : Decidable accessor.IsRestricted :=
  inferInstanceAs (Decidable (∃ modifier ∈ accessor.modifiers, _))

instance (accessors : List Accessor) (kind : AccessorKind) :
    Decidable (IsPlainIn accessors kind) :=
  inferInstanceAs (Decidable (∃ accessor ∈ accessors, _))

instance (accessors : List Accessor) (kind : AccessorKind) :
    Decidable (IsVisibleIn accessors kind) :=
  inferInstanceAs (Decidable (∃ accessor ∈ accessors, _))

theorem IsPlainIn.isVisibleIn {accessors : List Accessor} {kind : AccessorKind}
    (h : IsPlainIn accessors kind) : IsVisibleIn accessors kind := by
  obtain ⟨accessor, listed, same, plain⟩ := h
  refine ⟨accessor, listed, same, ?_⟩
  rintro ⟨modifier, member, -⟩
  rw [plain] at member
  cases member

theorem isPlainIn_iff_exposed {accessors : List Accessor} {kind : AccessorKind} :
    IsPlainIn accessors kind ↔ ∃ accessor ∈ accessors.filter isExposed, accessor.kind = kind := by
  constructor
  · rintro ⟨accessor, listed, same, plain⟩
    exact ⟨accessor, List.mem_filter.mpr ⟨listed, by simp [isExposed, plain]⟩, same⟩
  · rintro ⟨accessor, kept, same⟩
    obtain ⟨listed, exposed⟩ := List.mem_filter.mp kept
    exact ⟨accessor, listed, same, List.isEmpty_iff.mp exposed⟩

section Block

/-- A keyword with its semicolon is one word. -/
theorem splitOn_keyword (kind : AccessorKind) :
    (kind.keyword ++ ";").toList.splitOn ' ' = [(kind.keyword ++ ";").toList] := by
  apply List.splitOn_eq_singleton
  cases kind <;> decide

theorem splitOn_keywords (accessors : List Accessor) :
    (Text.joined (accessors.map (·.kind.keyword ++ "; ")) ++ "\x7d").toList.splitOn ' ' =
      accessors.map (fun accessor => (accessor.kind.keyword ++ ";").toList) ++ [['\x7d']] := by
  induction accessors with
  | nil => decide
  | cons accessor rest ih =>
      have chars : (Text.joined ((accessor :: rest).map (·.kind.keyword ++ "; ")) ++
          "\x7d").toList = (accessor.kind.keyword ++ ";").toList ++
            ' ' :: (Text.joined (rest.map (·.kind.keyword ++ "; ")) ++ "\x7d").toList := by
        simp [Text.joined]
      rw [chars, List.splitOn_append_cons_self, splitOn_keyword, ih]
      rfl

theorem splitOn_block (accessors : List Accessor) :
    (block (some accessors)).toList.splitOn ' ' =
      ['\x7b'] :: (accessors.filter isExposed).map
        (fun accessor => (accessor.kind.keyword ++ ";").toList) ++ [['\x7d']] := by
  have chars : (block (some accessors)).toList = ['\x7b'] ++ ' ' ::
      (Text.joined ((accessors.filter isExposed).map (·.kind.keyword ++ "; ")) ++
        "\x7d").toList := by
    simp [block]
  rw [chars, List.splitOn_append_cons_self, splitOn_keywords]
  rfl

theorem keyword_injective {kind other : AccessorKind}
    (same : (kind.keyword ++ ";").toList = (other.keyword ++ ";").toList) : kind = other := by
  revert same
  cases kind <;> cases other <;> decide

theorem isWrittenIn_block_iff (accessors : List Accessor) (kind : AccessorKind) :
    IsWrittenIn (block (some accessors)) kind ↔ IsPlainIn accessors kind := by
  have braces : (kind.keyword ++ ";").toList ≠ ['\x7b'] ∧
      (kind.keyword ++ ";").toList ≠ ['\x7d'] := by
    cases kind <;> decide
  rw [IsWrittenIn, splitOn_block, isPlainIn_iff_exposed]
  simp only [List.cons_append, List.mem_cons, List.mem_append, List.mem_map, List.not_mem_nil,
    braces, false_or, or_false]
  constructor
  · rintro ⟨accessor, kept, same⟩
    exact ⟨accessor, kept, keyword_injective same⟩
  · rintro ⟨accessor, kept, rfl⟩
    exact ⟨accessor, kept, rfl⟩

end Block

end Accessor

namespace AccessorSet
open Accessor

theorem contains_insert (shown : AccessorSet) (kind other : AccessorKind) :
    (shown.insert kind).contains other = true ↔ shown.contains other = true ∨ kind = other := by
  cases kind <;> cases other <;> simp [insert, contains]

theorem contains_foldl_insert (accessors : List Accessor) (shown : AccessorSet)
    (kind : AccessorKind) :
    (accessors.foldl (·.insert ·.kind) shown).contains kind = true ↔
      shown.contains kind = true ∨ ∃ accessor ∈ accessors, accessor.kind = kind := by
  induction accessors generalizing shown with
  | nil => simp
  | cons accessor rest ih =>
      rw [List.foldl_cons, ih, contains_insert, or_assoc]
      simp only [List.mem_cons, exists_eq_or_imp]

theorem contains_ofAccessors_iff (accessors : List Accessor) (kind : AccessorKind) :
    (ofAccessors (some accessors)).contains kind = true ↔ IsPlainIn accessors kind := by
  have nothing : empty.contains kind = false := by cases kind <;> rfl
  rw [ofAccessors, contains_foldl_insert, isPlainIn_iff_exposed, nothing]
  simp only [Bool.false_eq_true, false_or]

end AccessorSet

/-- The accessor list of a property or an indexer that has one. -/
def Feature.accessors? : Feature → Option (List Accessor)
  | .property decl => decl.accessors
  | .indexer decl => decl.accessors
  | .method _ | .eventField _ _ | .event _ => none

section Shown
open Accessor

variable {member : Member} {feature : Feature} {accessors : List Accessor}

/-- The declaration of a feature with an accessor list ends with its block. -/
theorem Feature.exists_declarationText_eq (listed : feature.accessors? = some accessors)
    (member : Member) :
    ∃ front, Projection.declarationText member feature = front ++ block (some accessors) := by
  have written : ∃ front, feature.render = front ++ block (some accessors) := by
    cases feature with
    | property decl | indexer decl =>
        have own : decl.accessors = some accessors := listed
        rw [render, own]
        exact ⟨_, rfl⟩
    | method decl | eventField type names | event decl => cases listed
  obtain ⟨front, rendered⟩ := written
  rw [Projection.declarationText, rendered, ← String.append_assoc]
  exact ⟨_, rfl⟩

/-- Such a feature has one signature, with the accessors of its list. -/
theorem Feature.exists_signatures_eq (listed : feature.accessors? = some accessors)
    (resolve : TypeRef → Scope → ResolvedType) (scope : Scope) (isStatic : Bool) :
    ∃ signature, feature.signatures resolve scope isStatic = [signature] ∧
      signature.accessors = .ofAccessors (some accessors) := by
  cases feature with
  | property decl | indexer decl =>
      have own : decl.accessors = some accessors := listed
      rw [signatures, own]
      exact ⟨_, rfl, rfl⟩
  | method decl | eventField type names | event decl => cases listed

/-- The block that is projected and the signature that is compared with the bases both have the
kinds that are declared without modifiers. These are the visible kinds exactly if every kind with a
visible accessor is also declared without modifiers. -/
theorem shown_accessors (isFeature : member.feature? = some feature)
    (listed : feature.accessors? = some accessors) (kind : AccessorKind) :
    (∃ front, Projection.declarationText member feature = front ++ block (some accessors) ∧
        ∀ (p : Projection) (text : String), p.declaration? member = some (some text) →
          text = front ++ block (some accessors)) ∧
      (IsWrittenIn (block (some accessors)) kind ↔ IsPlainIn accessors kind) ∧
      (∀ (resolve : TypeRef → Scope → ResolvedType) (scope : Scope),
        ∃ signature, member.signatures resolve scope = [signature] ∧
          (signature.accessors.contains kind = true ↔ IsPlainIn accessors kind)) ∧
      ((IsPlainIn accessors kind ↔ IsVisibleIn accessors kind) ↔
        ∀ accessor ∈ accessors, accessor.kind = kind → ¬ accessor.IsRestricted →
          ∃ other ∈ accessors, other.kind = kind ∧ other.modifiers = []) := by
  refine ⟨?_, isWrittenIn_block_iff accessors kind, fun resolve scope => ?_, ?_⟩
  · obtain ⟨front, written⟩ := Feature.exists_declarationText_eq listed member
    refine ⟨front, written, fun p text projected => ?_⟩
    rw [p.declaration?_of_feature isFeature] at projected
    split at projected
    · obtain ⟨isLeft, -, kept⟩ := Option.map_eq_some_iff.mp projected
      split at kept
      · cases kept
      · exact (Option.some.inj kept).symm.trans written
    · cases projected
  · obtain ⟨signature, only, shape⟩ :=
      Feature.exists_signatures_eq listed resolve scope member.isStatic
    refine ⟨signature, ?_, ?_⟩
    · rw [Member.signatures, isFeature]
      exact only
    · rw [shape]
      exact AccessorSet.contains_ofAccessors_iff accessors kind
  · constructor
    · intro agree accessor member same visible
      exact agree.mpr ⟨accessor, member, same, visible⟩
    · intro covered
      refine ⟨IsPlainIn.isVisibleIn, ?_⟩
      rintro ⟨accessor, member, same, visible⟩
      exact covered accessor member same visible

/-- The property `public int Count` with these accessors. -/
def countProperty (accessors : List Accessor) : Member :=
  ⟨none, [], ["public"], .feature (.property ⟨.simple "int", none, "Count", some accessors⟩)⟩

/-- Of `int Count { get; private protected set; }` the getter is shown, as visibility asks. -/
theorem shown_accessors_privateSet :
    let accessors : List Accessor := [⟨.get, []⟩, ⟨.set, ["private", "protected"]⟩]
    let member := countProperty accessors
    (IsWrittenIn (block (some accessors)) .get ∧ ¬ IsWrittenIn (block (some accessors)) .set) ∧
      (∃ signature, member.signatures TypeTable.initial.resolver.resolve .empty = [signature] ∧
        signature.accessors.contains .get = true) ∧
      (IsPlainIn accessors .set ↔ IsVisibleIn accessors .set) := by
  intro accessors member
  have isFeature : member.feature? =
      some (.property ⟨.simple "int", none, "Count", some accessors⟩) := rfl
  obtain ⟨-, getter, signatures, -⟩ := shown_accessors isFeature rfl .get
  obtain ⟨-, setter, -, visible⟩ := shown_accessors isFeature rfl .set
  obtain ⟨signature, only, flag⟩ := signatures TypeTable.initial.resolver.resolve .empty
  refine ⟨⟨getter.mpr (by decide), mt setter.mp (by decide)⟩, ?_, visible.mpr (by decide)⟩
  exact ⟨signature, only, flag.mpr (by decide)⟩

/-- The getter of `int Count { readonly get; set; }` is as visible as the property. It is missing
from the block and from the set in the signature. -/
theorem shown_accessors_miss_readonly :
    let accessors : List Accessor := [⟨.get, ["readonly"]⟩, ⟨.set, []⟩]
    let member := countProperty accessors
    let feature : Feature := .property ⟨.simple "int", none, "Count", some accessors⟩
    (member.isPublic = true ∧ member.feature? = some feature ∧ IsVisibleIn accessors .get) ∧
      Projection.declarationText member feature = "int Count \x7b set; \x7d" ∧
      ¬ IsWrittenIn (block (some accessors)) .get ∧
      ∀ signature ∈ member.signatures TypeTable.initial.resolver.resolve .empty,
        signature.accessors.contains .get = false := by
  intro accessors member feature
  refine ⟨⟨rfl, rfl, by decide⟩, by decide +kernel, ?_, ?_⟩
  · rw [isWrittenIn_block_iff]
    decide
  · intro signature listed
    obtain rfl := List.mem_singleton.mp listed
    rfl

end Shown

end InterfaceGen
