import InterfaceGen.Proofs.Erasure

/-!
The search of base interfaces finds exactly what is declared above the bases. The graph of bases may
have cycles and several ways to one type, and a type counts as visited when an equivalent one was.
What makes this pruning harmless is that a lookup respects equivalence; what makes the search end is
that each visit uses up a class of equivalent types, of which there are finitely many. Where the
classes do not run out, as for an interface that inherits from itself with ever longer arguments,
the search has no answer.
-/

namespace InterfaceGen
namespace BaseSearch

section Graph
variable (interface? : ResolvedType → Option InterfaceView) (bases : List ResolvedType)

/-- The type is one of the bases, or a base of an interface above them. -/
inductive Above : ResolvedType → Prop where
  | base {type : ResolvedType} : type ∈ bases → Above type
  | step {type above : ResolvedType} {view : InterfaceView} :
      Above type → interface? type = some view → above ∈ view.bases → Above above

/-- The type is a known interface with a member equivalent to the wanted one. -/
def Declares (wanted : Signature) (type : ResolvedType) : Prop :=
  ∃ view, interface? type = some view ∧ ∃ member ∈ view.members, member.equivalent wanted = true

/-- Up to equivalence only finitely many types are above the bases. -/
def FinitelyManyAbove : Prop :=
  ∃ representatives : List ResolvedType, ∀ type, Above interface? bases type →
    ∃ representative ∈ representatives, representative.equivalent type = true

/-- Equivalent types offer the same members and bases, up to the names of type parameters. -/
def Respectful : Prop :=
  ∀ a b : ResolvedType, a.equivalent b = true →
    (interface? a).map InterfaceView.erase = (interface? b).map InterfaceView.erase

end Graph

/-- What a type offers to the search: an unknown type offers no members and no bases. -/
def offered (interface? : ResolvedType → Option InterfaceView) (type : ResolvedType) :
    InterfaceView :=
  (interface? type).getD ⟨type, [], []⟩

variable {interface? : ResolvedType → Option InterfaceView} {bases : List ResolvedType}
  {wanted : Signature}

theorem mem_offered_bases {type above : ResolvedType} :
    above ∈ (offered interface? type).bases ↔
      ∃ view, interface? type = some view ∧ above ∈ view.bases := by
  cases h : interface? type <;> simp [offered, h]

theorem declares_iff_any {type : ResolvedType} :
    Declares interface? wanted type ↔
      (offered interface? type).members.any (·.equivalent wanted) = true := by
  cases h : interface? type <;> simp [Declares, offered, h]

theorem searchBases_nil (visited : List ResolvedType) :
    searchBases interface? wanted visited [] = some false := by
  rw [searchBases, Signature.searchFrom]
  rfl

theorem searchBases_concat (visited front : List ResolvedType) (base : ResolvedType) :
    searchBases interface? wanted visited (front ++ [base]) =
      if visited.any (·.equivalent base) then searchBases interface? wanted visited front
      else if (offered interface? base).members.any (·.equivalent wanted) then some true
      else
        searchBases interface? wanted (visited ++ [base])
          (front ++ (offered interface? base).bases) := by
  simp only [searchBases]
  rw [Signature.searchFrom]
  cases h : interface? base <;> simp [offered, h]

theorem providedByBases_singleton (resolver : Resolver) {base : ResolvedType}
    (h : (offered resolver.interface? base).members.any (·.equivalent wanted) = true) :
    resolver.providedByBases [base] wanted = some true := by
  have found : searchBases resolver.interface? wanted [] ([] ++ [base]) = some true := by
    rw [searchBases_concat, if_neg (by simp), if_pos h]
  exact found

/-- A single base with no bases of its own is all that is looked at. -/
theorem providedByBases_singleton_eq_any (resolver : Resolver) {base : ResolvedType}
    (topmost : (offered resolver.interface? base).bases = []) :
    resolver.providedByBases [base] wanted =
      some ((offered resolver.interface? base).members.any (·.equivalent wanted)) := by
  by_cases h : (offered resolver.interface? base).members.any (·.equivalent wanted) = true
  · rw [h, providedByBases_singleton resolver h]
  · have missing : searchBases resolver.interface? wanted [] ([] ++ [base]) = some false := by
      rw [searchBases_concat, if_neg (by simp), if_neg h, topmost]
      exact searchBases_nil _
    rw [eq_false_of_ne_true h]
    exact missing

theorem Respectful.erase_offered (respects : Respectful interface?) {a b : ResolvedType}
    (h : a.equivalent b = true) :
    (offered interface? a).erase = (offered interface? b).erase := by
  have views := respects a b h
  have types := (ResolvedType.equivalent_iff_erase a b).mp h
  cases ha : interface? a <;> cases hb : interface? b <;> simp [ha, hb] at views
  · simp [offered, ha, hb, InterfaceView.erase, types]
  · simpa [offered, ha, hb] using views

theorem Respectful.declares (respects : Respectful interface?) {a b : ResolvedType}
    (h : a.equivalent b = true) (declared : Declares interface? wanted a) :
    Declares interface? wanted b := by
  rw [declares_iff_any, List.any_eq_true] at declared ⊢
  obtain ⟨member, atA, same⟩ := declared
  have members := congrArg InterfaceView.members (respects.erase_offered h)
  have erased : member.erase ∈ (offered interface? b).members.map Signature.erase := by
    simp only [InterfaceView.erase] at members
    rw [← members]
    exact List.mem_map_of_mem atA
  obtain ⟨twin, atB, twinErased⟩ := List.mem_map.mp erased
  refine ⟨twin, atB, ?_⟩
  rw [Signature.equivalent_iff_erase] at same ⊢
  exact twinErased.trans same

theorem Respectful.offered_bases (respects : Respectful interface?) {a b above : ResolvedType}
    (h : a.equivalent b = true) (member : above ∈ (offered interface? a).bases) :
    ∃ twin ∈ (offered interface? b).bases, twin.equivalent above = true := by
  have types := congrArg InterfaceView.bases (respects.erase_offered h)
  have erased : above.erase ∈ (offered interface? b).bases.map ResolvedType.erase := by
    simp only [InterfaceView.erase] at types
    rw [← types]
    exact List.mem_map_of_mem member
  obtain ⟨twin, atB, twinErased⟩ := List.mem_map.mp erased
  exact ⟨twin, atB, (ResolvedType.equivalent_iff_erase _ _).mpr twinErased⟩

def Covers (types : List ResolvedType) (type : ResolvedType) : Prop :=
  ∃ twin ∈ types, twin.equivalent type = true

theorem covers_iff_any {types : List ResolvedType} {type : ResolvedType} :
    Covers types type ↔ types.any (·.equivalent type) = true := by
  simp [Covers]

theorem covers_of_mem {types : List ResolvedType} {type : ResolvedType} (h : type ∈ types) :
    Covers types type :=
  ⟨type, h, ResolvedType.equivalent_refl type⟩

theorem Covers.congr {types : List ResolvedType} {a b : ResolvedType} (h : Covers types a)
    (same : a.equivalent b = true) : Covers types b := by
  obtain ⟨twin, found, equal⟩ := h
  exact ⟨twin, found, ResolvedType.equivalent_trans equal same⟩

theorem Covers.trans {types more : List ResolvedType} {type : ResolvedType}
    (h : Covers types type) (all : ∀ other ∈ types, Covers more other) : Covers more type := by
  obtain ⟨other, member, same⟩ := h
  exact (all other member).congr same

theorem covers_of_above (respects : Respectful interface?) {types : List ResolvedType}
    (starts : ∀ base ∈ bases, Covers types base)
    (closed : ∀ type ∈ types, ∀ above ∈ (offered interface? type).bases, Covers types above)
    {type : ResolvedType} (above : Above interface? bases type) : Covers types type := by
  -- a type above a covered one is a base of that one's twin in the list, up to equivalence
  induction above with
  | base member => exact starts _ member
  | step _ known edge ih =>
      obtain ⟨twin, found, same⟩ := ih
      obtain ⟨next, listed, equal⟩ := respects.offered_bases
        (ResolvedType.equivalent_symm same) (mem_offered_bases.mpr ⟨_, known, edge⟩)
      exact (closed twin found next listed).congr equal

/-- What holds whenever the search looks at its next base: everything pending is above the bases,
no visited type declares the member, and all that is known to be above the bases has been visited
or is pending, up to equivalence. -/
structure Invariant (interface? : ResolvedType → Option InterfaceView)
    (bases : List ResolvedType) (wanted : Signature) (visited pending : List ResolvedType) :
    Prop where
  pending_above : ∀ type ∈ pending, Above interface? bases type
  barren : ∀ type ∈ visited, ¬ Declares interface? wanted type
  bases_covered : ∀ base ∈ bases, Covers (visited ++ pending) base
  closed : ∀ type ∈ visited, ∀ above ∈ (offered interface? type).bases,
    Covers (visited ++ pending) above

namespace Invariant
variable {visited pending front : List ResolvedType} {base : ResolvedType}

theorem initial : Invariant interface? bases wanted [] bases where
  pending_above _ member := .base member
  barren _ member := by cases member
  bases_covered _ member := covers_of_mem member
  closed _ member := by cases member

theorem skip (inv : Invariant interface? bases wanted visited (front ++ [base]))
    (seen : Covers visited base) : Invariant interface? bases wanted visited front := by
  -- the base that is passed over stays covered by the type that was visited in its place
  have shrink : ∀ other ∈ visited ++ (front ++ [base]), Covers (visited ++ front) other := by
    intro other member
    simp only [List.mem_append, List.mem_singleton] at member
    obtain old | waiting | rfl := member
    · exact covers_of_mem (List.mem_append_left _ old)
    · exact covers_of_mem (List.mem_append_right _ waiting)
    · exact seen.trans fun twin old => covers_of_mem (List.mem_append_left _ old)
  exact
    { pending_above := fun type member => inv.pending_above type (List.mem_append_left _ member)
      barren := inv.barren
      bases_covered := fun start member => (inv.bases_covered start member).trans shrink
      closed := fun type member above edge => (inv.closed type member above edge).trans shrink }

theorem visit (inv : Invariant interface? bases wanted visited (front ++ [base]))
    (absent : ¬ Declares interface? wanted base) :
    Invariant interface? bases wanted (visited ++ [base])
      (front ++ (offered interface? base).bases) := by
  have here : Above interface? bases base := inv.pending_above base (by simp)
  have grow : ∀ other ∈ visited ++ (front ++ [base]),
      Covers (visited ++ [base] ++ (front ++ (offered interface? base).bases)) other := by
    intro other member
    apply covers_of_mem
    simp only [List.mem_append, List.mem_singleton] at member ⊢
    grind
  constructor
  · intro type member
    obtain waiting | edge := List.mem_append.mp member
    · exact inv.pending_above type (List.mem_append_left _ waiting)
    · obtain ⟨view, known, listed⟩ := mem_offered_bases.mp edge
      exact .step here known listed
  · intro type member
    obtain old | new := List.mem_append.mp member
    · exact inv.barren type old
    · rwa [List.mem_singleton.mp new]
  · intro start member
    exact (inv.bases_covered start member).trans grow
  · intro type member above edge
    obtain old | new := List.mem_append.mp member
    · exact (inv.closed type old above edge).trans grow
    · rw [List.mem_singleton.mp new] at edge
      exact covers_of_mem (by simp [edge])

theorem covered_of_above (respects : Respectful interface?)
    (inv : Invariant interface? bases wanted visited []) {type : ResolvedType}
    (above : Above interface? bases type) : Covers visited type := by
  have starts := inv.bases_covered
  have closed := inv.closed
  rw [List.append_nil] at starts closed
  exact covers_of_above respects starts closed above

theorem not_declares_of_above (respects : Respectful interface?)
    (inv : Invariant interface? bases wanted visited []) {type : ResolvedType}
    (above : Above interface? bases type) : ¬ Declares interface? wanted type := by
  obtain ⟨twin, old, same⟩ := inv.covered_of_above respects above
  intro declared
  exact inv.barren twin old (respects.declares (ResolvedType.equivalent_symm same) declared)

end Invariant

/-- The representatives that no visited type covers. -/
def unvisited (representatives visited : List ResolvedType) : List ResolvedType :=
  representatives.filter fun representative => !visited.any (·.equivalent representative)

theorem unvisited_concat (representatives visited : List ResolvedType) (base : ResolvedType) :
    unvisited representatives (visited ++ [base]) =
      (unvisited representatives visited).filter (!base.equivalent ·) := by
  simp [unvisited, List.filter_filter, Bool.and_comm]

theorem length_unvisited_lt {representatives visited : List ResolvedType} {base : ResolvedType}
    (represented : Covers representatives base) (fresh : ¬ Covers visited base) :
    (unvisited representatives (visited ++ [base])).length <
      (unvisited representatives visited).length := by
  obtain ⟨representative, member, same⟩ := represented
  rw [unvisited_concat, List.length_filter_lt_length_iff_exists]
  refine ⟨representative, ?_, by simp [ResolvedType.equivalent_symm same]⟩
  simp only [unvisited, List.mem_filter, member, true_and]
  rw [Bool.not_eq_true', ← Bool.not_eq_true, ← covers_iff_any]
  exact fun seen => fresh (seen.congr same)

/-- From a state in which the invariant holds the search ends, and with the right answer. -/
theorem search_answers (respects : Respectful interface?) {representatives : List ResolvedType}
    (finite : ∀ type, Above interface? bases type → Covers representatives type)
    (visited pending : List ResolvedType)
    (inv : Invariant interface? bases wanted visited pending) :
    ∃ answer, searchBases interface? wanted visited pending = some answer ∧
      (answer = true ↔ ∃ type, Above interface? bases type ∧ Declares interface? wanted type) := by
  -- passing over a base shortens `pending`; a visit leaves fewer representatives unvisited
  obtain rfl | ⟨front, base, rfl⟩ := List.eq_nil_or_concat pending
  · refine ⟨false, searchBases_nil visited, ?_⟩
    have none : ¬ ∃ type, Above interface? bases type ∧ Declares interface? wanted type := by
      rintro ⟨type, above, declared⟩
      exact inv.not_declares_of_above respects above declared
    simpa using none
  · rw [List.concat_eq_append] at inv ⊢
    rw [searchBases_concat]
    have here : Above interface? bases base := inv.pending_above base (by simp)
    by_cases seen : Covers visited base
    · rw [if_pos (covers_iff_any.mp seen)]
      exact search_answers respects finite visited front (inv.skip seen)
    · rw [if_neg (seen ∘ covers_iff_any.mpr)]
      by_cases declared : Declares interface? wanted base
      · rw [if_pos (declares_iff_any.mp declared)]
        exact ⟨true, rfl, by simpa using ⟨base, here, declared⟩⟩
      · rw [if_neg (declared ∘ declares_iff_any.mpr)]
        have fewer := length_unvisited_lt (finite base here) seen
        exact search_answers respects finite _ _ (inv.visit declared)
termination_by ((unvisited representatives visited).length, pending.length)

/-- A list that covers the bases, and with each of its types that type's bases. -/
def isClosed (interface? : ResolvedType → Option InterfaceView)
    (bases representatives : List ResolvedType) : Bool :=
  bases.all (fun base => representatives.any (·.equivalent base)) &&
    representatives.all fun type =>
      (offered interface? type).bases.all fun above => representatives.any (·.equivalent above)

theorem finitelyManyAbove_of_isClosed (respects : Respectful interface?)
    {representatives : List ResolvedType} (h : isClosed interface? bases representatives = true) :
    FinitelyManyAbove interface? bases := by
  simp only [isClosed, Bool.and_eq_true, List.all_eq_true, ← covers_iff_any] at h
  exact ⟨representatives, fun type => covers_of_above respects h.1 h.2⟩

end BaseSearch

open BaseSearch

theorem TypeTable.interface?_respectful (table : TypeTable) : Respectful table.interface? :=
  fun _ _ => table.interface?_congr

/-- In a type table the search ends whenever the types above the bases are finite in number up to
equivalence, and it finds a member exactly when an interface above the bases declares it. -/
theorem TypeTable.providedByBases_iff_declared_above (table : TypeTable) (wanted : Signature)
    (bases : List ResolvedType) (finite : FinitelyManyAbove table.interface? bases) :
    ∃ answer, table.resolver.providedByBases bases wanted = some answer ∧
      (answer = true ↔
        ∃ type, Above table.interface? bases type ∧
          ∃ view, table.interface? type = some view ∧
            ∃ member ∈ view.members, member.equivalent wanted = true) := by
  obtain ⟨representatives, represented⟩ := finite
  exact search_answers table.interface?_respectful represented [] bases Invariant.initial

/-- Two generic interfaces that inherit from each other, the second with a method `Root` that
returns its type parameter. -/
def mutualTable : TypeTable :=
  let interfaceDecl (name parameter base : String) (members : List Member) : Item :=
    .ofType ⟨none, [], [], .interface, name, [⟨none, parameter⟩], none,
      [.named ⟨none, [⟨base, [.simple parameter]⟩]⟩], [], members⟩ []
  TypeTable.ofFiles
    [⟨"Trees.cs", [],
      [interfaceDecl "INode" "T" "ITree" [],
        interfaceDecl "ITree" "U" "INode"
          [⟨none, [], [], .feature (.method ⟨.simple "U", none, "Root", [], [], []⟩)⟩]]⟩]

def intType : ResolvedType := .named ["System", "Int32"] []

def rootSignature : Signature :=
  ⟨.method, "Root", intType, [], 0, false, .empty⟩

/-- From `INode<int>` the search goes around the cycle and finds `Root` in `ITree<int>`. -/
theorem TypeTable.providedByBases_mutualTable :
    FinitelyManyAbove mutualTable.interface? [.named ["INode"] [intType]] ∧
      mutualTable.resolver.providedByBases [.named ["INode"] [intType]] rootSignature =
        some true := by
  have finite : FinitelyManyAbove mutualTable.interface? [.named ["INode"] [intType]] :=
    finitelyManyAbove_of_isClosed mutualTable.interface?_respectful
      (show isClosed mutualTable.interface? [.named ["INode"] [intType]]
        [.named ["INode"] [intType], .named ["ITree"] [intType]] = true by decide +kernel)
  have start : Above mutualTable.interface? [.named ["INode"] [intType]]
      (.named ["INode"] [intType]) := .base (List.mem_singleton_self _)
  have bases : (offered mutualTable.interface? (.named ["INode"] [intType])).bases =
      [.named ["ITree"] [intType]] := by rfl
  obtain ⟨view, known, edge⟩ :=
    mem_offered_bases.mp (bases ▸ List.mem_singleton_self (ResolvedType.named ["ITree"] [intType]))
  have declared : Declares mutualTable.interface? rootSignature (.named ["ITree"] [intType]) :=
    declares_iff_any.mpr (by decide +kernel)
  obtain ⟨answer, ends, correct⟩ :=
    providedByBases_iff_declared_above mutualTable rootSignature _ finite
  have found : answer = true := correct.mpr ⟨_, .step start known edge, declared⟩
  exact ⟨finite, found ▸ ends⟩

end InterfaceGen
