import InterfaceGen.Proofs.BaseSearch
import Mathlib.Data.List.Forall2

/-!
The laws of equivalence. As equality of erasures it is an equivalence relation on types and on
signatures, and everything that is done with types respects it: substitution, the lookup of
interfaces, and the search of base interfaces, which asks about the wanted member only whether
other members are equivalent to it.
-/

namespace InterfaceGen

theorem forall₂_iff_map_eq {α β : Type} {f : α → β} {same : α → α → Prop}
    (h : ∀ x y, same x y ↔ f x = f y) (xs ys : List α) :
    List.Forall₂ same xs ys ↔ xs.map f = ys.map f := by
  have relation : same = fun x y => f x = f y := by
    funext x y
    exact propext (h x y)
  rw [relation, ← List.forall₂_eq_eq_eq, List.forall₂_map_left_iff, List.forall₂_map_right_iff]

namespace ResolvedType

/-- The lists have equal lengths and their types are pairwise equivalent. -/
def PairwiseEquivalent (xs ys : List ResolvedType) : Prop :=
  List.Forall₂ (fun x y => x.equivalent y = true) xs ys

theorem pairwiseEquivalent_iff_erase (xs ys : List ResolvedType) :
    PairwiseEquivalent xs ys ↔ xs.map erase = ys.map erase :=
  forall₂_iff_map_eq equivalent_iff_erase xs ys

theorem equivalence : Equivalence fun a b : ResolvedType => a.equivalent b = true where
  refl := equivalent_refl
  symm := equivalent_symm
  trans := equivalent_trans

theorem equivalent_substitute {a b : ResolvedType} {xs ys : List ResolvedType}
    (same : a.equivalent b = true) (arguments : PairwiseEquivalent xs ys) :
    (a.substitute xs).equivalent (b.substitute ys) = true := by
  rw [equivalent_iff_erase] at same ⊢
  rw [pairwiseEquivalent_iff_erase] at arguments
  rw [erase_substitute, erase_substitute, same, arguments]

end ResolvedType

namespace Signature

theorem equivalence : Equivalence fun a b : Signature => a.equivalent b = true := by
  simp only [equivalent_iff_erase]
  exact ⟨fun _ => rfl, Eq.symm, Eq.trans⟩

theorem equivalent_substitute {a b : Signature} {xs ys : List ResolvedType}
    (same : a.equivalent b = true) (arguments : ResolvedType.PairwiseEquivalent xs ys) :
    (a.substitute xs).equivalent (b.substitute ys) = true := by
  rw [equivalent_iff_erase] at same ⊢
  rw [ResolvedType.pairwiseEquivalent_iff_erase] at arguments
  rw [erase_substitute, erase_substitute, same, arguments]

theorem any_equivalent_congr {a b : Signature} (same : a.equivalent b = true)
    (members : List Signature) :
    members.any (·.equivalent a) = members.any (·.equivalent b) := by
  have each (member : Signature) : member.equivalent a = member.equivalent b := by
    rw [Bool.eq_iff_iff]
    exact ⟨fun h => equivalence.trans h same, fun h => equivalence.trans h (equivalence.symm same)⟩
  simp only [each]

end Signature

namespace InterfaceView

/-- The views offer equivalent members and have equivalent bases, in the same order. -/
structure Equivalent (a b : InterfaceView) : Prop where
  type : a.type.equivalent b.type = true
  members : List.Forall₂ (fun x y => x.equivalent y = true) a.members b.members
  bases : ResolvedType.PairwiseEquivalent a.bases b.bases

theorem equivalent_iff_erase (a b : InterfaceView) : Equivalent a b ↔ a.erase = b.erase := by
  have members := forall₂_iff_map_eq Signature.equivalent_iff_erase a.members b.members
  have bases := ResolvedType.pairwiseEquivalent_iff_erase a.bases b.bases
  have type := ResolvedType.equivalent_iff_erase a.type b.type
  constructor
  · rintro ⟨types, listed, above⟩
    simp only [erase, type.mp types, members.mp listed, bases.mp above]
  · intro same
    obtain ⟨types, listed, above⟩ := InterfaceView.mk.inj same
    exact ⟨type.mpr types, members.mpr listed, bases.mpr above⟩

end InterfaceView

/-- Equivalent types are both no interface, or interfaces with equivalent members and bases. -/
theorem TypeTable.rel_interface? (table : TypeTable) {a b : ResolvedType}
    (same : a.equivalent b = true) :
    Option.Rel InterfaceView.Equivalent (table.interface? a) (table.interface? b) := by
  have views := table.interface?_congr same
  cases ha : table.interface? a <;> cases hb : table.interface? b <;> simp [ha, hb] at views
  · exact .none
  · exact .some ((InterfaceView.equivalent_iff_erase _ _).mpr views)

namespace BaseSearch
variable {interface? : ResolvedType → Option InterfaceView} {a b : Signature}

/-- An answer for one member is the answer for an equivalent one. -/
theorem searchFrom_of_equivalent (same : a.equivalent b = true)
    {visited pending : List ResolvedType} {answer : Bool}
    (found : a.searchFrom interface? visited pending = some answer) :
    b.searchFrom interface? visited pending = some answer := by
  refine Signature.searchFrom.partial_correctness a interface?
    (fun visited pending answer => b.searchFrom interface? visited pending = some answer)
    ?_ visited pending answer found
  -- one round of the search for `b` takes the branch that the search for `a` takes
  intro search ih visited pending answer round
  rw [Signature.searchFrom]
  split at round
  · exact round
  · rename_i base last
    split at round
    · rw [if_pos ‹_›]
      exact ih _ _ _ round
    · rw [if_neg ‹_›]
      split at round
      · exact ih _ _ _ round
      · rename_i view known
        rw [Signature.any_equivalent_congr same] at round
        split at round
        · rw [if_pos ‹_›]
          exact round
        · rw [if_neg ‹_›]
          exact ih _ _ _ round

/-- The searches for equivalent members have the same answer, or both have none. -/
theorem searchBases_congr (same : a.equivalent b = true) (visited pending : List ResolvedType) :
    searchBases interface? a visited pending = searchBases interface? b visited pending := by
  apply Option.ext
  intro answer
  exact ⟨searchFrom_of_equivalent same,
    searchFrom_of_equivalent (Signature.equivalence.symm same)⟩

end BaseSearch

open BaseSearch

/-- Two types are equivalent exactly when they are one type after the names of type parameters are
blanked, and so are two signatures. Both relations are therefore equivalence relations, and the
search of base interfaces cannot tell equivalent members apart: it has the same answer for both, or
none for either. -/
theorem equivalent_iff_blanked :
    (∀ a b : ResolvedType, a.equivalent b = true ↔ a.erase = b.erase) ∧
      (∀ x y : Signature, x.equivalent y = true ↔ x.erase = y.erase) ∧
      (Equivalence fun a b : ResolvedType => a.equivalent b = true) ∧
      (Equivalence fun x y : Signature => x.equivalent y = true) ∧
      ∀ (resolver : Resolver) (bases : List ResolvedType) (x y : Signature),
        x.equivalent y = true →
          resolver.providedByBases bases x = resolver.providedByBases bases y := by
  refine ⟨ResolvedType.equivalent_iff_erase, Signature.equivalent_iff_erase,
    ResolvedType.equivalence, Signature.equivalence, ?_⟩
  intro resolver bases x y same
  exact searchBases_congr same [] bases

/-- The method `Root` whose result is a type parameter of this name. -/
def rootOver (parameter : String) : Signature :=
  ⟨.method, "Root", .parameter .type 0 parameter, [], 0, false, .empty⟩

/-- `ITree<V>` declares `Root`, whatever the type parameter in its result is called. -/
theorem providedByBases_rootOver :
    (rootOver "T").equivalent (rootOver "V") = true ∧
      mutualTable.resolver.providedByBases [.named ["ITree"] [.parameter .type 0 "V"]]
        (rootOver "T") = some true := by
  have same : (rootOver "T").equivalent (rootOver "V") = true := by decide
  refine ⟨same, ?_⟩
  rw [equivalent_iff_blanked.2.2.2.2 _ _ _ _ same]
  exact providedByBases_singleton _ (by decide +kernel)

/-- Equivalence is a congruence: equivalent arguments put into equivalent types or signatures give
equivalent ones, and equivalent types are looked up with the same outcome. -/
theorem equivalent_respected :
    (∀ (a b : ResolvedType) (xs ys : List ResolvedType), a.equivalent b = true →
        ResolvedType.PairwiseEquivalent xs ys →
          (a.substitute xs).equivalent (b.substitute ys) = true) ∧
      (∀ (x y : Signature) (xs ys : List ResolvedType), x.equivalent y = true →
        ResolvedType.PairwiseEquivalent xs ys →
          (x.substitute xs).equivalent (y.substitute ys) = true) ∧
      ∀ (table : TypeTable) (a b : ResolvedType), a.equivalent b = true →
        Option.Rel InterfaceView.Equivalent (table.interface? a) (table.interface? b) := by
  refine ⟨?_, ?_, ?_⟩
  · intro a b xs ys same arguments
    exact ResolvedType.equivalent_substitute same arguments
  · intro x y xs ys same arguments
    exact Signature.equivalent_substitute same arguments
  · intro table a b same
    exact table.rel_interface? same

/-- `INode<(T, U)[]>`, with these names for its type parameters. -/
def nodeOver (first second : String) : ResolvedType :=
  .named ["INode"] [.array (.tuple [.parameter .type 0 first, .parameter .type 1 second]) 1]

/-- The second type parameter is out of range for one argument and stays in place, under either
name; the interface itself is found under either name. -/
theorem equivalent_respected_nodeOver :
    ((nodeOver "T" "U").substitute [nodeOver "A" "B"]).equivalent
        ((nodeOver "X" "Y").substitute [nodeOver "C" "D"]) = true ∧
      ((rootOver "T").substitute [nodeOver "A" "B"]).equivalent
        ((rootOver "X").substitute [nodeOver "C" "D"]) = true ∧
      Option.Rel InterfaceView.Equivalent (mutualTable.interface? (nodeOver "T" "U"))
        (mutualTable.interface? (nodeOver "X" "Y")) ∧
      (mutualTable.interface? (nodeOver "T" "U")).isSome = true := by
  obtain ⟨types, signatures, lookups⟩ := equivalent_respected
  have node (a b c d : String) : (nodeOver a b).equivalent (nodeOver c d) = true := rfl
  have arguments : ResolvedType.PairwiseEquivalent [nodeOver "A" "B"] [nodeOver "C" "D"] :=
    .cons (node ..) .nil
  exact ⟨types _ _ _ _ (node ..) arguments, signatures _ _ _ _ (by decide) arguments,
    lookups _ _ _ (node ..), by decide +kernel⟩

end InterfaceGen
