import InterfaceGen.Signature.OfMember

/-!
Resolvers answer what a type reference means and what a resolved type offers as an interface. On
top of one, `providedByBases` decides whether a member is already declared somewhere above a list
of base interfaces. This is the one question that may have no answer, and whatever asks it has none
then either.
-/

namespace InterfaceGen

/-- A resolved type seen as an interface. -/
structure InterfaceView where
  type : ResolvedType
  members : List Signature
  bases : List ResolvedType

structure Resolver where
  resolve : TypeRef → Scope → ResolvedType
  interface? : ResolvedType → Option InterfaceView

/-- The search for this member among base interfaces. The last of `pending` is looked at first, a
type equivalent to a visited one is passed over, and the bases of an interface without the member
become pending in their turn. Bases that grow without end keep the search from an answer, which
`none` stands for. -/
def Signature.searchFrom (wanted : Signature) (interface? : ResolvedType → Option InterfaceView)
    (visited pending : List ResolvedType) : Option Bool :=
  match pending.getLast? with
  | none => some false
  | some base =>
      if visited.any (·.equivalent base) then
        wanted |>.searchFrom interface? visited pending.dropLast
      else
        match interface? base with
        | none => wanted |>.searchFrom interface? (visited ++ [base]) pending.dropLast
        | some view =>
            if view.members.any (·.equivalent wanted) then some true
            else
              wanted |>.searchFrom interface? (visited ++ [base])
                (pending.dropLast ++ view.bases)
partial_fixpoint

/-- The search among the interfaces that a resolver knows. -/
def searchBases (interface? : ResolvedType → Option InterfaceView) (wanted : Signature)
    (visited pending : List ResolvedType) : Option Bool :=
  wanted.searchFrom interface? visited pending

namespace Resolver

/-- One of the bases, or an interface above one of them, declares the wanted member. There is no
answer if the search does not end. -/
def providedByBases (resolver : Resolver) (bases : List ResolvedType) (wanted : Signature) :
    Option Bool :=
  searchBases resolver.interface? wanted [] bases

end Resolver
end InterfaceGen
