import InterfaceGen.Proofs.TypeResolution
import Mathlib.Data.List.Induction

/-!
Which declaration answers for an interface. A table of files keeps one declaration for each key, the
last one in the order of the files. So an interface that shares its key with no other is found with
all its signatures, in whatever order the files come; of the parts of a partial interface, and of
interfaces that differ only in the arities of the types around them, all but the last are lost.
-/

namespace InterfaceGen
namespace TypeTable

/-- The interfaces declared in some files, in order. -/
def interfaceSites (files : List SourceFile) : List (Site × TypeDecl) :=
  (files.flatMap SourceFile.typeSites).filter fun entry => entry.2.kind = .interface

/-- The interfaces declared under a key, in order. -/
def declaredUnder (files : List SourceFile) (key : String) : List (Site × TypeDecl) :=
  (interfaceSites files).filter fun entry => declaredKey entry = key

/-- What the interface declared here offers under the name `type` with these arguments: the
signatures of its features that are not private, and its bases, both resolved in its own scope. -/
def offer (table : TypeTable) (entry : Site × TypeDecl) (type : ResolvedType)
    (arguments : List ResolvedType) : InterfaceView where
  type
  members := ((entry.2.members.filter (!·.isPrivate)).flatMap
    (·.signatures table.resolver.resolve (.ofSite entry.1))).map (·.substitute arguments)
  bases := entry.2.bases.map fun base =>
    (table.resolver.resolve base (.ofSite entry.1)).substitute arguments

theorem interfaces_foldl (entries : List (Site × TypeDecl)) (table : TypeTable) :
    (entries.foldl (fun table entry => table.addDeclaration entry.1 entry.2) table).interfaces =
      ((entries.filter fun entry => entry.2.kind = .interface).map fun entry =>
        (declaredKey entry, (⟨entry.2, .ofSite entry.1⟩ : DeclaredInterface))).reverse ++
          table.interfaces := by
  induction entries generalizing table with
  | nil => rfl
  | cons entry rest ih =>
      rw [List.foldl_cons, ih]
      by_cases isInterface : entry.2.kind = .interface
      · simp [addDeclaration, isInterface, declaredKey]
      · simp [addDeclaration, isInterface]

/-- The table finds the last declaration under a key. -/
theorem lookup_interfaces_eq_last (files : List SourceFile) (key : String) :
    (ofFiles files).interfaces.lookup key =
      (declaredUnder files key).getLast?.map fun entry => ⟨entry.2, .ofSite entry.1⟩ := by
  rw [ofFiles_eq_foldl, interfaces_foldl, ← interfaceSites, declaredUnder]
  have empty : initial.interfaces = [] := rfl
  rw [empty, List.append_nil]
  induction interfaceSites files using List.reverseRecOn with
  | nil => rfl
  | append_singleton earlier entry ih =>
      rw [List.map_append, List.reverse_append, List.filter_append]
      by_cases same : declaredKey entry = key
      · simp [same]
      · have differs : (key == declaredKey entry) = false := by simpa using Ne.symm same
        simpa [List.lookup_cons, same, differs] using ih

theorem interface?_named (files : List SourceFile) (path : List String)
    (arguments : List ResolvedType) :
    (ofFiles files).interface? (.named path arguments) =
      (declaredUnder files (lookupKey path arguments.length)).getLast?.map fun last =>
        (ofFiles files).offer last (.named path arguments) arguments := by
  rw [interface?, lookup_interfaces_eq_last, Option.map_map]
  rfl

theorem interface?_eq_last {files : List SourceFile} {entry : Site × TypeDecl}
    {arguments : List ResolvedType} (arity : arguments.length = entry.2.arity) :
    let type := ResolvedType.named (declaredPath entry.1 entry.2) arguments
    (ofFiles files).interface? type =
      (declaredUnder files (declaredKey entry)).getLast?.map fun last =>
        (ofFiles files).offer last type arguments := by
  intro type
  rw [interface?_named, arity]
  rfl

/-- A signature of a feature that is not private is offered with the arguments put in. -/
theorem mem_members_offer {table : TypeTable} {entry : Site × TypeDecl} {type : ResolvedType}
    {arguments : List ResolvedType} {member : Member} (listed : member ∈ entry.2.members)
    (visible : member.isPrivate = false) {signature : Signature}
    (declared : signature ∈ member.signatures table.resolver.resolve (.ofSite entry.1)) :
    signature.substitute arguments ∈ (table.offer entry type arguments).members := by
  apply List.mem_map_of_mem
  refine List.mem_flatMap.mpr ⟨member, ?_, declared⟩
  exact List.mem_filter.mpr ⟨listed, by simp [visible]⟩

section Knowledge

theorem mem_known_foldl (entries : List (Site × TypeDecl)) (table : TypeTable) (key : String) :
    key ∈ (entries.foldl (fun table entry => table.addDeclaration entry.1 entry.2) table).known ↔
      key ∈ table.known ∨ ∃ entry ∈ entries, declaredKey entry = key := by
  induction entries generalizing table with
  | nil => simp
  | cons entry rest ih =>
      rw [List.foldl_cons, ih]
      simp [addDeclaration, declaredKey, or_assoc, or_left_comm, eq_comm]

/-- Which types are known does not depend on the order of the files. -/
theorem knows_ofFiles_perm {files others : List SourceFile} (perm : files.Perm others) :
    (ofFiles files).knows = (ofFiles others).knows := by
  funext path arity
  have same (key : String) : key ∈ (ofFiles files).known ↔ key ∈ (ofFiles others).known := by
    rw [ofFiles_eq_foldl, ofFiles_eq_foldl, mem_known_foldl, mem_known_foldl]
    simp only [(perm.flatMap_right SourceFile.typeSites).mem_iff]
  rw [knows, knows, Bool.eq_iff_iff, List.contains_iff_mem, List.contains_iff_mem]
  exact same _

/-- A table plays a part in resolution only through what it knows. -/
theorem resolve_congr {table other : TypeTable} (same : table.knows = other.knows) :
    table.resolve = other.resolve := by
  have name : table.resolveName = other.resolveName := by
    funext scope name arguments
    unfold resolveName
    rw [same]
  funext scope type
  induction type using TypeRef.inductionOn with
  | named aliasName segments ih =>
      have arguments :
          table.resolveArguments scope segments = other.resolveArguments scope segments := by
        simp only [resolveArguments_eq_flatMap]
        refine congrArg List.flatten (List.map_congr_left ?_)
        intro segment listed
        exact List.map_congr_left (ih segment listed)
      rw [resolve, resolve, arguments, name]
  | array element rank ih => rw [resolve, resolve, ih]
  | nullable inner ih | pointer inner ih => rw [resolve, resolve, ih]
  | tuple fields ih =>
      rw [resolve, resolve, resolveFields_eq_map, resolveFields_eq_map, List.map_congr_left ih]
  | verbatim text => rfl

theorem offer_congr {table other : TypeTable} (same : table.knows = other.knows) :
    table.offer = other.offer := by
  funext entry type arguments
  simp only [offer, resolver, resolve_congr same]

end Knowledge

/-- The table has the interface declared here, applied to these arguments, with every signature of
its features that are not private. -/
def HasMembersOf (files : List SourceFile) (entry : Site × TypeDecl)
    (arguments : List ResolvedType) : Prop :=
  ∃ view, (ofFiles files).interface? (.named (declaredPath entry.1 entry.2) arguments) =
      some view ∧
    ∀ member ∈ entry.2.members, member.isPrivate = false →
      ∀ signature ∈ member.signatures (ofFiles files).resolver.resolve (.ofSite entry.1),
        signature.substitute arguments ∈ view.members

theorem interface?_of_unique {files : List SourceFile} {entry : Site × TypeDecl}
    (declared : entry ∈ declaredUnder files (declaredKey entry))
    (unique : ∀ other ∈ declaredUnder files (declaredKey entry), other = entry)
    {arguments : List ResolvedType} (arity : arguments.length = entry.2.arity) :
    let type := ResolvedType.named (declaredPath entry.1 entry.2) arguments
    (ofFiles files).interface? type = some ((ofFiles files).offer entry type arguments) := by
  intro type
  have nonempty := List.ne_nil_of_mem declared
  rw [interface?_eq_last arity, List.getLast?_eq_some_getLast nonempty,
    unique _ (List.getLast_mem nonempty)]
  rfl

/-- The last interface declared under a key answers for all of them. One that has its key for
itself is therefore found with all its members, and found alike in every order of the files. -/
theorem interface?_declared (files : List SourceFile) (entry : Site × TypeDecl)
    (declared : entry ∈ interfaceSites files) (arguments : List ResolvedType)
    (arity : arguments.length = entry.2.arity) :
    let type := ResolvedType.named (declaredPath entry.1 entry.2) arguments
    (∃ last, (declaredUnder files (declaredKey entry)).getLast? = some last ∧
        (ofFiles files).interface? type = some ((ofFiles files).offer last type arguments)) ∧
      ((∀ other ∈ interfaceSites files, declaredKey other = declaredKey entry → other = entry) →
        HasMembersOf files entry arguments ∧
          ∀ others, files.Perm others →
            (ofFiles others).interface? type = (ofFiles files).interface? type) := by
  intro type
  have own : entry ∈ declaredUnder files (declaredKey entry) :=
    List.mem_filter.mpr ⟨declared, decide_eq_true rfl⟩
  refine ⟨?_, fun unique => ?_⟩
  · have last := List.getLast?_eq_some_getLast (List.ne_nil_of_mem own)
    refine ⟨_, last, ?_⟩
    rw [interface?_eq_last arity, last]
    rfl
  · have only : ∀ other ∈ declaredUnder files (declaredKey entry), other = entry := by
      intro other listed
      obtain ⟨member, key⟩ := List.mem_filter.mp listed
      exact unique other member (of_decide_eq_true key)
    have found := interface?_of_unique own only arity
    constructor
    · refine ⟨_, found, ?_⟩
      intro member listed visible signature shown
      exact mem_members_offer listed visible shown
    · intro others perm
      have under : (declaredUnder files (declaredKey entry)).Perm
          (declaredUnder others (declaredKey entry)) :=
        ((perm.flatMap_right _).filter _).filter _
      have elsewhere := interface?_of_unique (under.mem_iff.mp own)
        (fun other listed => only other (under.mem_iff.mpr listed)) arity
      rw [elsewhere, found, offer_congr (knows_ofFiles_perm perm)]

section Files

/-- An interface with methods of these names, which all give back a `T`. -/
def methodsInterface (name : String) (typeParameters methods : List String) : TypeDecl :=
  let method (name : String) : Member :=
    ⟨none, [], [], .feature (.method ⟨.simple "T", none, name, [], [], []⟩)⟩
  ⟨none, [], ["partial"], .interface, name, typeParameters.map (⟨none, ·⟩), none, [], [],
    methods.map method⟩

/-- The file that holds only this type. -/
def fileOf (path : String) (decl : TypeDecl) : SourceFile :=
  ⟨path, [], [.ofType decl []]⟩

def entryOf (decl : TypeDecl) : Site × TypeDecl :=
  (⟨⟨1, .type decl⟩, [⟨0, .file []⟩]⟩, decl)

/-- The interfaces `IBox<T>` and `IBox` have keys of their own, so each is found in both orders. -/
theorem interface?_declared_boxes :
    let box := methodsInterface "IBox" ["T"] ["Get", "Take"]
    let files := [fileOf "Box.cs" box, fileOf "Plain.cs" (methodsInterface "IBox" [] ["Size"])]
    let type := ResolvedType.named ["IBox"] [.named ["Item"] []]
    HasMembersOf files (entryOf box) [.named ["Item"] []] ∧
      (ofFiles files.reverse).interface? type = (ofFiles files).interface? type ∧
      ((ofFiles files).interface? type).map
          (·.members.map fun signature => (signature.name, signature.type.render)) =
        some [("Get", "Item"), ("Take", "Item")] := by
  intro box files type
  have sites : interfaceSites files =
      [entryOf box, entryOf (methodsInterface "IBox" [] ["Size"])] := rfl
  have declared : entryOf box ∈ interfaceSites files := by simp [sites]
  have unique : ∀ other ∈ interfaceSites files,
      declaredKey other = declaredKey (entryOf box) → other = entryOf box := by
    rw [sites]
    intro other listed sameKey
    obtain rfl | later := List.mem_cons.mp listed
    · rfl
    · rw [List.mem_singleton.mp later] at sameKey
      exact absurd sameKey (by decide +kernel)
  obtain ⟨-, whole⟩ := interface?_declared files (entryOf box) declared [.named ["Item"] []] rfl
  obtain ⟨members, ordered⟩ := whole unique
  exact ⟨members, ordered _ (List.reverse_perm files).symm, by decide +kernel⟩

/-- The two parts of a partial interface share a key: the first loses its member to the second, and
which part is lost depends on the order of the files. -/
theorem interface?_loses_part :
    (¬ ∀ (files : List SourceFile), ∀ entry ∈ interfaceSites files,
        ∀ arguments : List ResolvedType, arguments.length = entry.2.arity →
          HasMembersOf files entry arguments) ∧
      ¬ ∀ (files others : List SourceFile), files.Perm others → ∀ entry ∈ interfaceSites files,
        ∀ arguments : List ResolvedType, arguments.length = entry.2.arity →
          (ofFiles others).interface? (.named (declaredPath entry.1 entry.2) arguments) =
            (ofFiles files).interface? (.named (declaredPath entry.1 entry.2) arguments) := by
  let first := methodsInterface "IPart" [] ["First"]
  let files := [fileOf "One.cs" first, fileOf "Two.cs" (methodsInterface "IPart" [] ["Second"])]
  have sites : interfaceSites files =
      [entryOf first, entryOf (methodsInterface "IPart" [] ["Second"])] := rfl
  have declared : entryOf first ∈ interfaceSites files := by simp [sites]
  have path : declaredPath (entryOf first).1 (entryOf first).2 = ["IPart"] := by decide +kernel
  have names : ((ofFiles files).interface? (.named ["IPart"] [])).map
      (·.members.map (·.name)) = some ["Second"] := by decide +kernel
  have reversed : ((ofFiles files.reverse).interface? (.named ["IPart"] [])).map
      (·.members.map (·.name)) = some ["First"] := by decide +kernel
  constructor
  · intro kept
    obtain ⟨view, found, members⟩ := kept files (entryOf first) declared [] rfl
    have offered := members _ (List.mem_singleton_self _) rfl _ (List.mem_singleton_self _)
    have listed : "First" ∈ view.members.map (·.name) := List.mem_map.mpr ⟨_, offered, rfl⟩
    rw [path] at found
    rw [found] at names
    have only : view.members.map (·.name) = ["Second"] := Option.some.inj names
    rw [only] at listed
    exact absurd listed (by decide)
  · intro ordered
    have same := ordered files files.reverse (List.reverse_perm files).symm (entryOf first)
      declared [] rfl
    rw [path] at same
    rw [same, names] at reversed
    exact absurd reversed (by decide)

end Files

end TypeTable
end InterfaceGen
