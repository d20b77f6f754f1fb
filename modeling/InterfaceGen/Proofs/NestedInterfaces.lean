import InterfaceGen.Proofs.DeclaredInterfaces
import InterfaceGen.Proofs.NameLookup

/-!
Interfaces looked up by their full names. A name that spells the whole path of a declared interface,
with type arguments at every generic type on the way, stands for that path with the arguments of all
segments. The interface, however, is known under the number of its own type parameters only. So it
is found, with all its signatures, exactly if no type around it is generic.
-/

namespace InterfaceGen

/-- The names of the signatures that a feature declares. -/
def Feature.signatureNames : Feature → List String
  | .method decl => [decl.name]
  | .property decl => [decl.name]
  | .indexer _ => ["this"]
  | .eventField _ names => names
  | .event decl => [decl.name]

/-- The names of the signatures that a type declares in members that are not private, one for each
signature and in order. -/
def TypeDecl.shownNames (decl : TypeDecl) : List String :=
  (decl.members.filter (!·.isPrivate)).flatMap fun member =>
    (member.feature?.map Feature.signatureNames).getD []

theorem Member.map_name_signatures (resolve : TypeRef → Scope → ResolvedType) (scope : Scope)
    (member : Member) :
    (member.signatures resolve scope).map Signature.name =
      (member.feature?.map Feature.signatureNames).getD [] := by
  unfold signatures
  cases member.feature? with
  | none => rfl
  | some feature =>
      cases feature with
      | method decl | property decl | indexer decl | event decl => rfl
      | eventField type names =>
          simp [Feature.signatures, Feature.signatureNames, Function.comp_def]

namespace TypeTable

theorem map_name_members_offer (table : TypeTable) (entry : Site × TypeDecl) (type : ResolvedType)
    (arguments : List ResolvedType) :
    (table.offer entry type arguments).members.map Signature.name = entry.2.shownNames := by
  have kept : Signature.name ∘ Signature.substitute arguments = Signature.name := rfl
  rw [offer, List.map_map, kept, List.map_flatMap]
  simp only [Member.map_name_signatures]
  rfl

/-- The words of the path of a declared type, each with its number of type parameters. Namespaces
have none. -/
def declaredChain (entry : Site × TypeDecl) : List (String × Nat) :=
  entry.1.namespacePath.map (·, 0) ++
    (entry.1.containers ++ [entry.2]).map fun decl => (decl.name, decl.arity)

/-- The name is the path of the declared type after `global::`, with as many type arguments at each
segment as the type of that segment has type parameters. -/
structure Spells (name : QualName) (entry : Site × TypeDecl) : Prop where
  fromGlobal : name.aliasName = some "global"
  segments : name.segments.map (fun segment => (segment.word, segment.arguments.length)) =
    declaredChain entry

namespace Spells

variable {name : QualName} {entry : Site × TypeDecl}

theorem words_eq (spells : Spells name entry) : name.words = declaredPath entry.1 entry.2 := by
  have words := congrArg (List.map Prod.fst) spells.segments
  simpa [declaredChain, declaredPath, QualName.words, Function.comp_def] using words

/-- The name has the arguments of all types on the way. -/
theorem arity_eq (spells : Spells name entry) :
    name.arity = (entry.1.containers.flatMap TypeDecl.typeParameters).length + entry.2.arity := by
  have lengths := congrArg (fun chain => (chain.map Prod.snd).sum) spells.segments
  simpa [declaredChain, QualName.arity, TypeDecl.arity, List.length_flatMap, Function.comp_def]
    using lengths

theorem resolve_eq (spells : Spells name entry) (table : TypeTable) (scope : Scope) :
    table.resolve scope (.named name) =
      .named (declaredPath entry.1 entry.2) (name.arguments.map (table.resolve scope)) := by
  obtain ⟨aliasName, segments⟩ := name
  obtain rfl : aliasName = some "global" := spells.fromGlobal
  rw [table.resolve_named scope (by simp [QualName.simple]), standsFor_global, ← spells.words_eq]
  rfl

end Spells

/-- The path of a declared type as text. -/
def dottedPath (entry : Site × TypeDecl) : String :=
  Text.separated "." (declaredPath entry.1 entry.2)

/-- Between paths without arity marks a key tells both the dotted path and the arity. -/
theorem lookupKey_eq_iff {path other : List String} {m n : Nat}
    (unmarked : arityChar ∉ (Text.separated "." path).toList)
    (otherUnmarked : arityChar ∉ (Text.separated "." other).toList) :
    lookupKey path m = lookupKey other n ↔
      Text.separated "." path = Text.separated "." other ∧ m = n := by
  constructor
  · intro same
    have marked : markedName (Text.separated "." path, m) =
        markedName (Text.separated "." other, n) := by
      simpa only [lookupKey, markedName, String.toList_append] using congrArg String.toList same
    exact Prod.mk.inj (markedName_injective unmarked otherUnmarked marked)
  · rintro ⟨paths, rfl⟩
    rw [lookupKey, lookupKey, paths]

section Lookup

variable {files : List SourceFile} {entry : Site × TypeDecl}
  (declared : entry ∈ interfaceSites files)
  (unique : ∀ other ∈ interfaceSites files, dottedPath other = dottedPath entry → other = entry)
  (unmarked : ∀ other ∈ interfaceSites files, arityChar ∉ (dottedPath other).toList)

include declared unique unmarked

/-- Under the path of an interface that has it for itself stands this interface, with its own arity,
and nothing else. -/
theorem mem_declaredUnder_iff (count : Nat) (other : Site × TypeDecl) :
    other ∈ declaredUnder files (lookupKey (declaredPath entry.1 entry.2) count) ↔
      other = entry ∧ count = entry.2.arity := by
  rw [declaredUnder, List.mem_filter, decide_eq_true_iff]
  constructor
  · rintro ⟨listed, sameKey⟩
    obtain ⟨path, arity⟩ :=
      (lookupKey_eq_iff (unmarked other listed) (unmarked entry declared)).mp sameKey
    obtain rfl := unique other listed path
    exact ⟨rfl, arity.symm⟩
  · rintro ⟨rfl, rfl⟩
    exact ⟨declared, rfl⟩

theorem interface?_of_arity {arguments : List ResolvedType}
    (arity : arguments.length = entry.2.arity) :
    let type := ResolvedType.named (declaredPath entry.1 entry.2) arguments
    (ofFiles files).interface? type = some ((ofFiles files).offer entry type arguments) := by
  have under := mem_declaredUnder_iff declared unique unmarked entry.2.arity
  refine interface?_of_unique ((under entry).mpr ⟨rfl, rfl⟩) (fun other listed => ?_) arity
  exact ((under other).mp listed).1

theorem interface?_of_other_arity {arguments : List ResolvedType}
    (differs : arguments.length ≠ entry.2.arity) :
    (ofFiles files).interface? (.named (declaredPath entry.1 entry.2) arguments) = none := by
  have nothing : declaredUnder files (lookupKey (declaredPath entry.1 entry.2) arguments.length) =
      [] := by
    refine List.eq_nil_iff_forall_not_mem.mpr fun other listed => ?_
    exact differs ((mem_declaredUnder_iff declared unique unmarked _ other).mp listed).2
  rw [interface?_named, nothing]
  rfl

end Lookup

/-- A name that spells the full path of an interface finds the last declaration under this path and
the number of all its arguments. Without arity marks in paths this is the interface itself, with all
its signatures, if no type around it is generic, and nothing at all if one is. -/
theorem interface?_of_spells (files : List SourceFile) (entry : Site × TypeDecl)
    (declared : entry ∈ interfaceSites files)
    (unique : ∀ other ∈ interfaceSites files, dottedPath other = dottedPath entry → other = entry)
    (scope : Scope) (name : QualName) (spells : Spells name entry) :
    let table := ofFiles files
    let type := table.resolve scope (.named name)
    let count := (entry.1.containers.flatMap TypeDecl.typeParameters).length + entry.2.arity
    table.interface? type =
        (declaredUnder files (lookupKey (declaredPath entry.1 entry.2) count)).getLast?.map
          (fun last => table.offer last type (name.arguments.map (table.resolve scope))) ∧
      ((∀ other ∈ interfaceSites files, arityChar ∉ (dottedPath other).toList) →
        ((∀ container ∈ entry.1.containers, container.arity = 0) →
          ∃ view, table.interface? type = some view ∧
            view.members.map Signature.name = entry.2.shownNames) ∧
        ((∃ container ∈ entry.1.containers, container.arity ≠ 0) →
          table.interface? type = none)) := by
  intro table type count
  have resolved : type = .named (declaredPath entry.1 entry.2)
      (name.arguments.map (table.resolve scope)) := spells.resolve_eq table scope
  have length : (name.arguments.map (table.resolve scope)).length = count := by
    rw [List.length_map, QualName.length_arguments, spells.arity_eq]
  have outer : (entry.1.containers.flatMap TypeDecl.typeParameters).length = 0 ↔
      ∀ container ∈ entry.1.containers, container.arity = 0 := by
    simp only [List.length_eq_zero_iff, List.flatMap_eq_nil_iff, TypeDecl.arity]
  rw [resolved]
  refine ⟨?_, fun unmarked => ⟨fun plain => ?_, ?_⟩⟩
  · rw [interface?_named, length]
  · have own : count = entry.2.arity := by simp only [count, outer.mpr plain, Nat.zero_add]
    exact ⟨_, interface?_of_arity declared unique unmarked (length.trans own),
      map_name_members_offer ..⟩
  · rintro ⟨container, around, generic⟩
    refine interface?_of_other_arity declared unique unmarked fun same => ?_
    have none : (entry.1.containers.flatMap TypeDecl.typeParameters).length = 0 := by omega
    exact generic (outer.mp none container around)

section Files

/-- The interface `IRows<U>` with a method, two events and a private method. -/
def rowsInterface : TypeDecl :=
  ⟨none, [], [], .interface, "IRows", [⟨none, "U"⟩], none, [], [],
    [⟨none, [], [], .feature (.method ⟨.simple "U", none, "Get", [], [], []⟩)⟩,
      ⟨none, [], [], .feature (.eventField (.simple "Action") ["Added", "Removed"])⟩,
      ⟨none, [], ["private"], .feature (.method ⟨.simple "void", none, "Clear", [], [], []⟩)⟩]⟩

def tableClass (typeParameters : List TypeParameter) : TypeDecl :=
  ⟨none, [], [], .classType, "Table", typeParameters, none, [], [], []⟩

/-- The file with `IRows<U>` inside the class `Data.Table`, which has these type parameters. -/
def rowsFile (typeParameters : List TypeParameter) : SourceFile :=
  ⟨"Rows.cs", [], [.inNamespace ⟨"Data", [], false⟩
    [.ofType (tableClass typeParameters) [.ofType rowsInterface []]]]⟩

def rowsEntry (typeParameters : List TypeParameter) : Site × TypeDecl :=
  (⟨⟨3, .type rowsInterface⟩,
    [⟨2, .type (tableClass typeParameters)⟩, ⟨1, .space ⟨"Data", [], false⟩⟩, ⟨0, .file []⟩]⟩,
    rowsInterface)

/-- The name `global::Data.Table<…>.IRows<string>` with these arguments of `Table`. -/
def rowsName (arguments : List TypeRef) : QualName :=
  ⟨some "global", [⟨"Data", []⟩, ⟨"Table", arguments⟩, ⟨"IRows", [.simple "string"]⟩]⟩

/-- `global::Data.Table.IRows<string>` is the interface with its method and its two events. -/
theorem interface?_of_spells_rows :
    let table := ofFiles [rowsFile []]
    ∃ view, table.interface? (table.resolve .empty (.named (rowsName []))) = some view ∧
      view.members.map Signature.name = ["Get", "Added", "Removed"] := by
  have sites : interfaceSites [rowsFile []] = [rowsEntry []] := rfl
  have declared : rowsEntry [] ∈ interfaceSites [rowsFile []] := by simp [sites]
  have unique : ∀ other ∈ interfaceSites [rowsFile []],
      dottedPath other = dottedPath (rowsEntry []) → other = rowsEntry [] := by
    simp [sites]
  have unmarked : ∀ other ∈ interfaceSites [rowsFile []],
      arityChar ∉ (dottedPath other).toList := by
    rw [sites]
    simp only [List.mem_singleton, forall_eq]
    decide +kernel
  have spells : Spells (rowsName []) (rowsEntry []) := ⟨rfl, by decide +kernel⟩
  obtain ⟨-, whole⟩ := interface?_of_spells _ _ declared unique .empty _ spells
  exact (whole unmarked).1 (by decide +kernel)

/-- Inside `Table<T>` the same interface is not found as `global::Data.Table<int>.IRows<string>`. -/
theorem interface?_misses_nested :
    ¬ ∀ (files : List SourceFile) (entry : Site × TypeDecl) (scope : Scope) (name : QualName),
      entry ∈ interfaceSites files →
      (∀ other ∈ files.flatMap SourceFile.typeSites, dottedPath other = dottedPath entry →
        other = entry) →
      Spells name entry →
      ∃ view, (ofFiles files).interface? ((ofFiles files).resolve scope (.named name)) = some view ∧
        view.members.length = entry.2.shownNames.length := by
  intro found
  let parameters : List TypeParameter := [⟨none, "T"⟩]
  have types : [rowsFile parameters].flatMap SourceFile.typeSites =
      [(⟨⟨2, .type (tableClass parameters)⟩, [⟨1, .space ⟨"Data", [], false⟩⟩, ⟨0, .file []⟩]⟩,
        tableClass parameters), rowsEntry parameters] := rfl
  have unique : ∀ other ∈ [rowsFile parameters].flatMap SourceFile.typeSites,
      dottedPath other = dottedPath (rowsEntry parameters) → other = rowsEntry parameters := by
    rw [types]
    intro other listed same
    obtain rfl | later := List.mem_cons.mp listed
    · exact absurd same (by decide +kernel)
    · exact List.mem_singleton.mp later
  have spells : Spells (rowsName [.simple "int"]) (rowsEntry parameters) := ⟨rfl, by decide +kernel⟩
  obtain ⟨view, here, -⟩ := found _ _ .empty _ (List.mem_singleton_self _) unique spells
  have nothing : ((ofFiles [rowsFile parameters]).interface?
      ((ofFiles [rowsFile parameters]).resolve .empty
        (.named (rowsName [.simple "int"])))).isSome = false := by decide +kernel
  rw [here] at nothing
  cases nothing

end Files

end TypeTable
end InterfaceGen
