import InterfaceGen.Proofs.KeyCollisions
import InterfaceGen.Proofs.TypeResolution
import Mathlib.Data.List.Basic

/-!
Instantiating an interface commutes with its lookup. Two substitutions one after the other are one
substitution as long as the first has an argument for every type parameter, and what is resolved
inside a type mentions the type parameters of that type only. A key with a single arity mark cannot
lead to an interface with more type parameters than there are arguments, so a generic interface, and
every chain of its bases, may be instantiated at any point of the way up.
-/

namespace InterfaceGen
namespace ResolvedType

/-- Every type parameter of the declaring type in it has an ordinal below `limit`. -/
inductive BoundBelow (limit : Nat) : ResolvedType → Prop where
  | named {path : List String} {arguments : List ResolvedType}
      (each : ∀ type ∈ arguments, BoundBelow limit type) : BoundBelow limit (.named path arguments)
  | ofType {ordinal : Nat} {name : String} (below : ordinal < limit) :
      BoundBelow limit (.parameter .type ordinal name)
  | ofMethod {ordinal : Nat} {name : String} : BoundBelow limit (.parameter .method ordinal name)
  | array {element : ResolvedType} {rank : Nat} (inner : BoundBelow limit element) :
      BoundBelow limit (.array element rank)
  | nullable {type : ResolvedType} (inner : BoundBelow limit type) :
      BoundBelow limit (.nullable type)
  | pointer {type : ResolvedType} (inner : BoundBelow limit type) :
      BoundBelow limit (.pointer type)
  | tuple {elements : List ResolvedType} (each : ∀ type ∈ elements, BoundBelow limit type) :
      BoundBelow limit (.tuple elements)
  | unresolved {text : String} : BoundBelow limit (.unresolved text)

theorem BoundBelow.mono {m n : Nat} {type : ResolvedType} (h : type.BoundBelow m) (le : m ≤ n) :
    type.BoundBelow n := by
  induction h with
  | named _ ih => exact .named ih
  | ofType below => exact .ofType (Nat.lt_of_lt_of_le below le)
  | ofMethod => exact .ofMethod
  | array _ ih => exact .array ih
  | nullable _ ih => exact .nullable ih
  | pointer _ ih => exact .pointer ih
  | tuple _ ih => exact .tuple ih
  | unresolved => exact .unresolved

/-- The composition law. A parameter without an argument would escape the first substitution and be
caught by the second, hence the bound. -/
theorem BoundBelow.substitute_substitute {xs : List ResolvedType} {type : ResolvedType}
    (h : type.BoundBelow xs.length) (ys : List ResolvedType) :
    (type.substitute xs).substitute ys = type.substitute (xs.map (substitute ys)) := by
  induction h with
  | named _ ih | tuple _ ih =>
      simp only [substitute, substituteEach_eq_map, List.map_map, Function.comp_def]
      rw [List.map_congr_left ih]
  | ofType below => simp [substitute, below]
  | ofMethod | unresolved => rfl
  | array _ ih | nullable _ ih | pointer _ ih => simp only [substitute, ih]

theorem boundBelow_of_typeParameter? {scope : Scope} {word : String} {type : ResolvedType}
    (found : scope.typeParameter? word = some type) :
    type.BoundBelow scope.typeParameters.length := by
  obtain ⟨ordinal, rfl⟩ | ⟨ordinal, here, rfl⟩ := Scope.typeParameter?_cases found
  · exact .ofMethod
  · obtain ⟨inside, _⟩ := List.idxOf?_eq_some_iff.mp here
    exact .ofType inside

end ResolvedType

open ResolvedType

theorem TypeTable.boundBelow_resolve (table : TypeTable) (scope : Scope) (type : TypeRef) :
    (table.resolve scope type).BoundBelow scope.typeParameters.length := by
  refine table.resolve_induction ?_ ?_ ?_ ?_ ?_ ?_ ?_ type
  · intro word type found
    exact boundBelow_of_typeParameter? found
  · exact fun _ _ ih => .named ih
  · exact fun _ _ ih => .array ih
  · exact fun _ ih => .nullable ih
  · exact fun _ ih => .pointer ih
  · exact fun _ ih => .tuple ih
  · exact fun _ => .unresolved

namespace Signature

/-- The types that a signature is made of. -/
def types (signature : Signature) : List ResolvedType :=
  signature.type :: signature.parameters.map ParameterType.type

theorem substitute_substitute {signature : Signature} {xs : List ResolvedType}
    (h : ∀ type ∈ signature.types, type.BoundBelow xs.length) (ys : List ResolvedType) :
    (signature.substitute xs).substitute ys =
      signature.substitute (xs.map (ResolvedType.substitute ys)) := by
  obtain ⟨type, parameters⟩ := List.forall_mem_cons.mp h
  have each : ∀ parameter ∈ signature.parameters,
      (parameter.substitute xs).substitute ys =
        parameter.substitute (xs.map (ResolvedType.substitute ys)) := by
    intro parameter listed
    have own := parameters _ (List.mem_map_of_mem listed)
    simp only [ParameterType.substitute, own.substitute_substitute]
  simp only [substitute, type.substitute_substitute, List.map_map, Function.comp_def]
  rw [List.map_congr_left each]

end Signature

/-- Every type in a signature of a feature is resolved in the scope around it, or inside the method
that it declares. -/
theorem Feature.types_of_mem_signatures {resolve : TypeRef → Scope → ResolvedType}
    {scope : Scope} {isStatic : Bool} {feature : Feature} {signature : Signature}
    (own : signature ∈ feature.signatures resolve scope isStatic) {motive : ResolvedType → Prop}
    (outer : ∀ type, motive (resolve type scope))
    (inner : ∀ type parameters, motive (resolve type (scope.inMethod parameters))) :
    ∀ type ∈ signature.types, motive type := by
  cases feature with
  | method decl =>
      obtain rfl := List.mem_singleton.mp own
      simp [Signature.types, ParameterType.ofParameter, inner]
  | indexer decl =>
      obtain rfl := List.mem_singleton.mp own
      simp [Signature.types, ParameterType.ofParameter, outer]
  | property decl | event decl =>
      obtain rfl := List.mem_singleton.mp own
      simp [Signature.types, outer]
  | eventField type names =>
      obtain ⟨name, -, rfl⟩ := List.mem_map.mp own
      simp [Signature.types, outer]

namespace TypeTable

theorem boundBelow_of_mem_shownSignatures {table : TypeTable} {entry : DeclaredInterface}
    {signature : Signature} (shown : signature ∈ table.shownSignatures entry) :
    ∀ type ∈ signature.types, type.BoundBelow entry.scope.typeParameters.length := by
  obtain ⟨member, _, own⟩ := List.mem_flatMap.mp shown
  unfold Member.signatures at own
  split at own
  · refine Feature.types_of_mem_signatures own ?_ ?_
    · intro type
      exact table.boundBelow_resolve entry.scope type
    · intro type parameters
      exact table.boundBelow_resolve (entry.scope.inMethod parameters) type
  · cases own

/-- The tables that can be built: from the initial one, by adding types and files. -/
inductive Built : TypeTable → Prop where
  | initial : Built .initial
  | addType {table : TypeTable} (built : Built table) (name : String) (arity : Nat) :
      Built (table.addType name arity)
  | addFile {table : TypeTable} (built : Built table) (file : SourceFile) :
      Built (table.addFile file)

theorem built_ofFiles (files : List SourceFile) : Built (ofFiles files) := by
  have further (table : TypeTable) (built : Built table) : Built (files.foldl addFile table) := by
    induction files generalizing table with
    | nil => exact built
    | cons file rest ih => exact ih _ (built.addFile file)
  exact further initial .initial

/-- An interface stands under a key with its own arity, and its scope has its type parameters. -/
structure Registered (key : String) (entry : DeclaredInterface) : Prop where
  key_eq : ∃ path, key = lookupKey path entry.decl.arity
  typeParameters : entry.scope.typeParameters.length = entry.decl.arity

theorem Built.registered {table : TypeTable} (built : table.Built) {key : String}
    {entry : DeclaredInterface} (listed : (key, entry) ∈ table.interfaces) :
    Registered key entry := by
  induction built with
  | initial => cases listed
  | addType _ name arity ih => exact ih listed
  | addFile _ file ih =>
      obtain old | ⟨site, declared, _, rfl, rfl⟩ := (mem_interfaces_foldl ..).mp listed
      · exact ih old
      · have typed := SourceFile.type?_of_mem_typeSites declared
        refine ⟨⟨_, rfl⟩, ?_⟩
        simp [Scope.ofSite, typed, TypeDecl.typeParameterNames, TypeDecl.arity]

end TypeTable

theorem Text.mem_separated {separator : String} {items : List String} {c : Char}
    (h : c ∈ (separated separator items).toList) :
    c ∈ separator.toList ∨ ∃ item ∈ items, c ∈ item.toList := by
  induction items with
  | nil => cases h
  | cons item rest ih =>
      cases rest with
      | nil => exact .inr ⟨item, List.mem_singleton_self item, h⟩
      | cons next others =>
          simp only [separated, String.toList_append, List.mem_append] at h
          obtain (here | mark) | later := h
          · exact .inr ⟨item, List.mem_cons_self, here⟩
          · exact .inl mark
          · obtain mark | ⟨other, listed, inside⟩ := ih later
            · exact .inl mark
            · exact .inr ⟨other, List.mem_cons_of_mem _ listed, inside⟩

theorem arityChar_not_mem_separated {path : List String}
    (unmarked : ∀ word ∈ path, arityChar ∉ word.toList) :
    arityChar ∉ (Text.separated "." path).toList := by
  intro inside
  obtain point | ⟨word, listed, marked⟩ := Text.mem_separated inside
  · revert point
    decide
  · exact unmarked word listed marked

/-- A path without arity marks and an arity cannot share their key with a greater arity: what stands
after the only mark of the key is the arity. -/
theorem arity_le_of_lookupKey_eq {path other : List String} {m n : Nat}
    (unmarked : ∀ word ∈ path, arityChar ∉ word.toList)
    (same : lookupKey path m = lookupKey other n) : n ≤ m := by
  have plain := arityChar_not_mem_separated unmarked
  have chars := congrArg String.toList same
  simp only [lookupKey, String.toList_append, toList_arityMark] at chars
  by_cases hn : n = 0
  · rw [hn]
    exact Nat.zero_le m
  rw [if_neg hn] at chars
  by_cases hm : m = 0
  · rw [if_pos hm, List.append_nil] at chars
    exact absurd (chars ▸ List.mem_append_right _ List.mem_cons_self) plain
  · rw [if_neg hm] at chars
    have digits := (List.append_cons_inj_of_notMem plain (not_mem_toDigits (by decide) m)).mp chars
    exact Nat.le_of_eq (toDigits_injective digits.2.2).symm

/-- The view with arguments put for type parameters throughout. -/
def InterfaceView.substitute (arguments : List ResolvedType) (view : InterfaceView) :
    InterfaceView where
  type := view.type.substitute arguments
  members := view.members.map (Signature.substitute arguments)
  bases := view.bases.map (ResolvedType.substitute arguments)

/-- A named type with no arity mark in its path. -/
def ResolvedType.Unmarked : ResolvedType → Prop
  | .named path _ => ∀ word ∈ path, arityChar ∉ word.toList
  | _ => False

theorem ResolvedType.Unmarked.substitute {type : ResolvedType} (h : type.Unmarked)
    (arguments : List ResolvedType) : (type.substitute arguments).Unmarked := by
  cases type with
  | named path own => exact h
  | parameter | array | nullable | pointer | tuple | unresolved => cases h

namespace TypeTable

/-- An interface that is found under a path without arity marks has an argument for each of its
type parameters. -/
theorem Built.typeParameters_le {table : TypeTable} (built : table.Built) {path : List String}
    (unmarked : ∀ word ∈ path, arityChar ∉ word.toList) {count : Nat} {entry : DeclaredInterface}
    (found : table.interfaces.lookup (lookupKey path count) = some entry) :
    entry.scope.typeParameters.length ≤ count := by
  obtain ⟨front, back, split, _⟩ := List.lookup_eq_some_iff.mp found
  have listed : (lookupKey path count, entry) ∈ table.interfaces := by simp [split]
  have registered := built.registered listed
  obtain ⟨other, key⟩ := registered.key_eq
  rw [registered.typeParameters]
  exact arity_le_of_lookupKey_eq unmarked key

theorem Built.interface?_substitute {table : TypeTable} (built : table.Built)
    {type : ResolvedType} (unmarked : type.Unmarked) (arguments : List ResolvedType) :
    table.interface? (type.substitute arguments) =
      (table.interface? type).map (InterfaceView.substitute arguments) := by
  cases type with
  | parameter | array | nullable | pointer | tuple | unresolved => cases unmarked
  | named path own =>
      simp only [ResolvedType.substitute, substituteEach_eq_map, interface?, List.length_map,
        Option.map_map]
      cases found : table.interfaces.lookup (lookupKey path own.length) with
      | none => rfl
      | some entry =>
          have enough : entry.scope.typeParameters.length ≤ own.length :=
            built.typeParameters_le unmarked found
          have members : ∀ signature ∈ table.shownSignatures entry,
              signature.substitute (own.map (ResolvedType.substitute arguments)) =
                (signature.substitute own).substitute arguments := by
            intro signature shown
            refine (Signature.substitute_substitute (fun type inside => ?_) arguments).symm
            exact (boundBelow_of_mem_shownSignatures shown type inside).mono enough
          have bases : ∀ base ∈ entry.decl.bases,
              (table.resolve entry.scope base).substitute
                  (own.map (ResolvedType.substitute arguments)) =
                ((table.resolve entry.scope base).substitute own).substitute arguments := by
            intro base _
            have bound := (table.boundBelow_resolve entry.scope base).mono enough
            exact (bound.substitute_substitute arguments).symm
          simp only [Option.map_some, Function.comp_apply, InterfaceView.substitute,
            ResolvedType.substitute, substituteEach_eq_map, List.map_map]
          rw [List.map_congr_left members, List.map_congr_left bases]
          rfl

/-- A chain of bases leads up from the one type to the other, and no type on the way to the other
has an arity mark in its path. -/
inductive Climbs (table : TypeTable) (bottom : ResolvedType) : ResolvedType → Prop where
  | here : Climbs table bottom bottom
  | up {type above : ResolvedType} {view : InterfaceView} (lower : Climbs table bottom type)
      (unmarked : type.Unmarked) (known : table.interface? type = some view)
      (base : above ∈ view.bases) : Climbs table bottom above

theorem Climbs.substitute {table : TypeTable} (built : table.Built) {bottom top : ResolvedType}
    (climbs : table.Climbs bottom top) (arguments : List ResolvedType) :
    table.Climbs (bottom.substitute arguments) (top.substitute arguments) := by
  induction climbs with
  | here => exact .here
  | @up type above view lower unmarked known base ih =>
      have there : table.interface? (type.substitute arguments) =
          some (view.substitute arguments) := by
        rw [built.interface?_substitute unmarked, known, Option.map_some]
      exact .up ih (unmarked.substitute arguments) there (List.mem_map_of_mem base)

/-- The lookup of an interface commutes with substitution: members and bases are those of the
interface before the substitution, with the arguments put in. Hence it makes no difference at which
point of a chain of bases the arguments are put in. -/
theorem interface?_substitute_of_built (table : TypeTable) (built : table.Built)
    (type : ResolvedType) (unmarked : type.Unmarked) (arguments : List ResolvedType) :
    table.interface? (type.substitute arguments) =
        (table.interface? type).map (InterfaceView.substitute arguments) ∧
      ∀ top, table.Climbs type top → top.Unmarked →
        table.Climbs (type.substitute arguments) (top.substitute arguments) ∧
          table.interface? (top.substitute arguments) =
            (table.interface? top).map (InterfaceView.substitute arguments) := by
  refine ⟨built.interface?_substitute unmarked arguments, ?_⟩
  intro top climbs unmarkedTop
  exact ⟨climbs.substitute built arguments, built.interface?_substitute unmarkedTop arguments⟩

/-- `ILists<A> : ISource<List<A>>`, where `ISource<B>` has the method `B Next()`. -/
def listsTable : TypeTable :=
  let lists : TypeRef := .named ⟨none, [⟨"ISource", [.named ⟨none, [⟨"List", [.simple "A"]⟩]⟩]⟩]⟩
  let next : Member := ⟨none, [], [], .feature (.method ⟨.simple "B", none, "Next", [], [], []⟩)⟩
  ofFiles [⟨"Sources.cs", [],
    [.ofType ⟨none, [], [], .interface, "ILists", [⟨none, "A"⟩], none, [lists], [], []⟩ [],
      .ofType ⟨none, [], [], .interface, "ISource", [⟨none, "B"⟩], none, [], [], [next]⟩ []]⟩]

def sourceOfLists (type : ResolvedType) : ResolvedType :=
  .named ["ISource"] [.named ["List"] [type]]

/-- From `ILists<C>` one climbs to `ISource<List<C>>`, and `int` may be put for `C` at the end. -/
theorem interface?_substitute_listsTable :
    let int := ResolvedType.named ["System", "Int32"] []
    listsTable.Climbs (.named ["ILists"] [int]) (sourceOfLists int) ∧
      listsTable.interface? (sourceOfLists int) =
        (listsTable.interface? (sourceOfLists (.parameter .type 0 "C"))).map
          (InterfaceView.substitute [int]) ∧
      (listsTable.interface? (sourceOfLists int)).map
          (·.members.map fun signature => (signature.name, signature.type.render)) =
        some [("Next", "List<int>")] := by
  intro int
  have bottom : (ResolvedType.named ["ILists"] [.parameter .type 0 "C"]).Unmarked := by
    simp [ResolvedType.Unmarked, arityChar]
  have top : (sourceOfLists (.parameter .type 0 "C")).Unmarked := by
    simp [sourceOfLists, ResolvedType.Unmarked, arityChar]
  have bases : (listsTable.interface? (.named ["ILists"] [.parameter .type 0 "C"])).map
      InterfaceView.bases = some [sourceOfLists (.parameter .type 0 "C")] := by rfl
  obtain ⟨view, known, only⟩ := Option.map_eq_some_iff.mp bases
  obtain ⟨-, chain⟩ :=
    interface?_substitute_of_built listsTable (built_ofFiles _) _ bottom [int]
  obtain ⟨climbs, same⟩ := chain _ (.up .here bottom known (only ▸ List.mem_singleton_self _)) top
  exact ⟨climbs, same, by decide +kernel⟩

end TypeTable

end InterfaceGen
