import InterfaceGen.Proofs.EquivalenceLaws
import InterfaceGen.Proofs.MirroredInterface
import InterfaceGen.Proofs.NameLookup
import Mathlib.Data.Set.Operations

/-!
The names of a method's type parameters do not matter. Only a plain word, without alias mark, point
or arguments, can mean a type parameter, so renaming the type parameters of a method together with
the plain words in its types keeps every type up to the name shown for a type parameter, as long as
no word is taken for another one afterwards. The signatures before and after are equivalent, and the
search of base interfaces cannot tell them apart.
-/

namespace InterfaceGen

/-- The word of a name that is a single word without an alias mark and without arguments. -/
def QualName.plainWord? (name : QualName) : Option String :=
  match name with
  | ⟨none, [⟨word, []⟩]⟩ => some word
  | _ => none

theorem QualName.plainWord?_eq_some_iff {name : QualName} {word : String} :
    name.plainWord? = some word ↔ name = .simple word := by
  constructor
  · intro plain
    unfold plainWord? at plain
    split at plain
    · rw [Option.some.inj plain]
      rfl
    · cases plain
  · intro h
    rw [h]
    rfl

mutual

/-- The type with its plain words renamed. All other words, and the names of tuple elements, stay
as they are. -/
def TypeRef.rename (newName : String → String) : TypeRef → TypeRef
  | .named ⟨aliasName, segments⟩ =>
      match QualName.plainWord? ⟨aliasName, segments⟩ with
      | some word => .simple (newName word)
      | none => .named ⟨aliasName, Segment.renameEach newName segments⟩
  | .array element rank => .array (element.rename newName) rank
  | .nullable inner => .nullable (inner.rename newName)
  | .pointer inner => .pointer (inner.rename newName)
  | .tuple fields => .tuple (TupleField.renameEach newName fields)
  | .verbatim text => .verbatim text

def TypeRef.renameEach (newName : String → String) : List TypeRef → List TypeRef
  | [] => []
  | type :: rest => type.rename newName :: TypeRef.renameEach newName rest

def Segment.renameEach (newName : String → String) : List Segment → List Segment
  | [] => []
  | ⟨word, arguments⟩ :: rest =>
      ⟨word, TypeRef.renameEach newName arguments⟩ :: Segment.renameEach newName rest

def TupleField.renameEach (newName : String → String) : List TupleField → List TupleField
  | [] => []
  | ⟨type, name⟩ :: rest => ⟨type.rename newName, name⟩ :: TupleField.renameEach newName rest

end

/-- The segment with the plain words in its arguments renamed. -/
def Segment.rename (newName : String → String) (segment : Segment) : Segment :=
  ⟨segment.word, segment.arguments.map (TypeRef.rename newName)⟩

/-- The name with the plain words in its arguments renamed. -/
def QualName.rename (newName : String → String) (name : QualName) : QualName :=
  ⟨name.aliasName, name.segments.map (Segment.rename newName)⟩

@[simp] theorem TypeRef.renameEach_eq_map (newName : String → String) (types : List TypeRef) :
    TypeRef.renameEach newName types = types.map (TypeRef.rename newName) := by
  induction types with
  | nil => rfl
  | cons type rest ih => simp [TypeRef.renameEach, ih]

@[simp] theorem Segment.renameEach_eq_map (newName : String → String) (segments : List Segment) :
    Segment.renameEach newName segments = segments.map (Segment.rename newName) := by
  induction segments with
  | nil => rfl
  | cons segment rest ih => cases segment; simp [Segment.renameEach, Segment.rename, ih]

@[simp] theorem TupleField.renameEach_eq_map (newName : String → String)
    (fields : List TupleField) :
    TupleField.renameEach newName fields =
      fields.map fun field => ⟨field.type.rename newName, field.name⟩ := by
  induction fields with
  | nil => rfl
  | cons field rest ih => cases field; simp [TupleField.renameEach, ih]

namespace TypeRef

/-- The word stands in the type as a name of its own, at any depth. -/
inductive Mentions (word : String) : TypeRef → Prop where
  | plain : Mentions word (.simple word)
  | argument {aliasName : Option String} {segments : List Segment} {segment : Segment}
      {type : TypeRef} (listed : segment ∈ segments) (given : type ∈ segment.arguments)
      (inner : Mentions word type) : Mentions word (.named ⟨aliasName, segments⟩)
  | array {element : TypeRef} {rank : Nat} (inner : Mentions word element) :
      Mentions word (.array element rank)
  | nullable {type : TypeRef} (inner : Mentions word type) : Mentions word (.nullable type)
  | pointer {type : TypeRef} (inner : Mentions word type) : Mentions word (.pointer type)
  | field {fields : List TupleField} {field : TupleField} (listed : field ∈ fields)
      (inner : Mentions word field.type) : Mentions word (.tuple fields)

theorem eq_of_mentions_simple {word other : String} (h : Mentions other (.simple word)) :
    other = word := by
  cases h with
  | plain => rfl
  | argument listed given _ =>
      rw [List.mem_singleton.mp listed] at given
      cases given

theorem rename_simple (newName : String → String) (word : String) :
    (simple word).rename newName = simple (newName word) := by
  unfold simple QualName.simple
  rw [rename]
  rfl

theorem rename_named (newName : String → String) {name : QualName}
    (compound : name.plainWord? = none) :
    (named name).rename newName = .named (name.rename newName) := by
  obtain ⟨aliasName, segments⟩ := name
  rw [rename, compound, Segment.renameEach_eq_map]
  rfl

end TypeRef

namespace QualName

theorem plainWord?_rename (newName : String → String) (name : QualName) :
    (name.rename newName).plainWord? = name.plainWord? := by
  obtain ⟨aliasName, segments⟩ := name
  cases aliasName with
  | some aliasName => rfl
  | none =>
      cases segments with
      | nil => rfl
      | cons segment rest =>
          obtain ⟨word, arguments⟩ := segment
          cases arguments with
          | nil => cases rest <;> rfl
          | cons first others => rfl

theorem ne_simple_of_plainWord? {name : QualName} (compound : name.plainWord? = none)
    (word : String) : name ≠ .simple word := by
  intro plain
  rw [plainWord?_eq_some_iff.mpr plain] at compound
  cases compound

theorem words_rename (newName : String → String) (name : QualName) :
    (name.rename newName).words = name.words := by
  simp [rename, words, Segment.rename, Function.comp_def]

theorem arguments_rename (newName : String → String) (name : QualName) :
    (name.rename newName).arguments = name.arguments.map (TypeRef.rename newName) := by
  simp [rename, arguments, List.flatMap_map, List.map_flatMap, Segment.rename]

theorem lastArity_rename (newName : String → String) (name : QualName) :
    (name.rename newName).lastArity = name.lastArity := by
  simp [rename, lastArity, last?, Segment.rename, Function.comp_def]

end QualName

/-- In a list of names, a renamed name stands where the name stood, if renaming tells it apart from
the others. -/
theorem idxOf?_map_newName {newName : String → String} {names : List String} {word : String}
    (apart : ∀ name ∈ names, newName name = newName word → name = word) :
    (names.map newName).idxOf? (newName word) = names.idxOf? word := by
  induction names with
  | nil => rfl
  | cons name rest ih =>
      obtain ⟨first, later⟩ := List.forall_mem_cons.mp apart
      have same : (newName name == newName word) = (name == word) := by
        rw [Bool.eq_iff_iff, beq_iff_eq, beq_iff_eq]
        exact ⟨first, congrArg newName⟩
      rw [List.map_cons, List.idxOf?_cons, List.idxOf?_cons, same, ih later]

namespace TypeTable

/-- The type parameters of a method play no part in the paths that a name may stand for. -/
theorem standsFor_inMethod (table : TypeTable) (scope : Scope) (parameters : List TypeParameter)
    (name : QualName) : table.standsFor (scope.inMethod parameters) name = table.standsFor scope name :=
  rfl

theorem standsFor_rename (table : TypeTable) (scope : Scope) (newName : String → String)
    (name : QualName) : table.standsFor scope (name.rename newName) = table.standsFor scope name := by
  unfold standsFor
  rw [QualName.words_rename, QualName.lastArity_rename]
  rfl

end TypeTable

/-- The type parameter under a new name. -/
def TypeParameter.rename (newName : String → String) (parameter : TypeParameter) : TypeParameter :=
  { parameter with name := newName parameter.name }

/-- The parameter with the plain words in its type renamed. -/
def Parameter.rename (newName : String → String) (parameter : Parameter) : Parameter :=
  { parameter with type := parameter.type.rename newName }

namespace Method

def typeParameterNames (decl : Method) : List String :=
  decl.typeParameters.map TypeParameter.name

/-- The method with its type parameters renamed, and with them the plain words in its types and the
names that its constraints are about. -/
def rename (newName : String → String) (decl : Method) : Method :=
  { decl with
    result := decl.result.rename newName
    typeParameters := decl.typeParameters.map (TypeParameter.rename newName)
    parameters := decl.parameters.map (Parameter.rename newName)
    constraints := decl.constraints.map fun clause =>
      { clause with parameter := newName clause.parameter } }

/-- The names that a renaming of the type parameters has to keep apart: the type parameters and the
plain words in the result and in the parameters. -/
def boundWords (decl : Method) : Set String :=
  {word | word ∈ decl.typeParameterNames ∨
    ∃ type ∈ (Feature.method decl).types, type.Mentions word}

end Method

namespace TypeTable
variable {table : TypeTable} {scope : Scope} {newName : String → String}
  {parameters : List TypeParameter}

/-- A plain word means the same type parameter under its new name, or the same type as before. -/
theorem erase_resolve_rename_simple {word : String}
    (kept : ∀ name, name ∉ parameters.map TypeParameter.name → newName name = name)
    (apart : ∀ name ∈ parameters.map TypeParameter.name, newName name = newName word → name = word) :
    (table.resolve (scope.inMethod (parameters.map (TypeParameter.rename newName)))
        (.simple (newName word))).erase =
      (table.resolve (scope.inMethod parameters) (.simple word)).erase := by
  have names : (parameters.map (TypeParameter.rename newName)).map TypeParameter.name =
      (parameters.map TypeParameter.name).map newName := by
    simp [TypeParameter.rename, Function.comp_def]
  have place := idxOf?_map_newName apart
  rw [resolve_simple, resolve_simple]
  unfold Scope.typeParameter? Scope.inMethod
  dsimp only
  rw [names, place]
  cases found : (parameters.map TypeParameter.name).idxOf? word with
  | some ordinal => rfl
  | none =>
      -- a word that is no type parameter keeps its name, and all that it may mean otherwise
      have foreign := List.idxOf?_eq_none_iff.mp found
      rw [kept word foreign]
      rfl

/-- A name that is no plain word keeps its path, and its arguments are renamed each for itself. -/
theorem erase_resolve_rename_named {name : QualName} (compound : name.plainWord? = none)
    (arguments : ∀ type ∈ name.arguments,
      (table.resolve (scope.inMethod (parameters.map (TypeParameter.rename newName)))
          (type.rename newName)).erase =
        (table.resolve (scope.inMethod parameters) type).erase) :
    (table.resolve (scope.inMethod (parameters.map (TypeParameter.rename newName)))
        ((TypeRef.named name).rename newName)).erase =
      (table.resolve (scope.inMethod parameters) (.named name)).erase := by
  have renamed : (name.rename newName).plainWord? = none :=
    (name.plainWord?_rename newName).trans compound
  rw [TypeRef.rename_named newName compound,
    table.resolve_named _ (QualName.ne_simple_of_plainWord? renamed),
    table.resolve_named _ (QualName.ne_simple_of_plainWord? compound),
    standsFor_inMethod, standsFor_inMethod, standsFor_rename, QualName.arguments_rename]
  simp only [ResolvedType.erase, ResolvedType.eraseEach_eq_map, List.map_map, Function.comp_def]
  rw [List.map_congr_left arguments]

theorem erase_resolve_rename {type : TypeRef}
    (kept : ∀ name, name ∉ parameters.map TypeParameter.name → newName name = name)
    (apart : ∀ word, type.Mentions word → ∀ name ∈ parameters.map TypeParameter.name,
      newName name = newName word → name = word) :
    (table.resolve (scope.inMethod (parameters.map (TypeParameter.rename newName)))
        (type.rename newName)).erase =
      (table.resolve (scope.inMethod parameters) type).erase := by
  induction type using TypeRef.inductionOn with
  | named aliasName segments ih =>
      cases plain : QualName.plainWord? ⟨aliasName, segments⟩ with
      | some word =>
          have isPlain := QualName.plainWord?_eq_some_iff.mp plain
          rw [isPlain] at apart ⊢
          have renamed : TypeRef.rename newName (.named (.simple word)) = .simple (newName word) :=
            TypeRef.rename_simple newName word
          rw [renamed]
          exact erase_resolve_rename_simple kept (apart word .plain)
      | none =>
          apply erase_resolve_rename_named plain
          intro type given
          obtain ⟨segment, listed, inside⟩ := List.mem_flatMap.mp given
          apply ih segment listed type inside
          intro word mentioned
          exact apart word (.argument listed inside mentioned)
  | array element rank ih =>
      rw [TypeRef.rename, resolve, resolve, ResolvedType.erase, ResolvedType.erase,
        ih fun word mentioned => apart word (.array mentioned)]
  | nullable inner ih =>
      rw [TypeRef.rename, resolve, resolve, ResolvedType.erase, ResolvedType.erase,
        ih fun word mentioned => apart word (.nullable mentioned)]
  | pointer inner ih =>
      rw [TypeRef.rename, resolve, resolve, ResolvedType.erase, ResolvedType.erase,
        ih fun word mentioned => apart word (.pointer mentioned)]
  | tuple fields ih =>
      have elements (field : TupleField) (listed : field ∈ fields) :=
        ih field listed fun word mentioned => apart word (.field listed mentioned)
      simp only [TypeRef.rename, TupleField.renameEach_eq_map, resolve, resolveFields_eq_map,
        ResolvedType.erase, ResolvedType.eraseEach_eq_map, List.map_map, Function.comp_def]
      rw [List.map_congr_left elements]
  | verbatim text => rfl

end TypeTable

namespace Method

/-- The signature of a method in a scope. -/
def signature (table : TypeTable) (scope : Scope) (isStatic : Bool) (decl : Method) : Signature :=
  let inner := scope.inMethod decl.typeParameters
  { kind := .method
    name := decl.name
    type := table.resolver.resolve decl.result inner
    parameters := decl.parameters.map (.ofParameter (table.resolver.resolve · inner))
    arity := decl.typeParameters.length
    isStatic
    accessors := .empty }

theorem signatures_method (table : TypeTable) (scope : Scope) (isStatic : Bool) (decl : Method) :
    (Feature.method decl).signatures table.resolver.resolve scope isStatic =
      [decl.signature table scope isStatic] :=
  rfl

theorem erase_signature_rename (table : TypeTable) (scope : Scope) (isStatic : Bool)
    {decl : Method} {newName : String → String}
    (kept : ∀ name, name ∉ decl.typeParameterNames → newName name = name)
    (apart : Set.InjOn newName decl.boundWords) :
    ((decl.rename newName).signature table scope isStatic).erase =
      (decl.signature table scope isStatic).erase := by
  have each (type : TypeRef) (listed : type ∈ (Feature.method decl).types) :
      (table.resolve (scope.inMethod (decl.typeParameters.map (TypeParameter.rename newName)))
          (type.rename newName)).erase =
        (table.resolve (scope.inMethod decl.typeParameters) type).erase := by
    apply TypeTable.erase_resolve_rename kept
    intro word mentioned name declared same
    exact apart (.inl declared) (.inr ⟨type, listed, mentioned⟩) same
  have result := each decl.result List.mem_cons_self
  have parameters : ∀ parameter ∈ decl.parameters,
      (table.resolve (scope.inMethod (decl.typeParameters.map (TypeParameter.rename newName)))
          (parameter.type.rename newName)).erase =
        (table.resolve (scope.inMethod decl.typeParameters) parameter.type).erase := by
    intro parameter listed
    exact each parameter.type (List.mem_cons_of_mem _ (List.mem_map_of_mem listed))
  simp only [signature, Signature.erase, rename, List.length_map, List.map_map,
    Function.comp_def, ParameterType.ofParameter, ParameterType.erase, Parameter.rename,
    TypeTable.resolver]
  rw [result, List.map_congr_left fun parameter listed =>
    congrArg (ParameterType.mk · (.ofModifiers parameter.modifiers)) (parameters parameter listed)]

/-- Renaming the type parameters of a method, apart from each other and from the plain words in its
types, gives an equivalent signature, so that base interfaces provide both or neither. -/
theorem signature_rename_equivalent (table : TypeTable) (scope : Scope) (decl : Method)
    (isStatic : Bool) (newName : String → String)
    (kept : ∀ name, name ∉ decl.typeParameterNames → newName name = name)
    (apart : Set.InjOn newName decl.boundWords) :
    ∃ own renamed : Signature,
      (Feature.method decl).signatures table.resolver.resolve scope isStatic = [own] ∧
        (Feature.method (decl.rename newName)).signatures table.resolver.resolve scope isStatic =
          [renamed] ∧
        own.equivalent renamed = true ∧
        ∀ (resolver : Resolver) (bases : List ResolvedType),
          resolver.providedByBases bases own = resolver.providedByBases bases renamed := by
  have same : (decl.signature table scope isStatic).equivalent
      ((decl.rename newName).signature table scope isStatic) = true := by
    rw [Signature.equivalent_iff_erase]
    exact (erase_signature_rename table scope isStatic kept apart).symm
  refine ⟨_, _, signatures_method .., signatures_method .., same, ?_⟩
  intro resolver bases
  exact BaseSearch.searchBases_congr same [] bases

/-- The method `T Get<T>(T x)`, with this name for `T`. -/
def getter (parameter : String) : Method :=
  ⟨.simple parameter, none, "Get", [⟨none, parameter⟩], [.plain (.simple parameter) "x"], []⟩

/-- The interface `ISource` with the method `T Get<T>(T x)`. -/
def sourceFile : SourceFile :=
  ⟨"Source.cs", [], [.ofType ⟨none, [], [], .interface, "ISource", [], none, [], [],
    [⟨none, [], [], .feature (.method (getter "T"))⟩]⟩ []]⟩

def callT (newWord name : String) : String :=
  if name = "T" then newWord else name

/-- `ISource` provides the method `U Get<U>(U x)`. -/
theorem providedByBases_getter :
    let table := TypeTable.ofFiles [sourceFile]
    ∃ signature, (Feature.method (getter "U")).signatures table.resolver.resolve .empty false =
        [signature] ∧
      table.resolver.providedByBases [.named ["ISource"] []] signature = some true := by
  intro table
  have kept : ∀ name, name ∉ (getter "T").typeParameterNames → callT "U" name = name := by
    intro name foreign
    have other : name ≠ "T" := by simpa [getter, typeParameterNames] using foreign
    exact if_neg other
  have words : ∀ word ∈ (getter "T").boundWords, word = "T" := by
    intro word bound
    cases bound with
    | inl declared => simpa [getter, typeParameterNames] using declared
    | inr mentioned =>
        obtain ⟨type, listed, inside⟩ := mentioned
        have plain : type = .simple "T" := by
          simpa [getter, Feature.types, Parameter.plain] using listed
        rw [plain] at inside
        exact TypeRef.eq_of_mentions_simple inside
  have apart : Set.InjOn (callT "U") (getter "T").boundWords := by
    intro word bound other otherBound _
    rw [words word bound, words other otherBound]
  obtain ⟨own, renamed, declared, shown, -, alike⟩ :=
    signature_rename_equivalent table .empty (getter "T") false (callT "U") kept apart
  refine ⟨renamed, shown, ?_⟩
  rw [← alike]
  cases declared
  exact BaseSearch.providedByBases_singleton _ (by decide +kernel)

end Method

end InterfaceGen
