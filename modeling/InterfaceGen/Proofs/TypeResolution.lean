import InterfaceGen.TypeTable.Resolution

/-!
What the meaning of a type reference depends on. Names are looked for below each of the types around
them, so a type with nothing known below it adds no meaning to the names inside it: resolution gives
the same there as just outside. The type parameters of a type, put for themselves, change nothing in
what is resolved inside it. And a table of files finds under a key the one interface that has it.
-/

namespace InterfaceGen

namespace TypeRef

/-- Induction with a hypothesis for each type argument and for each tuple element. -/
@[elab_as_elim]
theorem inductionOn {motive : TypeRef → Prop}
    (named : ∀ aliasName segments,
      (∀ segment ∈ segments, ∀ type ∈ segment.arguments, motive type) →
      motive (.named ⟨aliasName, segments⟩))
    (array : ∀ element rank, motive element → motive (.array element rank))
    (nullable : ∀ inner, motive inner → motive (.nullable inner))
    (pointer : ∀ inner, motive inner → motive (.pointer inner))
    (tuple : ∀ fields, (∀ field ∈ fields, motive field.type) → motive (.tuple fields))
    (verbatim : ∀ text, motive (.verbatim text))
    (type : TypeRef) : motive type := by
  refine @TypeRef.rec motive (fun name => motive (.named name))
    (fun segment => ∀ type ∈ segment.arguments, motive type) (fun field => motive field.type)
    (fun fields => ∀ field ∈ fields, motive field.type)
    (fun segments => ∀ segment ∈ segments, ∀ type ∈ segment.arguments, motive type)
    (fun types => ∀ type ∈ types, motive type)
    (fun _ h => h) array nullable pointer tuple verbatim named (fun _ _ h => h) (fun _ _ h => h)
    ?_ ?_ ?_ ?_ ?_ ?_ type
  case refine_1 | refine_3 | refine_5 => exact fun _ member => by cases member
  case refine_2 | refine_4 | refine_6 =>
    exact fun _ _ head tail => List.forall_mem_cons.mpr ⟨head, tail⟩

/-- Each name in the type that has no alias mark has at least one segment. -/
inductive Spelled : TypeRef → Prop where
  | named {aliasName : Option String} {segments : List Segment}
      (nonempty : aliasName = none → segments ≠ [])
      (arguments : ∀ segment ∈ segments, ∀ type ∈ segment.arguments, Spelled type) :
      Spelled (.named ⟨aliasName, segments⟩)
  | array {element : TypeRef} {rank : Nat} (inner : Spelled element) :
      Spelled (.array element rank)
  | nullable {type : TypeRef} (inner : Spelled type) : Spelled (.nullable type)
  | pointer {type : TypeRef} (inner : Spelled type) : Spelled (.pointer type)
  | tuple {fields : List TupleField} (types : ∀ field ∈ fields, Spelled field.type) :
      Spelled (.tuple fields)
  | verbatim {text : String} : Spelled (.verbatim text)

theorem spelled_simple (word : String) : (simple word).Spelled :=
  .named (by simp) (by simp)

end TypeRef

namespace Scope

/-- The scope just outside the innermost type, with the type parameters of that type. -/
def around (scope : Scope) : Scope :=
  { scope with enclosing := scope.enclosing.dropLast }

/-- The longest beginning of a path is the path itself. -/
theorem startsDownTo_concat (least : Nat) (front : List String) (last : String)
    (enough : least ≤ front.length + 1) :
    startsDownTo least (front ++ [last]) = (front ++ [last]) :: startsDownTo least front := by
  have length : (front ++ [last]).length + 1 - least = front.length + 1 - least + 1 := by
    simp only [List.length_append, List.length_singleton]
    omega
  unfold startsDownTo
  rw [length, List.range_succ, List.reverse_append, List.map_append]
  have whole : ([front.length + 1 - least].reverse.map fun length =>
      (front ++ [last]).take (length + least)) = [front ++ [last]] := by
    simp [enough, List.take_of_length_le]
  have shorter : ((List.range (front.length + 1 - least)).reverse.map fun length =>
        (front ++ [last]).take (length + least)) =
      (List.range (front.length + 1 - least)).reverse.map fun length =>
        front.take (length + least) := by
    apply List.map_congr_left
    intro length member
    have inside : length < front.length + 1 - least := by simpa using member
    exact List.take_append_of_le_length (by omega)
  rw [whole, shorter]
  rfl

theorem startsDownTo_one {path : List String} (nonempty : path ≠ []) :
    startsDownTo 1 path = path :: startsDownTo 1 path.dropLast := by
  obtain ⟨front, last, rfl⟩ := (List.eq_nil_or_concat path).resolve_left nonempty
  rw [List.concat_eq_append, List.dropLast_concat]
  exact startsDownTo_concat 1 front last (Nat.le_add_left ..)

/-- After an alias mark the types around a name play no part. -/
theorem candidates_around_some (scope : Scope) (aliasName : String) (words : List String) :
    scope.around.candidates (some aliasName) words = scope.candidates (some aliasName) words := by
  unfold candidates
  split
  · rfl
  · rfl
  · contradiction

end Scope

namespace ResolvedType

/-- Type parameters of these names as types, in order. -/
def parametersOf (names : List String) : List ResolvedType :=
  names.mapIdx (.parameter .type)

end ResolvedType

namespace TypeTable

/-- No known type has a path that goes on from this one. -/
def IsLeaf (table : TypeTable) (path : List String) : Prop :=
  ∀ key ∈ table.known, ¬ (Text.separated "." path ++ ".").toList <+: key.toList

instance (table : TypeTable) (path : List String) : Decidable (table.IsLeaf path) :=
  inferInstanceAs (Decidable (∀ key ∈ table.known, _))

theorem knows_append_of_isLeaf {table : TypeTable} {path words : List String}
    (leaf : table.IsLeaf path) (nonempty : path ≠ []) (follows : words ≠ []) (arity : Nat) :
    table.knows (path ++ words) arity = false := by
  refine eq_false_of_ne_true fun known => ?_
  have found : lookupKey (path ++ words) arity ∈ table.known := List.contains_iff_mem.mp known
  refine leaf _ found ?_
  rw [lookupKey, Text.separated_append "." nonempty follows, String.append_assoc]
  exact ⟨(Text.separated "." words ++ arityMark arity).toList, String.toList_append.symm⟩

/-- The innermost type is passed over in the lookup of a name inside it. -/
theorem find?_candidates_around {table : TypeTable} {scope : Scope}
    (leaf : table.IsLeaf (scope.namespacePath ++ scope.enclosing)) (within : scope.enclosing ≠ [])
    {aliasName : Option String} {words : List String} (spelled : aliasName = none → words ≠ [])
    (arity : Nat) :
    (scope.around.candidates aliasName words).find? (table.knows · arity) =
      (scope.candidates aliasName words).find? (table.knows · arity) := by
  cases aliasName with
  | some aliasName => rw [Scope.candidates_around_some]
  | none =>
      have path : scope.namespacePath ++ scope.enclosing ≠ [] := by simp [within]
      have passed := knows_append_of_isLeaf leaf path (spelled rfl) arity
      simp only [Scope.candidates, Scope.plainCandidates, Scope.startsDownTo_one within,
        List.map_cons, List.find?_append, List.find?_cons, passed]
      rfl

theorem resolveName_around {table : TypeTable} {scope : Scope}
    (leaf : table.IsLeaf (scope.namespacePath ++ scope.enclosing)) (within : scope.enclosing ≠ [])
    {name : QualName} (spelled : name.aliasName = none → name.segments ≠ [])
    (arguments : List ResolvedType) :
    table.resolveName scope.around name arguments = table.resolveName scope name arguments := by
  have words : name.aliasName = none → name.words ≠ [] := by
    simpa [QualName.words] using spelled
  simp only [resolveName, find?_candidates_around leaf within words]
  cases aliased : name.aliasName with
  | none => rfl
  | some aliasName =>
      rw [Scope.candidates_around_some]

/-- Resolution inside a type with nothing known below it is resolution just outside. -/
theorem resolve_around {table : TypeTable} {scope : Scope}
    (leaf : table.IsLeaf (scope.namespacePath ++ scope.enclosing)) (within : scope.enclosing ≠ [])
    {type : TypeRef} (spelled : type.Spelled) :
    table.resolve scope.around type = table.resolve scope type := by
  induction spelled with
  | @named aliasName segments nonempty _ ih =>
      have arguments : table.resolveArguments scope.around segments =
          table.resolveArguments scope segments := by
        simp only [resolveArguments_eq_flatMap]
        refine congrArg List.flatten (List.map_congr_left fun segment member => ?_)
        exact List.map_congr_left (ih segment member)
      rw [resolve, resolve, arguments]
      exact resolveName_around leaf within nonempty _
  | array _ ih | nullable _ ih | pointer _ ih => simp only [resolve, ih]
  | tuple _ ih =>
      simp only [resolve, resolveFields_eq_map]
      rw [List.map_congr_left ih]
  | verbatim => rfl

end TypeTable

section Meanings

/-- A name stands for a type parameter in scope or for a named type. -/
theorem TypeTable.resolveName_cases (table : TypeTable) (scope : Scope) (name : QualName)
    (arguments : List ResolvedType) :
    (∃ word, scope.typeParameter? word = some (table.resolveName scope name arguments)) ∨
      ∃ path, table.resolveName scope name arguments = .named path arguments := by
  unfold resolveName
  dsimp only
  split
  · rename_i word _ _
    cases parameter : scope.typeParameter? word with
    | some type => exact .inl ⟨word, parameter⟩
    | none =>
        right
        cases keyword : ResolvedType.ofKeyword? word with
        | none => exact ⟨_, rfl⟩
        | some type =>
            obtain ⟨entry, _, rfl⟩ := Option.map_eq_some_iff.mp keyword
            exact ⟨_, rfl⟩
  · exact .inr ⟨_, rfl⟩

/-- What holds of the type parameters in scope, and is kept up by every way of building a type,
holds of all that is resolved there. -/
theorem TypeTable.resolve_induction (table : TypeTable) {scope : Scope}
    {motive : ResolvedType → Prop}
    (parameter : ∀ word type, scope.typeParameter? word = some type → motive type)
    (named : ∀ path arguments, (∀ type ∈ arguments, motive type) → motive (.named path arguments))
    (array : ∀ element rank, motive element → motive (.array element rank))
    (nullable : ∀ inner, motive inner → motive (.nullable inner))
    (pointer : ∀ inner, motive inner → motive (.pointer inner))
    (tuple : ∀ elements, (∀ type ∈ elements, motive type) → motive (.tuple elements))
    (unresolved : ∀ text, motive (.unresolved text))
    (type : TypeRef) : motive (table.resolve scope type) := by
  induction type using TypeRef.inductionOn with
  | named aliasName segments ih =>
      rw [resolve]
      obtain ⟨word, found⟩ | ⟨path, standsFor⟩ := table.resolveName_cases scope
        ⟨aliasName, segments⟩ (table.resolveArguments scope segments)
      · exact parameter word _ found
      · rw [standsFor]
        refine named path _ fun argument member => ?_
        rw [resolveArguments_eq_flatMap] at member
        obtain ⟨segment, listed, inside⟩ := List.mem_flatMap.mp member
        obtain ⟨type, given, rfl⟩ := List.mem_map.mp inside
        exact ih segment listed type given
  | array element rank ih => exact array _ rank ih
  | nullable inner ih => exact nullable _ ih
  | pointer inner ih => exact pointer _ ih
  | tuple fields ih =>
      rw [resolve, resolveFields_eq_map]
      exact tuple _ (List.forall_mem_map.mpr ih)
  | verbatim text => exact unresolved text

end Meanings

section OwnParameters
open ResolvedType

/-- A type parameter in scope is one of the method or one of the type, at its place in the list. -/
theorem Scope.typeParameter?_cases {scope : Scope} {word : String} {type : ResolvedType}
    (found : scope.typeParameter? word = some type) :
    (∃ ordinal, type = .parameter .method ordinal word) ∨
      ∃ ordinal, scope.typeParameters.idxOf? word = some ordinal ∧
        type = .parameter .type ordinal word := by
  unfold typeParameter? at found
  split at found
  · exact .inl ⟨_, (Option.some.inj found).symm⟩
  · obtain ⟨ordinal, here, rfl⟩ := Option.map_eq_some_iff.mp found
    exact .inr ⟨ordinal, here, rfl⟩

theorem ResolvedType.substitute_of_typeParameter? {scope : Scope} {word : String}
    {type : ResolvedType} (h : scope.typeParameter? word = some type) :
    type.substitute (parametersOf scope.typeParameters) = type := by
  obtain ⟨ordinal, rfl⟩ | ⟨ordinal, found, rfl⟩ := Scope.typeParameter?_cases h
  · rfl
  · obtain ⟨inside, here, _⟩ := List.idxOf?_eq_some_iff.mp found
    simp [substitute, parametersOf, inside, here]

/-- The type parameters of the innermost type, put for themselves, change no resolved type. -/
theorem TypeTable.substitute_resolve (table : TypeTable) (scope : Scope) (type : TypeRef) :
    (table.resolve scope type).substitute (parametersOf scope.typeParameters) =
      table.resolve scope type := by
  have kept {types : List ResolvedType}
      (each : ∀ type ∈ types, type.substitute (parametersOf scope.typeParameters) = type) :
      substituteEach (parametersOf scope.typeParameters) types = types := by
    rw [substituteEach_eq_map, List.map_congr_left each, List.map_id']
  refine table.resolve_induction
    (motive := fun type => type.substitute (parametersOf scope.typeParameters) = type)
    ?_ ?_ ?_ ?_ ?_ ?_ ?_ type
  · intro word type found
    exact substitute_of_typeParameter? found
  · intro path arguments ih
    rw [substitute, kept ih]
  · intro element rank ih
    rw [substitute, ih]
  · intro inner ih
    rw [substitute, ih]
  · intro inner ih
    rw [substitute, ih]
  · intro elements ih
    rw [substitute, kept ih]
  · intro text
    rfl

end OwnParameters

namespace TypeTable

/-- The key under which a declared type is known. -/
def declaredKey (entry : Site × TypeDecl) : String :=
  lookupKey (declaredPath entry.1 entry.2) entry.2.arity

theorem ofFiles_eq_foldl (files : List SourceFile) :
    ofFiles files =
      (files.flatMap SourceFile.typeSites).foldl
        (fun table entry => table.addDeclaration entry.1 entry.2) initial :=
  List.foldl_flatMap.symm

theorem mem_interfaces_foldl (entries : List (Site × TypeDecl)) (table : TypeTable)
    (key : String) (known : DeclaredInterface) :
    (key, known) ∈ (entries.foldl (fun table entry => table.addDeclaration entry.1 entry.2)
        table).interfaces ↔
      (key, known) ∈ table.interfaces ∨
        ∃ entry ∈ entries, entry.2.kind = .interface ∧ key = declaredKey entry ∧
          known = ⟨entry.2, .ofSite entry.1⟩ := by
  induction entries generalizing table with
  | nil => simp
  | cons entry rest ih =>
      rw [List.foldl_cons, ih]
      by_cases isInterface : entry.2.kind = .interface
      · simp [addDeclaration, isInterface, declaredKey, or_assoc, or_left_comm]
      · simp [addDeclaration, isInterface]

theorem mem_interfaces_ofFiles (files : List SourceFile) (key : String)
    (known : DeclaredInterface) :
    (key, known) ∈ (ofFiles files).interfaces ↔
      ∃ file ∈ files, ∃ entry ∈ file.typeSites, entry.2.kind = .interface ∧
        key = declaredKey entry ∧ known = ⟨entry.2, .ofSite entry.1⟩ := by
  have none : (key, known) ∉ initial.interfaces := List.not_mem_nil
  rw [ofFiles_eq_foldl, mem_interfaces_foldl]
  simp only [none, false_or, List.mem_flatMap]
  constructor
  · rintro ⟨entry, ⟨file, listed, member⟩, rest⟩
    exact ⟨file, listed, entry, member, rest⟩
  · rintro ⟨file, listed, entry, member, rest⟩
    exact ⟨entry, ⟨file, listed, member⟩, rest⟩

/-- An interface that shares its key with no other is found under it. -/
theorem lookup_interfaces_ofFiles {files : List SourceFile} {file : SourceFile}
    {entry : Site × TypeDecl} (listed : file ∈ files) (member : entry ∈ file.typeSites)
    (isInterface : entry.2.kind = .interface)
    (unique : ∀ file ∈ files, ∀ other ∈ file.typeSites, other.2.kind = .interface →
      declaredKey other = declaredKey entry → other = entry) :
    (ofFiles files).interfaces.lookup (declaredKey entry) = some ⟨entry.2, .ofSite entry.1⟩ := by
  have registered : (declaredKey entry, ⟨entry.2, .ofSite entry.1⟩) ∈ (ofFiles files).interfaces :=
    (mem_interfaces_ofFiles ..).mpr ⟨file, listed, entry, member, isInterface, rfl, rfl⟩
  have found : ((ofFiles files).interfaces.lookup (declaredKey entry)).isSome = true :=
    List.lookup_isSome_iff.mpr ⟨_, registered, beq_self_eq_true _⟩
  obtain ⟨known, here⟩ := Option.isSome_iff_exists.mp found
  obtain ⟨front, back, split, _⟩ := List.lookup_eq_some_iff.mp here
  have inside : (declaredKey entry, known) ∈ (ofFiles files).interfaces := by simp [split]
  obtain ⟨otherFile, otherListed, other, otherMember, otherKind, sameKey, rfl⟩ :=
    (mem_interfaces_ofFiles ..).mp inside
  rw [here, unique otherFile otherListed other otherMember otherKind sameKey.symm]

end TypeTable
end InterfaceGen
