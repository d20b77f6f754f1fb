import InterfaceGen.Proofs.DeclaredInterfaces
import InterfaceGen.Proofs.NameLookup
import InterfaceGen.Proofs.PrintedTypes

/-!
The written form of resolved types, read again. A resolved type is written like a type reference:
its path is the name, all arguments stand at the last word, and a type with a keyword is that
keyword. Read and resolved where nothing is in scope, this reference gives the type back. A name
that resolves to nothing known is written as it stands exactly if it has that form already, that is
without an alias and with arguments at its last segment only.
-/

namespace InterfaceGen

namespace QualName

/-- The segments of a path with the type arguments at its last word. -/
def dottedSegments (arguments : List TypeRef) : List String → List Segment
  | [] => []
  | [word] => [⟨word, arguments⟩]
  | word :: next :: rest => ⟨word, []⟩ :: dottedSegments arguments (next :: rest)

/-- A path as a name, with the type arguments at its last word. -/
def dotted (path : List String) (arguments : List TypeRef) : QualName :=
  ⟨none, dottedSegments arguments path⟩

theorem words_dotted (path : List String) (arguments : List TypeRef) :
    (dotted path arguments).words = path := by
  change (dottedSegments arguments path).map Segment.word = path
  fun_induction dottedSegments arguments path with
  | case1 | case2 => rfl
  | case3 word next rest ih => rw [List.map_cons, ih]

theorem arguments_dotted {path : List String} (nonempty : path ≠ []) (arguments : List TypeRef) :
    (dotted path arguments).arguments = arguments := by
  change (dottedSegments arguments path).flatMap Segment.arguments = arguments
  fun_induction dottedSegments arguments path with
  | case1 => exact absurd rfl nonempty
  | case2 word => simp
  | case3 word next rest ih => simpa using ih (List.cons_ne_nil next rest)

theorem render_dotted {path : List String} (nonempty : path ≠ []) (arguments : List TypeRef) :
    (dotted path arguments).render =
      Text.separated "." path ++ Text.angleList (arguments.map TypeRef.render) := by
  rw [dotted, QualName.render, Segment.renderEach_eq_map]
  fun_induction dottedSegments arguments path with
  | case1 => exact absurd rfl nonempty
  | case2 word => simp [Segment.render, Text.separated]
  | case3 word next rest ih =>
      have later := ih (List.cons_ne_nil next rest)
      have filled : (dottedSegments arguments (next :: rest)).map Segment.render ≠ [] := by
        cases rest <;> simp [dottedSegments]
      have first : Segment.render ⟨word, []⟩ = word := by simp [Segment.render, Text.angleList]
      rw [List.map_cons, first, ← List.singleton_append,
        Text.separated_append "." (List.cons_ne_nil word []) filled, later]
      simp only [Text.separated, String.append_assoc]

theorem wellFormed_dotted {path : List String} (nonempty : path ≠ [])
    (words : ∀ word ∈ path, Text.isWord word = true) {arguments : List TypeRef}
    (types : ∀ type ∈ arguments, type.WellFormed) :
    (TypeRef.named (dotted path arguments)).WellFormed := by
  have filled : (dotted path arguments).words ≠ [] := by rwa [words_dotted]
  refine .named ?_ (by simp) ?_ ?_
  · simpa [QualName.words, dotted] using filled
  · intro segment listed
    have inside : segment.word ∈ (dotted path arguments).words := List.mem_map_of_mem listed
    rw [words_dotted] at inside
    exact words _ inside
  · intro segment listed type given
    have inside : type ∈ (dotted path arguments).arguments :=
      List.mem_flatMap.mpr ⟨segment, listed, given⟩
    rw [arguments_dotted nonempty] at inside
    exact types type inside

theorem dottedSegments_eq_iff (segments : List Segment) :
    dottedSegments (segments.flatMap Segment.arguments) (segments.map Segment.word) = segments ↔
      ∀ segment ∈ segments.dropLast, segment.arguments = [] := by
  induction segments with
  | nil => simp [dottedSegments]
  | cons segment rest ih =>
      obtain ⟨word, arguments⟩ := segment
      cases rest with
      | nil => simp [dottedSegments]
      | cons next later =>
          rw [List.dropLast_cons_cons, List.forall_mem_cons, ← ih]
          simp only [List.map_cons, List.flatMap_cons, dottedSegments, List.cons.injEq,
            Segment.mk.injEq, true_and]
          constructor
          · rintro ⟨rfl, same⟩
            exact ⟨rfl, same⟩
          · rintro ⟨rfl, same⟩
            exact ⟨rfl, same⟩

/-- A name is the dotted form of its words and arguments if it has no alias, and no arguments before
its last segment. -/
theorem eq_dotted_iff (name : QualName) :
    name = dotted name.words name.arguments ↔
      name.aliasName = none ∧ ∀ segment ∈ name.segments.dropLast, segment.arguments = [] := by
  obtain ⟨aliasName, segments⟩ := name
  rw [← dottedSegments_eq_iff]
  simp only [dotted, QualName.mk.injEq]
  exact and_congr_right fun _ => eq_comm

theorem dotted_ne_simple {path : List String} (nonempty : path ≠ []) {arguments : List TypeRef}
    (compound : ∀ word, path = [word] → arguments ≠ []) (word : String) :
    dotted path arguments ≠ .simple word := by
  intro single
  have words : path = [word] := by
    rw [← words_dotted path arguments, single]
    rfl
  have none : arguments = [] := by
    rw [← arguments_dotted nonempty arguments, single]
    rfl
  exact compound word words none

end QualName

theorem TypeRef.wellFormed_simple {word : String} (identifier : Text.isWord word = true) :
    (TypeRef.simple word).WellFormed :=
  QualName.wellFormed_dotted (List.cons_ne_nil word []) (by simpa using identifier) (by simp)

section Keywords

/-- A keyword and the name of its type determine each other. -/
theorem find?_keywordTypes : ∀ entry ∈ keywordTypes,
    keywordTypes.find? (·.1 == entry.1) = some entry ∧
      keywordTypes.find? (·.2 == entry.2) = some entry ∧ Text.isWord entry.1 = true := by
  decide +kernel

namespace ResolvedType

theorem ofKeyword?_eq_some_iff {keyword : String} {type : ResolvedType} :
    ofKeyword? keyword = some type ↔
      ∃ name, (keyword, name) ∈ keywordTypes ∧ type = .named ["System", name] [] := by
  constructor
  · intro found
    obtain ⟨⟨word, name⟩, here, rfl⟩ := Option.map_eq_some_iff.mp found
    have same : word = keyword := by simpa using List.find?_some here
    exact ⟨name, same ▸ List.mem_of_find?_eq_some here, rfl⟩
  · rintro ⟨name, listed, rfl⟩
    rw [ofKeyword?, (find?_keywordTypes _ listed).1, Option.map_some]

theorem keyword?_eq_some_iff {path : List String} {keyword : String} :
    keyword? path = some keyword ↔
      ∃ name, (keyword, name) ∈ keywordTypes ∧ path = ["System", name] := by
  constructor
  · intro found
    unfold keyword? at found
    split at found
    · rename_i name
      obtain ⟨⟨word, other⟩, here, rfl⟩ := Option.map_eq_some_iff.mp found
      have same : other = name := by simpa using List.find?_some here
      exact ⟨name, same ▸ List.mem_of_find?_eq_some here, rfl⟩
    · cases found
  · rintro ⟨name, listed, rfl⟩
    rw [keyword?, (find?_keywordTypes _ listed).2.1, Option.map_some]

end ResolvedType

/-- Every table knows the types with a keyword. -/
theorem TypeTable.Built.knows_system {table : TypeTable} (built : table.Built)
    {keyword name : String} (listed : (keyword, name) ∈ keywordTypes) :
    table.knows ["System", name] 0 = true := by
  refine List.contains_iff_mem.mpr ?_
  induction built with
  | initial =>
      have key : lookupKey ["System", name] 0 = "System." ++ name := by
        simp [lookupKey, arityMark, Text.separated]
      rw [key]
      exact List.mem_map.mpr ⟨_, listed, rfl⟩
  | addType _ other arity ih => exact List.mem_cons_of_mem _ ih
  | addFile _ file ih => exact (mem_known_foldl ..).mpr (.inl ih)

end Keywords

namespace ResolvedType

/-- The name by which a named type is written: its keyword, if it has one and no arguments. -/
def writtenName (path : List String) : List TypeRef → QualName
  | [] => ((keyword? path).map QualName.simple).getD (.dotted path [])
  | first :: rest => .dotted path (first :: rest)

mutual

/-- The reference that a resolved type is written as. -/
def toRef : ResolvedType → TypeRef
  | .named path arguments => .named (writtenName path (toRefEach arguments))
  | .parameter _ _ name => .simple name
  | .array element rank => .array (toRef element) rank
  | .nullable inner => .nullable (toRef inner)
  | .pointer inner => .pointer (toRef inner)
  | .tuple elements => .tuple ((toRefEach elements).map (⟨·, none⟩))
  | .unresolved text => .verbatim text

def toRefEach : List ResolvedType → List TypeRef
  | [] => []
  | type :: rest => toRef type :: toRefEach rest

end

@[simp] theorem toRefEach_eq_map (types : List ResolvedType) :
    toRefEach types = types.map toRef := by
  induction types with
  | nil => rfl
  | cons type rest ih => simp [toRefEach, ih]

theorem writtenName_cases (path : List String) (arguments : List TypeRef) :
    (∃ keyword name, writtenName path arguments = .simple keyword ∧
        (keyword, name) ∈ keywordTypes ∧ path = ["System", name] ∧ arguments = []) ∨
      writtenName path arguments = .dotted path arguments := by
  cases arguments with
  | cons first rest => exact .inr rfl
  | nil =>
      cases found : keyword? path with
      | none => exact .inr (by simp [writtenName, found])
      | some keyword =>
          obtain ⟨name, listed, here⟩ := keyword?_eq_some_iff.mp found
          exact .inl ⟨keyword, name, by simp [writtenName, found], listed, here, rfl⟩

/-- A named type is written like its name when its arguments are. -/
theorem render_named {path : List String} (nonempty : path ≠ []) {types : List ResolvedType}
    {references : List TypeRef} (each : types.map render = references.map TypeRef.render) :
    (named path types).render = (writtenName path references).render := by
  cases types with
  | nil =>
      obtain rfl := List.map_eq_nil_iff.mp each.symm
      cases found : keyword? path with
      | none => simp [render, writtenName, found, QualName.render_dotted nonempty, Text.angleList]
      | some keyword => simp [render, writtenName, found, QualName.render_simple]
  | cons type rest =>
      cases references with
      | nil => cases each
      | cons first others =>
          rw [writtenName, QualName.render_dotted nonempty, ← each, render, renderEach_eq_map]
          rfl

theorem wellFormed_writtenName {path : List String} (nonempty : path ≠ [])
    (words : ∀ word ∈ path, Text.isWord word = true) {arguments : List TypeRef}
    (types : ∀ type ∈ arguments, type.WellFormed) :
    (TypeRef.named (writtenName path arguments)).WellFormed := by
  obtain ⟨keyword, name, written, listed, -⟩ | written := writtenName_cases path arguments
  · rw [written]
    exact TypeRef.wellFormed_simple (find?_keywordTypes _ listed).2.2
  · rw [written]
    exact QualName.wellFormed_dotted nonempty words types

/-- A type without type parameters and without unread text, whose paths are made of identifiers,
with at least one dimension in each array and at least two elements in each tuple. No path is a
keyword alone, since that would be read as the type of the keyword. -/
inductive Concrete : ResolvedType → Prop where
  | named {path : List String} {arguments : List ResolvedType} (nonempty : path ≠ [])
      (words : ∀ word ∈ path, Text.isWord word = true)
      (noKeyword : ∀ word, path = [word] → arguments = [] → ofKeyword? word = none)
      (each : ∀ type ∈ arguments, Concrete type) : Concrete (.named path arguments)
  | array {element : ResolvedType} {rank : Nat} (inner : Concrete element) (positive : 1 ≤ rank) :
      Concrete (.array element rank)
  | nullable {type : ResolvedType} (inner : Concrete type) : Concrete (.nullable type)
  | pointer {type : ResolvedType} (inner : Concrete type) : Concrete (.pointer type)
  | tuple {elements : List ResolvedType} (several : 2 ≤ elements.length)
      (each : ∀ type ∈ elements, Concrete type) : Concrete (.tuple elements)

theorem Concrete.wellFormed_toRef {type : ResolvedType} (h : type.Concrete) :
    type.toRef.WellFormed := by
  induction h with
  | named nonempty words _ _ ih =>
      rw [toRef, toRefEach_eq_map]
      exact wellFormed_writtenName nonempty words (List.forall_mem_map.mpr ih)
  | array _ positive ih => exact .array ih positive
  | nullable _ ih => exact .nullable ih
  | pointer _ ih => exact .pointer ih
  | tuple several _ ih =>
      rw [toRef, toRefEach_eq_map]
      exact .tuple (by simpa using several) (by simpa using ih) (by simp)

theorem Concrete.render_toRef {type : ResolvedType} (h : type.Concrete) :
    type.toRef.render = type.render := by
  induction h with
  | @named path arguments nonempty _ _ _ ih =>
      rw [toRef, TypeRef.render, toRefEach_eq_map]
      refine (render_named nonempty ?_).symm
      rw [List.map_map]
      exact List.map_congr_left fun type listed => (ih type listed).symm
  | array _ _ ih => rw [toRef, TypeRef.render, render, ih]
  | nullable _ ih | pointer _ ih => rw [toRef, TypeRef.render, render, ih]
  | @tuple elements _ _ ih =>
      have each : (elements.map toRef).map (fun type => TupleField.render ⟨type, none⟩) =
          elements.map render := by
        rw [List.map_map]
        exact List.map_congr_left ih
      rw [toRef, TypeRef.render, render, toRefEach_eq_map, renderEach_eq_map,
        TupleField.renderEach_eq_map, List.map_map, ← each]
      rfl

end ResolvedType

namespace TypeTable
open ResolvedType

theorem resolve_keyword_empty (table : TypeTable) {keyword name : String}
    (listed : (keyword, name) ∈ keywordTypes) :
    table.resolve .empty (.simple keyword) = .named ["System", name] [] := by
  rw [resolve_simple, ofKeyword?_eq_some_iff.mpr ⟨name, listed, rfl⟩]
  rfl

theorem resolve_dotted_empty (table : TypeTable) {path : List String} (nonempty : path ≠ [])
    {arguments : List TypeRef}
    (noKeyword : ∀ word, path = [word] → arguments = [] → ofKeyword? word = none) :
    table.resolve .empty (.named (.dotted path arguments)) =
      .named path (arguments.map (table.resolve .empty)) := by
  have words : table.standsFor .empty (.dotted path arguments) = path := by
    rw [QualName.dotted, standsFor_empty]
    exact QualName.words_dotted path arguments
  by_cases single : ∃ word, path = [word] ∧ arguments = []
  · obtain ⟨word, rfl, rfl⟩ := single
    have plain : table.resolve .empty (.simple word) =
        .named (table.standsFor .empty (.simple word)) [] := by
      rw [resolve_simple, noKeyword word rfl rfl]
      rfl
    exact plain.trans (congrArg (ResolvedType.named · []) words)
  · have compound := QualName.dotted_ne_simple nonempty fun word here none =>
      single ⟨word, here, none⟩
    rw [table.resolve_named .empty compound, words, QualName.arguments_dotted nonempty]

theorem resolve_toRef (table : TypeTable) {type : ResolvedType} (h : type.Concrete) :
    table.resolve .empty type.toRef = type := by
  have back {types : List ResolvedType}
      (each : ∀ type ∈ types, table.resolve .empty type.toRef = type) :
      (types.map toRef).map (table.resolve .empty) = types := by
    rw [List.map_map]
    exact (List.map_congr_left each).trans (List.map_id' types)
  induction h with
  | @named path arguments nonempty words noKeyword _ ih =>
      rw [toRef, toRefEach_eq_map]
      obtain ⟨keyword, name, written, listed, rfl, none⟩ | written :=
        writtenName_cases path (arguments.map toRef)
      · obtain rfl := List.map_eq_nil_iff.mp none
        rw [written]
        exact table.resolve_keyword_empty listed
      · have plain : ∀ word, path = [word] → arguments.map toRef = [] → ofKeyword? word = none :=
          fun word here none => noKeyword word here (List.map_eq_nil_iff.mp none)
        rw [written, table.resolve_dotted_empty nonempty plain, back ih]
  | array _ _ ih => rw [toRef, resolve, ih]
  | nullable _ ih | pointer _ ih => rw [toRef, resolve, ih]
  | @tuple elements _ _ ih =>
      rw [toRef, resolve, toRefEach_eq_map, resolveFields_eq_map, List.map_map]
      exact congrArg ResolvedType.tuple (back ih)

/-- The written form of a concrete type is read without error, and what is read stands for the type
itself wherever nothing is in scope. -/
theorem resolve_parse_render (table : TypeTable) (type : ResolvedType) (concrete : type.Concrete) :
    ∃ reference, TypeRef.parse type.render = .ok reference ∧
      table.resolve .empty reference = type := by
  refine ⟨type.toRef, ?_, table.resolve_toRef concrete⟩
  rw [← concrete.render_toRef]
  exact TypeRef.parse_render_of_wellFormed concrete.wellFormed_toRef

/-- A generic type over a nullable array and a tuple, with two keywords inside. -/
def lookupOfPairs : ResolvedType :=
  .named ["Data", "Lookup"]
    [.array (.nullable (.named ["System", "Int32"] [])) 2,
      .tuple [.pointer (.named ["Item"] []), .named ["System", "String"] []]]

theorem concrete_lookupOfPairs : lookupOfPairs.Concrete := by
  have plain (path : List String) (nonempty : path ≠ [])
      (words : ∀ word ∈ path, Text.isWord word = true)
      (noKeyword : ∀ word, path = [word] → ofKeyword? word = none) :
      (ResolvedType.named path []).Concrete :=
    .named nonempty words (fun word here _ => noKeyword word here) (by simp)
  have int := plain ["System", "Int32"] (by simp) (by decide) (by simp)
  have string := plain ["System", "String"] (by simp) (by decide) (by simp)
  have item := plain ["Item"] (by simp) (by decide) (by rintro word ⟨⟩; rfl)
  have pair : (ResolvedType.tuple [.pointer (.named ["Item"] []),
      .named ["System", "String"] []]).Concrete :=
    .tuple (by simp) (by simpa using ⟨.pointer item, string⟩)
  refine .named (by simp) (by decide) (by simp) ?_
  simpa using ⟨.array (.nullable int) (by simp), pair⟩

theorem resolve_parse_lookupOfPairs :
    lookupOfPairs.Concrete ∧
      ∃ reference, TypeRef.parse "Data.Lookup<int?[,], (Item*, string)>" = .ok reference ∧
        (initial.addType "Data.Lookup" 2).resolve .empty reference = lookupOfPairs := by
  have written : lookupOfPairs.render = "Data.Lookup<int?[,], (Item*, string)>" := by
    decide +kernel
  have read := resolve_parse_render (initial.addType "Data.Lookup" 2) _ concrete_lookupOfPairs
  rw [written] at read
  exact ⟨concrete_lookupOfPairs, read⟩

end TypeTable

section Unresolvable
open ResolvedType

/-- The reference is a keyword that names a type. -/
def TypeRef.IsKeyword (type : TypeRef) : Prop :=
  ∃ word, type = .simple word ∧ (ofKeyword? word).isSome = true

theorem TypeRef.IsKeyword.wellFormed {type : TypeRef} (h : type.IsKeyword) : type.WellFormed := by
  obtain ⟨word, rfl, found⟩ := h
  obtain ⟨_, here⟩ := Option.isSome_iff_exists.mp found
  obtain ⟨name, listed, -⟩ := ofKeyword?_eq_some_iff.mp here
  exact wellFormed_simple (find?_keywordTypes _ listed).2.2

theorem ResolvedType.render_of_typeParameter? {scope : Scope} {word : String} {type : ResolvedType}
    (found : scope.typeParameter? word = some type) : type.render = word := by
  obtain ⟨ordinal, rfl⟩ | ⟨ordinal, _, rfl⟩ := Scope.typeParameter?_cases found
  · rfl
  · rfl

/-- A keyword is written as it stands, also where it is the name of a type parameter. -/
theorem TypeTable.render_resolve_keyword (table : TypeTable) (scope : Scope) {type : TypeRef}
    (h : type.IsKeyword) : (table.resolve scope type).render = type.render := by
  obtain ⟨word, rfl, found⟩ := h
  have written : (TypeRef.simple word).render = word := by
    rw [TypeRef.simple, TypeRef.render, QualName.render_simple]
  rw [resolve_simple, written]
  cases parameter : scope.typeParameter? word with
  | some type => exact render_of_typeParameter? parameter
  | none =>
      obtain ⟨type, here⟩ := Option.isSome_iff_exists.mp found
      obtain ⟨name, listed, rfl⟩ := ofKeyword?_eq_some_iff.mp here
      have back : keyword? ["System", name] = some word :=
        keyword?_eq_some_iff.mpr ⟨name, listed, rfl⟩
      rw [here]
      simp [render, back]

/-- The name is no type parameter and no keyword, its alias is that of no using directive, and none
of its candidates is known. -/
structure TypeTable.Unresolvable (table : TypeTable) (scope : Scope) (name : QualName) : Prop where
  foreign : ∀ aliasName ∈ name.aliasName, scope.aliasTarget? aliasName = none
  noParameter : ∀ word, name = .simple word → scope.typeParameter? word = none
  noKeyword : ∀ word, name = .simple word → ofKeyword? word = none
  unknown : ∀ path ∈ scope.candidates name.aliasName name.words,
    table.knows path name.lastArity = false

namespace TypeTable.Unresolvable

variable {table : TypeTable} {scope : Scope} {name : QualName}

theorem standsFor_eq (h : table.Unresolvable scope name) :
    table.standsFor scope name = name.words := by
  obtain ⟨aliasName, segments⟩ := name
  cases aliasName with
  | none => exact standsFor_of_unknown h.unknown
  | some aliasName => exact table.standsFor_of_foreign (h.foreign aliasName rfl) segments

theorem resolve_eq (h : table.Unresolvable scope name) :
    table.resolve scope (.named name) =
      .named name.words (name.arguments.map (table.resolve scope)) := by
  by_cases single : ∃ word, name = .simple word
  · obtain ⟨word, rfl⟩ := single
    have kept := table.resolve_simple scope word
    rw [h.noParameter word rfl, h.noKeyword word rfl, h.standsFor_eq] at kept
    exact kept
  · have compound : ∀ word, name ≠ .simple word := fun word here => single ⟨word, here⟩
    rw [table.resolve_named scope compound, h.standsFor_eq]

/-- The name is written through its words and arguments only. -/
theorem render_resolve (h : table.Unresolvable scope name) (nonempty : name.segments ≠ [])
    (keywords : ∀ type ∈ name.arguments, type.IsKeyword) :
    (table.resolve scope (.named name)).render =
      (writtenName name.words name.arguments).render := by
  rw [h.resolve_eq]
  refine render_named (by simpa [QualName.words] using nonempty) ?_
  rw [List.map_map]
  exact List.map_congr_left fun type listed =>
    table.render_resolve_keyword scope (keywords type listed)

/-- A path with a keyword is known, so it cannot be the words of such a name. -/
theorem writtenName_eq (h : table.Unresolvable scope name) (built : table.Built)
    (noAlias : name.aliasName = none)
    (inner : ∀ segment ∈ name.segments.dropLast, segment.arguments = []) :
    writtenName name.words name.arguments = name := by
  obtain ⟨keyword, system, -, listed, words, none⟩ | written :=
    writtenName_cases name.words name.arguments
  · have candidate : name.words ∈ scope.candidates name.aliasName name.words := by
      rw [noAlias]
      exact scope.words_mem_plainCandidates name.words
    have unknown := h.unknown _ candidate
    rw [words, QualName.lastArity_of_arguments none, built.knows_system listed] at unknown
    cases unknown
  · rw [written]
    exact ((QualName.eq_dotted_iff name).mpr ⟨noAlias, inner⟩).symm

end TypeTable.Unresolvable

theorem TypeRef.eq_of_render_eq {type other : TypeRef} (formed : type.WellFormed)
    (otherFormed : other.WellFormed) (same : type.render = other.render) : type = other := by
  have read := parse_render_of_wellFormed formed
  rw [same, parse_render_of_wellFormed otherFormed] at read
  exact (Except.ok.inj read).symm

/-- A name that resolves to nothing known is written as it stands exactly if it has no alias, and no
arguments before its last segment. -/
theorem TypeTable.render_resolve_unresolvable_iff (table : TypeTable) (built : table.Built)
    (scope : Scope) {text : String} {name : QualName}
    (read : TypeRef.parse text = .ok (.named name))
    (keywords : ∀ type ∈ name.arguments, type.IsKeyword)
    (unresolvable : table.Unresolvable scope name) :
    (table.resolve scope (.named name)).render = (TypeRef.named name).render ↔
      name.aliasName = none ∧ ∀ segment ∈ name.segments.dropLast, segment.arguments = [] := by
  have formed := TypeRef.wellFormed_of_parse read
  obtain ⟨nonempty, words⟩ : name.segments ≠ [] ∧ ∀ word ∈ name.words, Text.isWord word = true := by
    cases formed with
    | named nonempty _ words _ => exact ⟨nonempty, List.forall_mem_map.mpr words⟩
  rw [unresolvable.render_resolve nonempty keywords]
  constructor
  · intro same
    -- both texts are those of well-formed references, so the references are equal
    have filled : name.words ≠ [] := by simpa [QualName.words] using nonempty
    have writtenFormed := wellFormed_writtenName filled words fun type listed =>
      (keywords type listed).wellFormed
    have equal : writtenName name.words name.arguments = name :=
      TypeRef.named.inj (TypeRef.eq_of_render_eq writtenFormed formed same)
    obtain ⟨keyword, system, written, listed, -⟩ | written :=
      writtenName_cases name.words name.arguments
    · -- a keyword would be the name itself
      have noKeyword := unresolvable.noKeyword keyword (equal.symm.trans written)
      rw [ofKeyword?_eq_some_iff.mpr ⟨system, listed, rfl⟩] at noKeyword
      cases noKeyword
    · exact (QualName.eq_dotted_iff name).mp (equal.symm.trans written)
  · rintro ⟨noAlias, inner⟩
    rw [unresolvable.writtenName_eq built noAlias inner]
    rfl

/-- A name with arguments at its last segment, of which nothing is known. -/
def missingLookup : QualName :=
  ⟨none, [⟨"Missing", []⟩, ⟨"Lookup", [.simple "int", .simple "string"]⟩]⟩

theorem TypeTable.unresolvable_missingLookup :
    initial.Unresolvable jsonScope missingLookup where
  foreign := by simp [missingLookup]
  noParameter := by simp [missingLookup, QualName.simple]
  noKeyword := by simp [missingLookup, QualName.simple]
  unknown := by decide +kernel

theorem TypeTable.render_resolve_missingLookup :
    TypeRef.parse "Missing.Lookup<int,string>" = .ok (.named missingLookup) ∧
      (initial.resolve jsonScope (.named missingLookup)).render =
        "Missing.Lookup<int, string>" := by
  have read : TypeRef.parse "Missing.Lookup<int,string>" = .ok (.named missingLookup) := rfl
  have keywords : ∀ type ∈ missingLookup.arguments, type.IsKeyword := by
    simp only [missingLookup, QualName.arguments, List.flatMap_cons, List.flatMap_nil,
      List.append_nil, List.nil_append, List.forall_mem_cons]
    exact ⟨⟨"int", rfl, by decide⟩, ⟨"string", rfl, by decide⟩, by simp⟩
  have kept := (render_resolve_unresolvable_iff initial .initial jsonScope read keywords
    unresolvable_missingLookup).mpr ⟨rfl, by decide +kernel⟩
  exact ⟨read, kept.trans (by decide +kernel)⟩

/-- An unknown name after `global::`. -/
def missingGlobal : QualName :=
  ⟨some "global", [⟨"Missing", []⟩]⟩

/-- An unknown name with an argument before its last segment. -/
def missingInner : QualName :=
  ⟨none, [⟨"Outer", [.simple "int"]⟩, ⟨"Missing", []⟩]⟩

theorem TypeTable.unresolvable_missingGlobal : initial.Unresolvable .empty missingGlobal where
  foreign := by simp [missingGlobal, Scope.empty, Scope.aliasTarget?]
  noParameter := by simp [missingGlobal, QualName.simple]
  noKeyword := by simp [missingGlobal, QualName.simple]
  unknown := by decide +kernel

theorem TypeTable.unresolvable_missingInner : initial.Unresolvable .empty missingInner where
  foreign := by simp [missingInner]
  noParameter := by simp [missingInner, QualName.simple]
  noKeyword := by simp [missingInner, QualName.simple]
  unknown := by decide +kernel

/-- An unknown name loses its alias, and arguments before its last segment move there. So neither a
name with an alias nor one with such arguments is sure to be written as it stands. -/
theorem TypeTable.render_resolve_unresolvable_ne :
    let WrittenAsItStands (name : QualName) : Prop :=
      ∀ (table : TypeTable) (scope : Scope) (text : String), table.Built →
        TypeRef.parse text = .ok (.named name) → (∀ type ∈ name.arguments, type.IsKeyword) →
        table.Unresolvable scope name →
        (table.resolve scope (.named name)).render = (TypeRef.named name).render
    ¬ WrittenAsItStands missingGlobal ∧ ¬ WrittenAsItStands missingInner := by
  constructor
  · intro kept
    have same := kept initial .empty "global::Missing" .initial rfl
      (by simp [missingGlobal, QualName.arguments]) unresolvable_missingGlobal
    exact absurd same (by decide +kernel)
  · intro kept
    have keywords : ∀ type ∈ missingInner.arguments, type.IsKeyword := by
      rintro type (_ | ⟨_, ⟨⟩⟩)
      exact ⟨"int", rfl, by decide⟩
    have same := kept initial .empty "Outer<int>.Missing" .initial rfl keywords
      unresolvable_missingInner
    exact absurd same (by decide +kernel)

end Unresolvable
end InterfaceGen
