import InterfaceGen.Proofs.LinesAndBlanks
import InterfaceGen.Proofs.NestedInterfaces

/-!
What a table knows after any additions. Keys are texts, made in one way for a declared type, in
another for a type given by name, and in a third for a type that is asked for. Without arity marks
in names they all stand for the pair of the dotted path and the arity, and are equal only if the
pairs are. So a table knows the pairs that were added and those it began with, and it has an
interface under a pair if one was declared there.
-/

namespace InterfaceGen
namespace Text

theorem pieces_eq_splitOnP (isCut : Char → Bool) (text : List Char) :
    pieces isCut text = text.splitOnP isCut := by
  induction text with
  | nil => rfl
  | cons c rest ih =>
      rw [pieces, List.splitOnP_cons_eq_if_modifyHead, ih]
      split
      · rfl
      · cases cut : rest.splitOnP isCut with
        | nil => exact absurd cut (List.splitOnP_ne_nil isCut rest)
        | cons piece others => rfl

theorem toList_separated (separator : String) (items : List String) :
    (separated separator items).toList = separator.toList.intercalate (items.map String.toList) := by
  fun_induction separated separator items with
  | case1 => rfl
  | case2 item => simp
  | case3 item next rest ih =>
      have more : (next :: rest).map String.toList ≠ [] := by simp
      rw [String.toList_append, String.toList_append, ih]
      exact (List.intercalate_cons_of_ne_nil more).symm

/-- The words between the points of a name. -/
def dottedWords (name : String) : List String :=
  (pieces (· == '.') name.toList).map String.ofList

theorem separated_dottedWords (name : String) : separated "." (dottedWords name) = name := by
  apply String.toList_inj.mp
  have words : (dottedWords name).map String.toList = name.toList.splitOn '.' := by
    rw [dottedWords, pieces_eq_splitOnP]
    simp [List.splitOn, Function.comp_def]
  rw [toList_separated, words]
  exact List.intercalate_splitOn '.'

theorem mem_of_mem_pieces {isCut : Char → Bool} {text piece : List Char}
    (cut : piece ∈ pieces isCut text) {c : Char} (inside : c ∈ piece) : c ∈ text := by
  induction text generalizing piece with
  | nil =>
      obtain rfl := List.mem_singleton.mp cut
      exact inside
  | cons first rest ih =>
      rw [pieces] at cut
      split at cut
      · obtain rfl | later := List.mem_cons.mp cut
        · cases inside
        · exact List.mem_cons_of_mem first (ih later inside)
      · split at cut
        · obtain rfl := List.mem_singleton.mp cut
          exact List.mem_cons.mpr ((List.mem_cons.mp inside).imp_right nofun)
        · rename_i begun others pieces
          rw [pieces] at ih
          obtain rfl | later := List.mem_cons.mp cut
          · exact List.mem_cons.mpr ((List.mem_cons.mp inside).imp_right (ih List.mem_cons_self))
          · exact List.mem_cons_of_mem first (ih (List.mem_cons_of_mem begun later) inside)

theorem mem_of_mem_trim {text : String} {c : Char} (h : c ∈ (trim text).toList) :
    c ∈ text.toList := by
  obtain ⟨before, after, -, -, split⟩ := exists_blanks_around text
  rw [split]
  simp [h]

theorem mem_of_mem_dottedParts {text : List Char} {part : String} (cut : part ∈ dottedParts text)
    {c : Char} (inside : c ∈ part.toList) : c ∈ text := by
  obtain ⟨listed, -⟩ := List.mem_filter.mp cut
  obtain ⟨piece, member, rfl⟩ := List.mem_map.mp listed
  have inPiece := mem_of_mem_trim inside
  rw [String.toList_ofList] at inPiece
  exact mem_of_mem_pieces member inPiece

end Text

namespace Node

/-- The name of a namespace or a type; a file has none here. -/
def name? : Node → Option String
  | .file _ => none
  | .space decl => some decl.name
  | .type decl => some decl.name

end Node

namespace TypeTable

/-- What is added to a table: a type by its dotted name and its arity, or the types of a file. -/
inductive Addition where
  | ofName (name : String) (arity : Nat)
  | ofFile (file : SourceFile)

namespace Addition

def apply (table : TypeTable) : Addition → TypeTable
  | .ofName name arity => table.addType name arity
  | .ofFile file => table.addFile file

/-- The names in an addition: that of the type, or those of the types declared in the file and of
all that is around them. -/
def names : Addition → List String
  | .ofName name _ => [name]
  | .ofFile file => file.typeSites.flatMap fun entry =>
      entry.2.name :: entry.1.above.filterMap (·.node.name?)

/-- The pairs of a dotted path and an arity that an addition makes known. -/
def pairs : Addition → List (String × Nat)
  | .ofName name arity => [(name, arity)]
  | .ofFile file => file.typeSites.map fun entry => (dottedPath entry, entry.2.arity)

/-- The pairs under which an addition declares interfaces. -/
def interfacePairs : Addition → List (String × Nat)
  | .ofName _ _ => []
  | .ofFile file => (file.typeSites.filter fun entry => entry.2.kind = .interface).map fun entry =>
      (dottedPath entry, entry.2.arity)

/-- No name in the addition has an arity mark. -/
def Unmarked (addition : Addition) : Prop :=
  ∀ name ∈ addition.names, arityChar ∉ name.toList

end Addition

def ofAdditions (additions : List Addition) : TypeTable :=
  additions.foldl Addition.apply initial

theorem ofAdditions_concat (additions : List Addition) (addition : Addition) :
    ofAdditions (additions ++ [addition]) = addition.apply (ofAdditions additions) :=
  List.foldl_concat ..

/-- The key of a pair. -/
def pairKey (pair : String × Nat) : String :=
  lookupKey [pair.1] pair.2

theorem lookupKey_eq_pairKey (path : List String) (arity : Nat) :
    lookupKey path arity = pairKey (Text.separated "." path, arity) := rfl

theorem pairKey_eq_iff {pair other : String × Nat} (unmarked : arityChar ∉ pair.1.toList)
    (otherUnmarked : arityChar ∉ other.1.toList) : pairKey pair = pairKey other ↔ pair = other := by
  rw [Prod.ext_iff]
  exact @lookupKey_eq_iff [pair.1] [other.1] pair.2 other.2 unmarked otherUnmarked

/-- The pairs that every table knows. -/
def systemPairs : List (String × Nat) :=
  keywordTypes.map fun entry => ("System." ++ entry.2, 0)

section Unmarked

/-- A declared path is made of parts of the names around the type and of its own. -/
theorem unmarked_dottedPath {entry : Site × TypeDecl}
    (unmarked : ∀ name ∈ entry.2.name :: entry.1.above.filterMap (·.node.name?),
      arityChar ∉ name.toList) :
    arityChar ∉ (dottedPath entry).toList := by
  obtain ⟨own, around⟩ := List.forall_mem_cons.mp unmarked
  have named {node : NumberedNode} (listed : node ∈ entry.1.above.reverse) {name : String}
      (here : node.node.name? = some name) : arityChar ∉ name.toList :=
    around name (List.mem_filterMap.mpr ⟨node, List.mem_reverse.mp listed, here⟩)
  apply arityChar_not_mem_separated
  intro word listed
  simp only [declaredPath, List.mem_append, List.mem_singleton] at listed
  obtain (inNamespace | inContainer) | rfl := listed
  · obtain ⟨decl, found, part⟩ := List.mem_flatMap.mp inNamespace
    obtain ⟨⟨number, node⟩, listed, isNamespace⟩ := List.mem_filterMap.mp found
    cases node with
    | file usings => cases isNamespace
    | type other => cases isNamespace
    | space other =>
        obtain rfl := Option.some.inj isNamespace
        intro marked
        exact named listed rfl (Text.mem_of_mem_dottedParts part marked)
  · obtain ⟨decl, found, rfl⟩ := List.mem_map.mp inContainer
    obtain ⟨⟨number, node⟩, listed, isType⟩ := List.mem_filterMap.mp found
    cases node with
    | file usings => cases isType
    | space other => cases isType
    | type other =>
        obtain rfl := Option.some.inj isType
        exact named listed rfl
  · exact own

theorem Addition.Unmarked.pair {addition : Addition} (h : addition.Unmarked)
    {pair : String × Nat} (given : pair ∈ addition.pairs) : arityChar ∉ pair.1.toList := by
  cases addition with
  | ofName name arity =>
      obtain rfl := List.mem_singleton.mp given
      exact h name (List.mem_singleton_self name)
  | ofFile file =>
      obtain ⟨entry, listed, rfl⟩ := List.mem_map.mp given
      apply unmarked_dottedPath
      intro name member
      exact h name (List.mem_flatMap.mpr ⟨entry, listed, member⟩)

theorem Addition.interfacePairs_subset (addition : Addition) :
    addition.interfacePairs ⊆ addition.pairs := by
  cases addition with
  | ofName name arity => exact List.nil_subset _
  | ofFile file => exact (List.filter_sublist.map _).subset

theorem unmarked_systemPairs : ∀ pair ∈ systemPairs, arityChar ∉ pair.1.toList := by
  decide +kernel

end Unmarked

section Keys

theorem mem_known_apply (addition : Addition) (table : TypeTable) (key : String) :
    key ∈ (addition.apply table).known ↔
      key ∈ table.known ∨ key ∈ addition.pairs.map pairKey := by
  cases addition with
  | ofName name arity =>
      simp [Addition.apply, addType, Addition.pairs, pairKey, or_comm]
  | ofFile file =>
      rw [Addition.apply, addFile, mem_known_foldl]
      simp [Addition.pairs, declaredKey, lookupKey_eq_pairKey, dottedPath]

theorem exists_mem_interfaces_apply (addition : Addition) (table : TypeTable) (key : String) :
    (∃ entry, (key, entry) ∈ (addition.apply table).interfaces) ↔
      (∃ entry, (key, entry) ∈ table.interfaces) ∨ key ∈ addition.interfacePairs.map pairKey := by
  cases addition with
  | ofName name arity => simp [Addition.apply, addType, Addition.interfacePairs]
  | ofFile file =>
      simp only [Addition.apply, addFile, mem_interfaces_foldl, exists_or]
      refine or_congr_right ?_
      constructor
      · rintro ⟨_, entry, listed, isInterface, rfl, rfl⟩
        refine List.mem_map.mpr ⟨_, List.mem_map.mpr ⟨entry, ?_, rfl⟩, rfl⟩
        exact List.mem_filter.mpr ⟨listed, decide_eq_true isInterface⟩
      · intro given
        obtain ⟨_, member, rfl⟩ := List.mem_map.mp given
        obtain ⟨entry, kept, rfl⟩ := List.mem_map.mp member
        obtain ⟨listed, isInterface⟩ := List.mem_filter.mp kept
        exact ⟨_, entry, listed, of_decide_eq_true isInterface, rfl, rfl⟩

/-- A table knows the keys of the pairs it began with and of those that were added. -/
theorem mem_known_ofAdditions (additions : List Addition) (key : String) :
    key ∈ (ofAdditions additions).known ↔
      key ∈ (systemPairs ++ additions.flatMap Addition.pairs).map pairKey := by
  induction additions using List.reverseRecOn with
  | nil =>
      have keys : initial.known = systemPairs.map pairKey := by decide +kernel
      rw [ofAdditions, List.foldl_nil, keys, List.flatMap_nil, List.append_nil]
  | append_singleton additions addition ih =>
      rw [ofAdditions_concat, mem_known_apply, ih]
      simp [or_assoc]

theorem exists_mem_interfaces_ofAdditions (additions : List Addition) (key : String) :
    (∃ entry, (key, entry) ∈ (ofAdditions additions).interfaces) ↔
      key ∈ (additions.flatMap Addition.interfacePairs).map pairKey := by
  induction additions using List.reverseRecOn with
  | nil => simp [ofAdditions, initial]
  | append_singleton additions addition ih =>
      rw [ofAdditions_concat, exists_mem_interfaces_apply, ih]
      simp

/-- Among pairs without arity marks a pair is told by its key. -/
theorem pairKey_mem_map_iff {pairs : List (String × Nat)}
    (each : ∀ other ∈ pairs, arityChar ∉ other.1.toList) (pair : String × Nat)
    (unmarked : arityChar ∉ pair.1.toList) :
    pairKey pair ∈ pairs.map pairKey ↔ pair ∈ pairs := by
  constructor
  · intro listed
    obtain ⟨other, member, same⟩ := List.mem_map.mp listed
    obtain rfl := (pairKey_eq_iff (each other member) unmarked).mp same
    exact member
  · exact List.mem_map_of_mem

end Keys

variable {additions : List Addition}

theorem mem_pairs_iff {name : String} {arity : Nat} :
    (name, arity) ∈ additions.flatMap Addition.pairs ↔
      .ofName name arity ∈ additions ∨
        ∃ file, .ofFile file ∈ additions ∧ ∃ entry ∈ file.typeSites,
          dottedPath entry = name ∧ entry.2.arity = arity := by
  constructor
  · intro listed
    obtain ⟨addition, member, given⟩ := List.mem_flatMap.mp listed
    cases addition with
    | ofName other count =>
        obtain ⟨rfl, rfl⟩ := Prod.mk.inj (List.mem_singleton.mp given)
        exact .inl member
    | ofFile file =>
        obtain ⟨entry, declared, same⟩ := List.mem_map.mp given
        exact .inr ⟨file, member, entry, declared, Prod.mk.inj same⟩
  · rintro (member | ⟨file, member, entry, declared, rfl, rfl⟩)
    · exact List.mem_flatMap.mpr ⟨_, member, List.mem_singleton_self _⟩
    · exact List.mem_flatMap.mpr ⟨_, member, List.mem_map.mpr ⟨entry, declared, rfl⟩⟩

theorem mem_interfacePairs_iff {name : String} {arity : Nat} :
    (name, arity) ∈ additions.flatMap Addition.interfacePairs ↔
      ∃ file, .ofFile file ∈ additions ∧ ∃ entry ∈ file.typeSites,
        entry.2.kind = .interface ∧ dottedPath entry = name ∧ entry.2.arity = arity := by
  constructor
  · intro listed
    obtain ⟨addition, member, given⟩ := List.mem_flatMap.mp listed
    cases addition with
    | ofName other count => cases given
    | ofFile file =>
        obtain ⟨entry, kept, same⟩ := List.mem_map.mp given
        obtain ⟨declared, isInterface⟩ := List.mem_filter.mp kept
        exact ⟨file, member, entry, declared, of_decide_eq_true isInterface, Prod.mk.inj same⟩
  · rintro ⟨file, member, entry, declared, isInterface, rfl, rfl⟩
    refine List.mem_flatMap.mpr ⟨_, member, List.mem_map.mpr ⟨entry, ?_, rfl⟩⟩
    exact List.mem_filter.mpr ⟨declared, decide_eq_true isInterface⟩

theorem mem_systemPairs_iff {name : String} {arity : Nat} :
    (name, arity) ∈ systemPairs ↔ (∃ entry ∈ keywordTypes, "System." ++ entry.2 = name) ∧ arity = 0 := by
  simp only [systemPairs, List.mem_map, Prod.mk.injEq]
  constructor
  · rintro ⟨entry, listed, named, rfl⟩
    exact ⟨⟨entry, listed, named⟩, rfl⟩
  · rintro ⟨⟨entry, listed, named⟩, rfl⟩
    exact ⟨entry, listed, named, rfl⟩

theorem contains_ofAdditions_iff (unmarked : ∀ addition ∈ additions, addition.Unmarked)
    {name : String} (plain : arityChar ∉ name.toList) (arity : Nat) :
    (ofAdditions additions).contains name arity = true ↔
      (name, arity) ∈ systemPairs ++ additions.flatMap Addition.pairs := by
  have each : ∀ other ∈ systemPairs ++ additions.flatMap Addition.pairs,
      arityChar ∉ other.1.toList := by
    intro other listed
    obtain system | added := List.mem_append.mp listed
    · exact unmarked_systemPairs other system
    · obtain ⟨addition, member, given⟩ := List.mem_flatMap.mp added
      exact (unmarked addition member).pair given
  rw [contains, List.contains_iff_mem, mem_known_ofAdditions]
  exact pairKey_mem_map_iff each (name, arity) plain

theorem isSome_interface?_iff {table : TypeTable} {path : List String}
    {arguments : List ResolvedType} :
    (table.interface? (.named path arguments)).isSome = true ↔
      ∃ entry, (lookupKey path arguments.length, entry) ∈ table.interfaces := by
  rw [interface?, Option.isSome_map]
  constructor
  · intro found
    obtain ⟨entry, here⟩ := Option.isSome_iff_exists.mp found
    obtain ⟨front, back, split, -⟩ := List.lookup_eq_some_iff.mp here
    exact ⟨entry, by simp [split]⟩
  · rintro ⟨entry, listed⟩
    refine Option.isSome_iff_ne_none.mpr fun absent => ?_
    simpa using List.lookup_eq_none_iff.mp absent _ listed

theorem interface?_ofAdditions_iff (unmarked : ∀ addition ∈ additions, addition.Unmarked)
    {path : List String} (plain : ∀ word ∈ path, arityChar ∉ word.toList)
    (arguments : List ResolvedType) :
    ((ofAdditions additions).interface? (.named path arguments)).isSome = true ↔
      (Text.separated "." path, arguments.length) ∈
        additions.flatMap Addition.interfacePairs := by
  have each : ∀ other ∈ additions.flatMap Addition.interfacePairs,
      arityChar ∉ other.1.toList := by
    intro other listed
    obtain ⟨addition, member, given⟩ := List.mem_flatMap.mp listed
    exact (unmarked addition member).pair (addition.interfacePairs_subset given)
  rw [isSome_interface?_iff, exists_mem_interfaces_ofAdditions, lookupKey_eq_pairKey]
  exact pairKey_mem_map_iff each _ (arityChar_not_mem_separated plain)

/-- Without arity marks in names, a table knows a dotted name with an arity exactly if the pair was
added by name, belongs to a type declared in an added file, or is that of a type with a keyword. It
has an interface under a path for so many arguments exactly if an added file declares one with this
dotted path and so many type parameters. Whether a name is given as a whole or cut at its points
makes no difference. -/
theorem keys_stand_for_pairs (additions : List Addition)
    (unmarked : ∀ addition ∈ additions, ∀ name ∈ addition.names, arityChar ∉ name.toList) :
    let table := ofAdditions additions
    (∀ (name : String) (arity : Nat), arityChar ∉ name.toList →
      (table.contains name arity = true ↔
        .ofName name arity ∈ additions ∨
          (∃ file, .ofFile file ∈ additions ∧ ∃ entry ∈ file.typeSites,
            dottedPath entry = name ∧ entry.2.arity = arity) ∨
          (∃ entry ∈ keywordTypes, "System." ++ entry.2 = name) ∧ arity = 0)) ∧
      (∀ (path : List String) (arguments : List ResolvedType),
        (∀ word ∈ path, arityChar ∉ word.toList) →
        ((table.interface? (.named path arguments)).isSome = true ↔
          ∃ file, .ofFile file ∈ additions ∧ ∃ entry ∈ file.typeSites,
            entry.2.kind = .interface ∧ dottedPath entry = Text.separated "." path ∧
              entry.2.arity = arguments.length)) ∧
      ∀ (name : String) (arity : Nat),
        table.contains name arity = table.knows (Text.dottedWords name) arity := by
  intro table
  refine ⟨fun name arity plain => ?_, fun path arguments plain => ?_, fun name arity => ?_⟩
  · rw [contains_ofAdditions_iff unmarked plain, List.mem_append, mem_systemPairs_iff,
      mem_pairs_iff, or_comm, or_assoc]
  · rw [interface?_ofAdditions_iff unmarked plain, mem_interfacePairs_iff]
  · rw [contains, knows, lookupKey_eq_pairKey (Text.dottedWords name), Text.separated_dottedWords]
    rfl

/-- A table with `Vendor.Node<T>` by name and with the interface `Data.Table.IRows<U>` from a file. -/
def nodesAndRows : List Addition :=
  [.ofName "Vendor.Node" 1, .ofFile (rowsFile [])]

/-- The arity belongs to the key: `Vendor.Node` is known with one type parameter and not with ten,
and the interface is found with one argument and not with none, however its path is cut. -/
theorem keys_stand_for_pairs_nodesAndRows :
    let table := ofAdditions nodesAndRows
    let type := ResolvedType.named ["System", "Int32"] []
    (table.contains "Vendor.Node" 1 = true ∧ table.contains "Vendor.Node" 10 = false) ∧
      table.contains "Data.Table.IRows" 1 = true ∧ table.contains "System.Void" 0 = true ∧
      (table.interface? (.named ["Data.Table", "IRows"] [type])).isSome = true ∧
      (table.interface? (.named ["Data", "Table", "IRows"] [])).isSome = false := by
  intro table type
  have names : nodesAndRows.flatMap Addition.names =
      ["Vendor.Node", "Table", "Data", "IRows", "Table", "Data"] := by decide +kernel
  have unmarked : ∀ addition ∈ nodesAndRows, ∀ name ∈ addition.names,
      arityChar ∉ name.toList := by
    intro addition listed name member
    have plain : ∀ name ∈ nodesAndRows.flatMap Addition.names, arityChar ∉ name.toList := by
      rw [names]
      decide +kernel
    exact plain name (List.mem_flatMap.mpr ⟨addition, listed, member⟩)
  obtain ⟨known, interfaces, -⟩ := keys_stand_for_pairs nodesAndRows unmarked
  have fromFile : .ofFile (rowsFile []) ∈ nodesAndRows := List.mem_of_getElem? (i := 1) rfl
  have declared : rowsEntry [] ∈ (rowsFile []).typeSites := List.mem_of_getElem? (i := 1) rfl
  have path : dottedPath (rowsEntry []) = "Data.Table.IRows" := by decide +kernel
  refine ⟨⟨?_, by decide +kernel⟩, ?_, ?_, ?_, by decide +kernel⟩
  · exact (known _ _ (by decide)).mpr (.inl List.mem_cons_self)
  · exact (known _ _ (by decide)).mpr (.inr (.inl ⟨_, fromFile, _, declared, path, rfl⟩))
  · exact (known _ _ (by decide)).mpr (.inr (.inr ⟨⟨("void", "Void"), by decide, rfl⟩, rfl⟩))
  · exact (interfaces _ _ (by decide)).mpr ⟨_, fromFile, _, declared, rfl, path, rfl⟩

end TypeTable
end InterfaceGen
