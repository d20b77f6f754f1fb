import InterfaceGen.Proofs.Erasure
import InterfaceGen.Proofs.Instantiation

/-!
The path that a name stands for. Every name but a single plain word resolves to a named type, whose
path is looked for among the candidates and whose arguments are those of all segments in order. A
name after `global::`, or after an alias that no using directive has, stands for its own words. A
using alias before `::` stands for its target whether or not the result is known; before a point it
does so only if the result is known, since a name that is not found keeps its words.
-/

namespace InterfaceGen

namespace QualName

/-- The type arguments of all segments, in order. -/
def arguments (name : QualName) : List TypeRef :=
  name.segments.flatMap Segment.arguments

/-- The arity with which the name is looked up: the number of type arguments of its last segment. -/
def lastArity (name : QualName) : Nat :=
  (name.last?.map fun segment => segment.arguments.length).getD 0

theorem length_arguments (name : QualName) : name.arguments.length = name.arity := rfl

theorem lastArity_of_arguments {name : QualName} (none : name.arguments = []) :
    name.lastArity = 0 := by
  unfold lastArity
  cases last : name.last? with
  | none => rfl
  | some segment =>
      have listed : segment ∈ name.segments := List.mem_of_getLast? last
      have plain : segment.arguments = [] := List.flatMap_eq_nil_iff.mp none segment listed
      simp [plain]

end QualName

namespace TypeTable

/-- The first known candidate of the name. Without one the name stands for its own words, or, after
an alias mark, for its first candidate. -/
def standsFor (table : TypeTable) (scope : Scope) (name : QualName) : List String :=
  let candidates := scope.candidates name.aliasName name.words
  (candidates.find? (table.knows · name.lastArity)).getD
    (if name.aliasName.isSome then candidates.head?.getD name.words else name.words)

theorem resolve_simple (table : TypeTable) (scope : Scope) (word : String) :
    table.resolve scope (.simple word) =
      (scope.typeParameter? word <|> ResolvedType.ofKeyword? word).getD
        (.named (table.standsFor scope (.simple word)) []) := rfl

/-- Only a single word without arguments can be a type parameter or a keyword. -/
theorem resolve_named (table : TypeTable) (scope : Scope) {name : QualName}
    (compound : ∀ word, name ≠ .simple word) :
    table.resolve scope (.named name) =
      .named (table.standsFor scope name) (name.arguments.map (table.resolve scope)) := by
  obtain ⟨aliasName, segments⟩ := name
  have arguments : table.resolveArguments scope segments =
      (QualName.arguments ⟨aliasName, segments⟩).map (table.resolve scope) := by
    rw [resolveArguments_eq_flatMap, QualName.arguments, List.map_flatMap]
  rw [resolve, arguments]
  unfold resolveName
  dsimp only
  split
  · rename_i word noArguments single
    obtain ⟨segment, rfl, rfl⟩ := List.map_eq_singleton_iff.mp single
    have plain : segment.arguments = [] := by
      simpa [QualName.arguments] using noArguments
    obtain ⟨word, arguments⟩ := segment
    obtain rfl := plain
    exact absurd rfl (compound word)
  · rfl

theorem standsFor_of_single {table : TypeTable} {scope : Scope} {name : QualName}
    {path : List String} (single : scope.candidates name.aliasName name.words = [path])
    (kept : name.aliasName = none → path = name.words) : table.standsFor scope name = path := by
  unfold standsFor
  dsimp only
  rw [single, List.find?_singleton]
  split
  · rfl
  · cases aliased : name.aliasName with
    | none => exact (kept aliased).symm
    | some aliasName => rfl

end TypeTable

namespace Scope

theorem candidates_of_ne_global (scope : Scope) {aliasName : String} (other : aliasName ≠ "global")
    (words : List String) :
    scope.candidates (some aliasName) words =
      ((scope.aliasTarget? aliasName).map (· ++ words)).toList := by
  unfold candidates
  split
  · rename_i isGlobal
    exact absurd (Option.some.inj isGlobal) other
  · rename_i isOther
    rw [Option.some.inj isOther]
  · rename_i isNone
    cases isNone

/-- A visible using directive gives its alias a target. -/
theorem aliasTarget?_of_visible {scope : Scope} {aliasName : String}
    (visible : ∃ directive ∈ scope.usings, directive.aliasName = some aliasName) :
    ∃ target, scope.aliasTarget? aliasName = some target := by
  obtain ⟨directive, listed, named⟩ := visible
  have found : (scope.usings.find? (·.aliasName == some aliasName)).isSome = true :=
    List.find?_isSome.mpr ⟨directive, listed, by simp [named]⟩
  obtain ⟨first, here⟩ := Option.isSome_iff_exists.mp found
  exact ⟨usingPath first.name, by rw [aliasTarget?, here, Option.map_some]⟩

/-- The target of an alias comes first when the alias begins a name without an alias mark. -/
theorem plainCandidates_of_alias {scope : Scope} {aliasName : String} {target : List String}
    (aliased : scope.aliasTarget? aliasName = some target) (words : List String) :
    ∃ others, scope.plainCandidates (aliasName :: words) = (target ++ words) :: others := by
  simp [plainCandidates, aliased]

/-- The words of a name are a candidate of their own, as a path from the global namespace. -/
theorem words_mem_plainCandidates (scope : Scope) (words : List String) :
    words ∈ scope.plainCandidates words := by
  have whole : [] ∈ startsDownTo 0 scope.namespacePath :=
    List.mem_map.mpr ⟨0, by simp, rfl⟩
  simp only [plainCandidates, List.mem_append]
  exact .inl (.inr (List.mem_map.mpr ⟨[], whole, rfl⟩))

theorem candidates_empty (words : List String) : empty.candidates none words = [words] := by
  cases words <;> rfl

end Scope

namespace TypeTable

theorem standsFor_global (table : TypeTable) (scope : Scope) (segments : List Segment) :
    table.standsFor scope ⟨some "global", segments⟩ = segments.map Segment.word :=
  standsFor_of_single rfl (by simp)

theorem standsFor_of_alias (table : TypeTable) {scope : Scope} {aliasName : String}
    (other : aliasName ≠ "global") {target : List String}
    (aliased : scope.aliasTarget? aliasName = some target) (segments : List Segment) :
    table.standsFor scope ⟨some aliasName, segments⟩ = target ++ segments.map Segment.word := by
  refine standsFor_of_single ?_ (by simp)
  rw [scope.candidates_of_ne_global other, aliased]
  rfl

/-- An alias that no using directive has is dropped, and so is `global`. -/
theorem standsFor_of_foreign (table : TypeTable) {scope : Scope} {aliasName : String}
    (foreign : scope.aliasTarget? aliasName = none) (segments : List Segment) :
    table.standsFor scope ⟨some aliasName, segments⟩ = segments.map Segment.word := by
  by_cases isGlobal : aliasName = "global"
  · subst isGlobal
    exact table.standsFor_global scope segments
  · have nothing : scope.candidates (some aliasName) (segments.map Segment.word) = [] := by
      rw [scope.candidates_of_ne_global isGlobal, foreign]
      rfl
    unfold standsFor QualName.words
    dsimp only
    rw [nothing]
    rfl

theorem standsFor_empty (table : TypeTable) (segments : List Segment) :
    table.standsFor .empty ⟨none, segments⟩ = segments.map Segment.word :=
  standsFor_of_single (Scope.candidates_empty _) fun _ => rfl

/-- A name without an alias mark that is not found keeps its words. -/
theorem standsFor_of_unknown {table : TypeTable} {scope : Scope} {segments : List Segment}
    (unknown : ∀ path ∈ scope.plainCandidates (segments.map Segment.word),
      table.knows path (QualName.lastArity ⟨none, segments⟩) = false) :
    table.standsFor scope ⟨none, segments⟩ = segments.map Segment.word := by
  have nothing : (scope.plainCandidates (segments.map Segment.word)).find?
      (table.knows · (QualName.lastArity ⟨none, segments⟩)) = none :=
    List.find?_eq_none.mpr fun path listed => by simp [unknown path listed]
  unfold standsFor Scope.candidates QualName.words
  dsimp only
  rw [nothing]
  rfl

end TypeTable

/-- The search for a first item ends with the head if this fits, or if nothing fits and the head is
what the search falls back on. -/
theorem getD_find?_eq_head_iff {α : Type} {fits : α → Bool} {head fallback : α}
    {others : List α} :
    ((head :: others).find? fits).getD fallback = head ↔
      fits head = true ∨ fallback = head ∧ ∀ item ∈ head :: others, fits item = false := by
  by_cases first : fits head = true
  · simp [first]
  · cases found : others.find? fits with
    | none =>
        have rest : ∀ item ∈ others, fits item = false := by simpa using found
        simpa [first, found] using fun _ => rest
    | some item =>
        have differs : item ≠ head := by
          rintro rfl
          exact first (List.find?_some found)
        have listed : item ∈ others := List.mem_of_find?_eq_some found
        simpa [first, found, differs] using fun _ => ⟨item, listed, List.find?_some found⟩

theorem ResolvedType.equivalent_named_iff (path other : List String)
    (arguments : List ResolvedType) :
    (named path arguments).equivalent (named other arguments) = true ↔ path = other := by
  simp [equivalent_iff_erase, erase]

namespace TypeTable

/-- A using alias before `::` stands for its target. Before a point it does so exactly if the
result is known, or if nothing is and the alias is its own target. -/
theorem resolve_alias_point_iff (table : TypeTable) (scope : Scope) {aliasName : String}
    (other : aliasName ≠ "global")
    (visible : ∃ directive ∈ scope.usings, directive.aliasName = some aliasName)
    {rest : List Segment} (nonempty : rest ≠ []) :
    let marked : QualName := ⟨some aliasName, rest⟩
    let pointed : QualName := ⟨none, ⟨aliasName, []⟩ :: rest⟩
    ∃ target, scope.aliasTarget? aliasName = some target ∧
      table.resolve scope (.named marked) =
        .named (target ++ marked.words) (marked.arguments.map (table.resolve scope)) ∧
      ((table.resolve scope (.named pointed)).equivalent (table.resolve scope (.named marked)) =
          true ↔
        table.knows (target ++ marked.words) marked.lastArity = true ∨
          target = [aliasName] ∧
            ∀ path ∈ scope.plainCandidates pointed.words,
              table.knows path pointed.lastArity = false) := by
  intro marked pointed
  obtain ⟨target, aliased⟩ := Scope.aliasTarget?_of_visible visible
  refine ⟨target, aliased, ?_⟩
  have resolved : table.resolve scope (.named marked) =
      .named (target ++ marked.words) (marked.arguments.map (table.resolve scope)) := by
    rw [table.resolve_named scope (by simp [marked, QualName.simple]),
      table.standsFor_of_alias other aliased]
    rfl
  refine ⟨resolved, ?_⟩
  have compound : ∀ word, pointed ≠ .simple word := by
    simp [pointed, QualName.simple, nonempty]
  have arguments : pointed.arguments = marked.arguments := rfl
  have arity : pointed.lastArity = marked.lastArity := by
    obtain ⟨segment, later, rfl⟩ := List.exists_cons_of_ne_nil nonempty
    rfl
  -- the target is the first candidate, so the search either ends there or passes it over for good
  obtain ⟨others, candidates⟩ := Scope.plainCandidates_of_alias aliased marked.words
  have path : table.standsFor scope pointed =
      (((target ++ marked.words) :: others).find? (table.knows · marked.lastArity)).getD
        (aliasName :: marked.words) := by
    rw [← candidates, ← arity]
    rfl
  have itself : aliasName :: marked.words = target ++ marked.words ↔ target = [aliasName] := by
    rw [← List.singleton_append, List.append_left_inj, eq_comm]
  rw [table.resolve_named scope compound, resolved, arguments, ResolvedType.equivalent_named_iff,
    path, getD_find?_eq_head_iff, itself, arity, ← candidates]
  rfl

/-- Inside `namespace App`, under `using Json = Vendor.Json`. -/
def jsonScope : Scope :=
  { Scope.empty with
    namespacePath := ["App"]
    usings := [⟨false, false, some "Json", "Vendor.Json"⟩] }

theorem visible_jsonScope :
    ∃ directive ∈ jsonScope.usings, directive.aliasName = some "Json" :=
  ⟨_, List.mem_singleton_self _, rfl⟩

/-- With `Vendor.Json.Node<T>` known the two spellings agree. -/
theorem resolve_alias_point_node :
    let table := initial.addType "Vendor.Json.Node" 1
    let rest : List Segment := [⟨"Node", [.simple "int"]⟩]
    (table.resolve jsonScope (.named ⟨none, ⟨"Json", []⟩ :: rest⟩)).equivalent
        (table.resolve jsonScope (.named ⟨some "Json", rest⟩)) = true ∧
      (table.resolve jsonScope (.named ⟨some "Json", rest⟩)).render = "Vendor.Json.Node<int>" := by
  intro table rest
  obtain ⟨target, aliased, _, agrees⟩ := table.resolve_alias_point_iff jsonScope (by decide)
    visible_jsonScope (List.cons_ne_nil _ _ : rest ≠ [])
  have here : jsonScope.aliasTarget? "Json" = some ["Vendor", "Json"] := by decide +kernel
  obtain rfl := Option.some.inj (here.symm.trans aliased)
  exact ⟨agrees.mpr (.inl (by decide +kernel)), by decide +kernel⟩

/-- With nothing known `Json::Node` is `Vendor.Json.Node`, and `Json.Node` stays as it is. -/
theorem resolve_alias_point_differ :
    ¬ ∀ (table : TypeTable) (scope : Scope) (aliasName : String) (rest : List Segment),
      table.Built → aliasName ≠ "global" →
      (∃ directive ∈ scope.usings, directive.aliasName = some aliasName) → rest ≠ [] →
      (table.resolve scope (.named ⟨none, ⟨aliasName, []⟩ :: rest⟩)).equivalent
        (table.resolve scope (.named ⟨some aliasName, rest⟩)) = true := by
  intro agree
  have same := agree initial jsonScope "Json" [⟨"Node", []⟩] .initial (by decide)
    visible_jsonScope (List.cons_ne_nil _ _)
  exact absurd same (by decide +kernel)

end TypeTable
end InterfaceGen
