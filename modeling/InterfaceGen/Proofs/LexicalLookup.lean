import InterfaceGen.Proofs.DeclaredInterfaces
import InterfaceGen.Proofs.MirroredInterface
import InterfaceGen.Proofs.NameLookup

/-!
Name lookup is lexical. Inside a type the candidates of a word that is no using alias begin with
every start of the type's own path, longest first: the types around come before the namespaces
around, and both from the inside out. So the word stands for the declaration in the innermost of
these places that has one of the wanted arity, and for no other.
-/

namespace InterfaceGen

/-- The path of the place where a site stands: its namespaces and the types around it. -/
def Site.outerPath (site : Site) : List String :=
  site.namespacePath ++ site.containers.map TypeDecl.name

namespace Scope

/-- The starts of a path with types go on with those of the namespace before them. -/
theorem startsDownTo_append (outer inner : List String) :
    (startsDownTo 1 inner).map (outer ++ ·) ++ startsDownTo 0 outer =
      startsDownTo 0 (outer ++ inner) := by
  induction inner using List.reverseRecOn with
  | nil =>
      rw [List.append_nil]
      rfl
  | append_singleton inner last ih =>
      rw [startsDownTo_concat 1 inner last (Nat.le_add_left ..), ← List.append_assoc,
        startsDownTo_concat 0 (outer ++ inner) last (Nat.zero_le _), ← ih]
      simp only [List.map_cons, List.cons_append, List.append_assoc]

theorem mem_startsDownTo_of_prefix {path start : List String} (isStart : start <+: path) :
    start ∈ startsDownTo 0 path := by
  apply List.mem_map.mpr
  refine ⟨start.length, ?_, (List.prefix_iff_eq_take.mp isStart).symm⟩
  simpa [Nat.lt_succ_iff] using isStart.length_le

/-- The first start of a path that fits is the longest one that does. -/
theorem find?_startsDownTo_eq_some_iff {fits : List String → Bool} {path start : List String} :
    (startsDownTo 0 path).find? fits = some start ↔
      start <+: path ∧ fits start = true ∧
        ∀ longer, longer <+: path → start.length < longer.length → fits longer = false := by
  induction path using List.reverseRecOn with
  | nil =>
      have whole : startsDownTo 0 [] = [[]] := rfl
      rw [whole, List.find?_cons, List.find?_nil]
      constructor
      · intro found
        split at found
        · cases found
          exact ⟨List.prefix_rfl, ‹_›, by simp⟩
        · cases found
      · intro h
        obtain rfl := List.prefix_nil.mp h.1
        rw [h.2.1]
  | append_singleton path last ih =>
      rw [startsDownTo_concat 0 path last (Nat.zero_le _), List.find?_cons]
      constructor
      · intro found
        split at found
        · cases found
          refine ⟨List.prefix_rfl, ‹_›, ?_⟩
          intro longer isStart more
          exact absurd isStart.length_le (Nat.not_le.mpr more)
        · rename_i unfit
          have inside := ih.mp found
          refine ⟨inside.1.trans (List.prefix_append ..), inside.2.1, ?_⟩
          intro longer isStart more
          cases List.prefix_concat_iff.mp isStart with
          | inl whole => rw [whole, unfit]
          | inr shorter => exact inside.2.2 longer shorter more
      · intro h
        cases List.prefix_concat_iff.mp h.1 with
        | inl whole =>
            have fit := h.2.1
            rw [whole] at fit ⊢
            rw [fit]
        | inr shorter =>
            have length := shorter.length_le
            have unfit : fits (path ++ [last]) = false := by
              apply h.2.2 _ List.prefix_rfl
              rw [List.length_append, List.length_singleton]
              omega
            rw [unfit]
            apply ih.mpr
            refine ⟨shorter, h.2.1, ?_⟩
            intro longer isStart more
            exact h.2.2 longer (isStart.trans (List.prefix_append ..)) more

/-- Without a using alias of this name, the places around come first, from the inside out. -/
theorem plainCandidates_of_unaliased {scope : Scope} {word : String}
    (unaliased : scope.aliasTarget? word = none) (rest : List String) :
    ∃ inUse, scope.plainCandidates (word :: rest) =
      (startsDownTo 0 (scope.namespacePath ++ scope.enclosing)).map (· ++ word :: rest) ++
        inUse := by
  let inUse := (scope.usings.filter fun directive =>
      directive.aliasName.isNone && !directive.isStatic).map fun directive =>
    usingPath directive.name ++ word :: rest
  refine ⟨inUse, ?_⟩
  unfold plainCandidates
  rw [← startsDownTo_append, List.head?_cons, Option.bind_some, unaliased]
  simp only [Option.map_none, Option.toList_none, List.nil_append, List.map_append, List.map_map]
  rfl

theorem aliasTarget?_of_unnamed {scope : Scope} {word : String}
    (unnamed : ∀ directive ∈ scope.usings, directive.aliasName ≠ some word) :
    scope.aliasTarget? word = none := by
  have nothing : scope.usings.find? (·.aliasName == some word) = none :=
    List.find?_eq_none.mpr fun directive visible => by simpa using unnamed directive visible
  rw [aliasTarget?, nothing]
  rfl

end Scope

namespace TypeTable

/-- Every declared type is known by its path and its arity. -/
theorem knows_ofFiles_of_declared {files : List SourceFile} {entry : Site × TypeDecl}
    (declared : entry ∈ files.flatMap SourceFile.typeSites) :
    (ofFiles files).knows (declaredPath entry.1 entry.2) entry.2.arity = true := by
  apply List.contains_iff_mem.mpr
  rw [ofFiles_eq_foldl, mem_known_foldl]
  exact .inr ⟨entry, declared, rfl⟩

/-- A word that is no alias and is declared around stands for the innermost such declaration. -/
theorem standsFor_word_eq_iff {table : TypeTable} {scope : Scope} {word : String}
    {arguments : List TypeRef} (unaliased : scope.aliasTarget? word = none) {outer : List String}
    (around : outer <+: scope.namespacePath ++ scope.enclosing)
    (known : table.knows (outer ++ [word]) arguments.length = true) :
    table.standsFor scope ⟨none, [⟨word, arguments⟩]⟩ = outer ++ [word] ↔
      ∀ inner, inner <+: scope.namespacePath ++ scope.enclosing → outer.length < inner.length →
        table.knows (inner ++ [word]) arguments.length = false := by
  obtain ⟨inUse, candidates⟩ := Scope.plainCandidates_of_unaliased unaliased []
  let places := Scope.startsDownTo 0 (scope.namespacePath ++ scope.enclosing)
  let fits : List String → Bool := fun path => table.knows (path ++ [word]) arguments.length
  -- one of the places around has the word, so the namespaces in use are never looked at
  have somewhere : (places.find? fits).isSome = true :=
    List.find?_isSome.mpr ⟨outer, Scope.mem_startsDownTo_of_prefix around, known⟩
  obtain ⟨found, here⟩ := Option.isSome_iff_exists.mp somewhere
  have standsFor : table.standsFor scope ⟨none, [⟨word, arguments⟩]⟩ = found ++ [word] := by
    have searched : table.standsFor scope ⟨none, [⟨word, arguments⟩]⟩ =
        ((places.map (· ++ [word]) ++ inUse).find? (table.knows · arguments.length)).getD [word] := by
      rw [← candidates]
      rfl
    have inPlaces : places.find? ((table.knows · arguments.length) ∘ (· ++ [word])) = some found :=
      here
    rw [searched, List.find?_append, List.find?_map, inPlaces]
    rfl
  rw [standsFor, List.append_left_inj]
  constructor
  · intro same
    rw [same] at here
    exact (Scope.find?_startsDownTo_eq_some_iff.mp here).2.2
  · intro innermost
    have first := Scope.find?_startsDownTo_eq_some_iff.mpr ⟨around, known, innermost⟩
    exact Option.some.inj (here.symm.trans first)

/-- A word means what it stands for, unless it is alone and a type parameter or a keyword. -/
theorem resolve_word (table : TypeTable) {scope : Scope} {word : String} {arguments : List TypeRef}
    (plain : arguments = [] →
      scope.typeParameter? word = none ∧ ResolvedType.ofKeyword? word = none) :
    table.resolve scope (.named ⟨none, [⟨word, arguments⟩]⟩) =
      .named (table.standsFor scope ⟨none, [⟨word, arguments⟩]⟩)
        (arguments.map (table.resolve scope)) := by
  cases arguments with
  | nil =>
      have unbound := plain rfl
      have resolved := table.resolve_simple scope word
      rw [unbound.1, unbound.2] at resolved
      exact resolved
  | cons first rest =>
      rw [table.resolve_named scope (by simp [QualName.simple])]
      simp [QualName.arguments]

/-- Where a word is neither an alias nor, alone, a type parameter or a keyword, it means a type that
is declared around exactly if no place further in knows a type of this name and arity. -/
theorem resolve_declared_around_iff (files : List SourceFile) (entry user : Site × TypeDecl)
    (declared : entry ∈ files.flatMap SourceFile.typeSites)
    (within : user ∈ files.flatMap SourceFile.typeSites)
    (around : entry.1.outerPath <+: declaredPath user.1 user.2)
    (unaliased : ∀ directive ∈ user.1.usingScopes.flatten,
      directive.aliasName ≠ some entry.2.name)
    (plain : entry.2.arity = 0 → entry.2.name ∉ user.2.typeParameterNames ∧
      ResolvedType.ofKeyword? entry.2.name = none)
    (arguments : List TypeRef) (arity : arguments.length = entry.2.arity) :
    let table := ofFiles files
    let scope := Scope.ofSite user.1
    table.resolve scope (.named ⟨none, [⟨entry.2.name, arguments⟩]⟩) =
        .named (declaredPath entry.1 entry.2) (arguments.map (table.resolve scope)) ↔
      ∀ inner, inner <+: declaredPath user.1 user.2 → entry.1.outerPath.length < inner.length →
        table.knows (inner ++ [entry.2.name]) entry.2.arity = false := by
  intro table scope
  have typed : user.1.type? = some user.2 := by
    obtain ⟨file, _, member⟩ := List.mem_flatMap.mp within
    exact SourceFile.type?_of_mem_typeSites member
  have path : scope.namespacePath ++ scope.enclosing = declaredPath user.1 user.2 :=
    Scope.path_ofSite typed
  have known : table.knows (entry.1.outerPath ++ [entry.2.name]) arguments.length = true := by
    rw [arity]
    exact knows_ofFiles_of_declared declared
  have free : arguments = [] → scope.typeParameter? entry.2.name = none ∧
      ResolvedType.ofKeyword? entry.2.name = none := by
    intro alone
    obtain ⟨parameter, keyword⟩ := plain (by rw [← arity, alone]; rfl)
    refine ⟨?_, keyword⟩
    have unlisted := List.idxOf?_eq_none_iff.mpr parameter
    simp [scope, Scope.ofSite_of_type typed, Scope.typeParameter?, unlisted]
  have innermost := standsFor_word_eq_iff (Scope.aliasTarget?_of_unnamed unaliased)
    (path ▸ around) known
  rw [path, arity] at innermost
  rw [table.resolve_word free, ResolvedType.named.injEq, and_iff_left rfl]
  exact innermost

section Files

def emptyClass (name : String) (typeParameters : List String) : TypeDecl :=
  ⟨none, [], ["partial"], .classType, name, typeParameters.map (⟨none, ·⟩), none, [], [], []⟩

/-- The file with these items in the namespace `Data`. -/
def dataFile (path : String) (items : List Item) : SourceFile :=
  ⟨path, [], [.inNamespace ⟨"Data", [], false⟩ items]⟩

/-- `Data.Row<T>` and `Data.Table.Row<T>` in one file, `Data.Table.Cell` in another. -/
def rowFiles : List SourceFile :=
  [dataFile "Row.cs" [.ofType (emptyClass "Row" ["T"]) [],
      .ofType (emptyClass "Table" []) [.ofType (emptyClass "Row" ["T"]) []]],
    dataFile "Cell.cs" [.ofType (emptyClass "Table" []) [.ofType (emptyClass "Cell" []) []]]]

/-- A class at this place in a file of the namespace `Data`, below these numbered classes. -/
def dataEntry (number : Nat) (decl : TypeDecl) (around : List (Nat × TypeDecl)) :
    Site × TypeDecl :=
  (⟨⟨number, .type decl⟩, around.map (fun outer => ⟨outer.1, .type outer.2⟩) ++
    [⟨1, .space ⟨"Data", [], false⟩⟩, ⟨0, .file []⟩]⟩, decl)

def cellEntry : Site × TypeDecl :=
  dataEntry 3 (emptyClass "Cell" []) [(2, emptyClass "Table" [])]

def outerRowEntry : Site × TypeDecl :=
  dataEntry 2 (emptyClass "Row" ["T"]) []

def innerRowEntry : Site × TypeDecl :=
  dataEntry 4 (emptyClass "Row" ["T"]) [(3, emptyClass "Table" [])]

theorem typeSites_rowFiles :
    rowFiles.flatMap SourceFile.typeSites =
      [outerRowEntry, dataEntry 3 (emptyClass "Table" []) [], innerRowEntry,
        dataEntry 2 (emptyClass "Table" []) [], cellEntry] :=
  rfl

/-- Inside `Data.Table.Cell` the name `Row<int>` means the row class of the table, and not the one
of the namespace. -/
theorem resolve_row_in_cell :
    let table := ofFiles rowFiles
    let scope := Scope.ofSite cellEntry.1
    let name : TypeRef := .named ⟨none, [⟨"Row", [.simple "int"]⟩]⟩
    table.resolve scope name =
        .named ["Data", "Table", "Row"] [table.resolve scope (.simple "int")] ∧
      table.resolve scope name ≠ .named ["Data", "Row"] [table.resolve scope (.simple "int")] := by
  intro table scope name
  have within : cellEntry ∈ rowFiles.flatMap SourceFile.typeSites := by simp [typeSites_rowFiles]
  have path : declaredPath cellEntry.1 cellEntry.2 = ["Data", "Table", "Cell"] := by decide +kernel
  have unaliased : ∀ directive ∈ cellEntry.1.usingScopes.flatten,
      directive.aliasName ≠ some "Row" := by decide
  constructor
  · have meant := resolve_declared_around_iff rowFiles innerRowEntry cellEntry
      (by simp [typeSites_rowFiles]) within (by decide +kernel) unaliased (by decide)
      [.simple "int"] rfl
    apply meant.mpr
    rw [path]
    intro inner isStart more
    have whole : inner = ["Data", "Table", "Cell"] := isStart.eq_of_length_le more
    rw [whole]
    decide +kernel
  · have meant := resolve_declared_around_iff rowFiles outerRowEntry cellEntry
      (by simp [typeSites_rowFiles]) within (by decide +kernel) unaliased (by decide)
      [.simple "int"] rfl
    intro outermost
    have unknown := meant.mp outermost ["Data", "Table"] (by decide +kernel) (by decide +kernel)
    exact absurd unknown (by decide +kernel)

end Files

end TypeTable
end InterfaceGen
