import InterfaceGen.Output.SourceKey

/-!
When two source keys are equal. A key joins its target, the dotted path of its type and its file
name by underscores, all of which may hold underscores themselves, and the path does not tell
namespaces from types without type parameters. What a key does determine is the list of its words
between underscores; two places with the same key agree exactly when their words are cut at the
same points.
-/

namespace InterfaceGen

/-- The name is made of letters, numerals and underscores and does not start with a numeral. -/
def isIdentifier (name : String) : Bool :=
  match name.toList with
  | [] => false
  | first :: rest => (first == '_' || Text.isLetter first) && rest.all Text.continuesWord

theorem continuesWord_of_isIdentifier {name : String} (h : isIdentifier name = true) :
    ∀ c ∈ name.toList, Text.continuesWord c = true := by
  unfold isIdentifier at h
  split at h
  · cases h
  · rename_i first rest chars
    simp only [Bool.and_eq_true, Bool.or_eq_true, List.all_eq_true] at h
    intro c member
    rw [chars] at member
    obtain rfl | later := List.mem_cons.mp member
    · obtain underscore | letter := h.1
      · simp [Text.continuesWord, underscore]
      · simp [Text.continuesWord, letter]
    · exact h.2 c later

theorem not_mem_of_isIdentifier {name : String} {mark : Char} (h : isIdentifier name = true)
    (other : Text.continuesWord mark = false) : mark ∉ name.toList := by
  intro member
  rw [continuesWord_of_isIdentifier h mark member] at other
  cases other

def arityChar : Char := '\x60'

theorem toList_arityMark (arity : Nat) :
    (arityMark arity).toList =
      if arity = 0 then [] else arityChar :: Nat.toDigits 10 arity := by
  unfold arityMark
  split <;> simp [arityChar]

def markedName (entry : String × Nat) : List Char :=
  entry.1.toList ++ (arityMark entry.2).toList

namespace Location

/-- All names of the place are identifiers; the file name is free. -/
structure WellNamed (location : Location) : Prop where
  namespacePath : ∀ name ∈ location.namespacePath, isIdentifier name = true
  containers : ∀ container ∈ location.containers, isIdentifier container.1 = true
  name : isIdentifier location.name = true

/-- The namespaces, the types around and the type itself, each with its arity. -/
def chain (location : Location) : List (String × Nat) :=
  location.namespacePath.map (·, 0) ++ location.containers ++ [(location.name, location.arity)]

def dottedPath (location : Location) : List Char :=
  ['.'].intercalate (location.chain.map markedName)

theorem WellNamed.isIdentifier_of_mem_chain {location : Location} (h : location.WellNamed)
    {entry : String × Nat} (member : entry ∈ location.chain) : isIdentifier entry.1 = true := by
  simp only [chain, List.mem_append, List.mem_map, List.mem_singleton] at member
  obtain (⟨name, outer, rfl⟩ | container) | rfl := member
  · exact h.namespacePath name outer
  · exact h.containers entry container
  · exact h.name

end Location

theorem toDigits_injective {m n : Nat} (h : Nat.toDigits 10 m = Nat.toDigits 10 n) : m = n := by
  have read := congrArg (Nat.ofDigitChars 10 · 0) h
  simpa only [Nat.ofDigitChars_ten_toDigits] using read

theorem not_mem_toDigits {mark : Char} (h : mark.isDigit = false) (n : Nat) :
    mark ∉ Nat.toDigits 10 n := by
  intro member
  rw [Nat.isDigit_of_mem_toDigits (by decide) (by decide) member] at h
  cases h

theorem markedName_injective {a b : String × Nat} (ha : arityChar ∉ a.1.toList)
    (hb : arityChar ∉ b.1.toList) (h : markedName a = markedName b) : a = b := by
  -- cut at the arity mark, both sides fall into the name and, if there is an arity, its digits
  have split := congrArg (List.splitOn arityChar) h
  simp only [markedName, toList_arityMark] at split
  have digits (k : Nat) : (Nat.toDigits 10 k).splitOn arityChar = [Nat.toDigits 10 k] :=
    List.splitOn_eq_singleton (not_mem_toDigits (by decide) k)
  by_cases hm : a.2 = 0 <;> by_cases hn : b.2 = 0 <;>
    simp [hm, hn, List.splitOn_append_cons_self, List.splitOn_eq_singleton ha,
      List.splitOn_eq_singleton hb, digits] at split
  · exact Prod.ext (String.toList_inj.mp split) (hm.trans hn.symm)
  · exact Prod.ext (String.toList_inj.mp split.1) (toDigits_injective split.2)

theorem map_markedName_injective {xs ys : List (String × Nat)}
    (hx : ∀ x ∈ xs, arityChar ∉ x.1.toList) (hy : ∀ y ∈ ys, arityChar ∉ y.1.toList)
    (h : xs.map markedName = ys.map markedName) : xs = ys := by
  induction xs generalizing ys with
  | nil => exact (List.map_eq_nil_iff.mp h.symm).symm
  | cons x xs ih =>
      cases ys with
      | nil => cases h
      | cons y ys =>
          rw [List.map_cons, List.map_cons, List.cons.injEq] at h
          have first := markedName_injective (hx x List.mem_cons_self) (hy y List.mem_cons_self) h.1
          have rest := ih (fun z member => hx z (List.mem_cons_of_mem _ member))
            (fun z member => hy z (List.mem_cons_of_mem _ member)) h.2
          rw [first, rest]

theorem dot_not_mem_markedName {entry : String × Nat} (h : isIdentifier entry.1 = true) :
    '.' ∉ markedName entry := by
  rw [markedName, List.mem_append, toList_arityMark]
  rintro (inName | inMark)
  · exact not_mem_of_isIdentifier h (by decide) inName
  · split at inMark
    · cases inMark
    · obtain bad | inDigits := List.mem_cons.mp inMark
      · revert bad
        decide
      · exact not_mem_toDigits (by decide) _ inDigits

namespace Location

theorem WellNamed.splitOn_dottedPath {location : Location} (h : location.WellNamed) :
    location.dottedPath.splitOn '.' = location.chain.map markedName := by
  apply List.splitOn_intercalate
  · intro part member
    obtain ⟨entry, inChain, rfl⟩ := List.mem_map.mp member
    exact dot_not_mem_markedName (h.isIdentifier_of_mem_chain inChain)
  · simp [chain]

theorem WellNamed.arityChar_not_mem {location : Location} (h : location.WellNamed) :
    ∀ entry ∈ location.chain, arityChar ∉ entry.1.toList := fun _ member =>
  not_mem_of_isIdentifier (h.isIdentifier_of_mem_chain member) (by decide)

theorem chain_eq_of_dottedPath {l m : Location} (hl : l.WellNamed) (hm : m.WellNamed)
    (h : l.dottedPath = m.dottedPath) : l.chain = m.chain := by
  have parts := congrArg (List.splitOn '.') h
  rw [hl.splitOn_dottedPath, hm.splitOn_dottedPath] at parts
  exact map_markedName_injective hl.arityChar_not_mem hm.arityChar_not_mem parts

theorem eq_of_chain {l m : Location} (chains : l.chain = m.chain)
    (depths : l.namespacePath.length = m.namespacePath.length) (files : l.fileName = m.fileName) :
    l = m := by
  unfold chain at chains
  -- without `depths` a namespace could stand where the other place has a type of arity zero
  obtain ⟨outer, last⟩ := List.append_inj' chains rfl
  obtain ⟨spaces, types⟩ := List.append_inj outer (by simpa using depths)
  have paths : l.namespacePath = m.namespacePath := by
    simpa [Function.comp_def] using congrArg (List.map Prod.fst) spaces
  cases l
  cases m
  simp_all

end Location

namespace SourceKey

/-- The words of a key between underscores: those of the target, of the path and of the file. -/
def words (target : String) (location : Location) : List (List Char) :=
  target.toList.splitOn '_' ++ location.dottedPath.splitOn '_' ++
    location.fileName.toList.splitOn '_'

/-- Where the words of a key are cut: the underscores in the target, those in the path, and how
many names of the path are namespaces. -/
def cuts (target : String) (location : Location) : Nat × Nat × Nat :=
  (target.toList.count '_', location.dottedPath.count '_', location.namespacePath.length)

theorem toList_joined_dotted (entries : List (String × Nat)) (last : List Char) :
    (Text.joined (entries.map fun entry => entry.1 ++ arityMark entry.2 ++ ".")).toList ++ last =
      ['.'].intercalate (entries.map markedName ++ [last]) := by
  induction entries with
  | nil => simp [Text.joined]
  | cons entry rest ih =>
      have shape : (entry :: rest).map markedName ++ [last] =
          markedName entry :: (rest.map markedName ++ [last]) := rfl
      rw [shape, List.intercalate_cons_of_ne_nil (by simp), ← ih]
      simp [Text.joined, markedName]

theorem toList_text_derive (target : String) (location : Location) :
    (derive target location).text.toList =
      target.toList ++ '_' :: (location.dottedPath ++
        '_' :: (location.fileName.toList ++ ending.toList)) := by
  have path : (Text.joined ((location.namespacePath.map (·, 0) ++ location.containers).map
      fun entry : String × Nat => entry.1 ++ arityMark entry.2 ++ ".")).toList ++
        markedName (location.name, location.arity) = location.dottedPath := by
    rw [toList_joined_dotted]
    simp [Location.dottedPath, Location.chain]
  rw [← path, List.map_append, Text.joined_append]
  simp [derive, markedName, arityMark, Function.comp_def]

theorem splitOn_injective {c : Char} {xs ys : List Char} (h : xs.splitOn c = ys.splitOn c) :
    xs = ys := by
  simpa only [List.intercalate_splitOn] using congrArg [c].intercalate h

theorem derive_eq_iff_words (a b : String) (l m : Location) :
    derive a l = derive b m ↔ words a l = words b m := by
  have split (target : String) (location : Location) :
      (target.toList ++ '_' :: (location.dottedPath ++ '_' :: location.fileName.toList)).splitOn
        '_' = words target location := by
    simp [words, List.splitOn_append_cons_self]
  have text : derive a l = derive b m ↔
      a.toList ++ '_' :: (l.dottedPath ++ '_' :: l.fileName.toList) =
        b.toList ++ '_' :: (m.dottedPath ++ '_' :: m.fileName.toList) := by
    rw [SourceKey.mk.injEq, ← String.toList_inj, toList_text_derive, toList_text_derive]
    simp only [← List.append_assoc, ← List.cons_append, List.append_left_inj]
  rw [text, ← split, ← split]
  exact ⟨congrArg _, splitOn_injective⟩

theorem length_splitOn (c : Char) (xs : List Char) : (xs.splitOn c).length = xs.count c + 1 := by
  induction xs with
  | nil => rfl
  | cons x xs ih =>
      by_cases h : x = c
      · simp [List.splitOn_cons_eq_if_modifyHead, h, ih]
      · simp [List.splitOn_cons_eq_if_modifyHead, h, ih]

/-- Keys of places whose names are identifiers tell these places apart exactly as far as equal
words imply equal cuts. A collision needs an underscore that belongs to another part of the key, or
a namespace that stands in the place of a type. -/
theorem derive_injective_iff_cuts {a b : String} {l m : Location} (hl : l.WellNamed)
    (hm : m.WellNamed) :
    (derive a l = derive b m → a = b ∧ l = m) ↔
      (words a l = words b m → cuts a l = cuts b m) := by
  rw [derive_eq_iff_words]
  refine forall_congr' fun same => ⟨?_, ?_⟩
  · rintro ⟨rfl, rfl⟩
    rfl
  · intro h
    simp only [cuts, Prod.mk.injEq] at h
    obtain ⟨inTarget, inPath, depths⟩ := h
    obtain ⟨front, files⟩ := List.append_inj same
      (by simp only [List.length_append, length_splitOn, inTarget, inPath])
    obtain ⟨targets, paths⟩ := List.append_inj front (by simp only [length_splitOn, inTarget])
    have chains := Location.chain_eq_of_dottedPath hl hm (splitOn_injective paths)
    exact ⟨String.toList_inj.mp (splitOn_injective targets),
      Location.eq_of_chain chains depths (String.toList_inj.mp (splitOn_injective files))⟩

/-- The arity keeps two types of one name in one container apart. -/
theorem derive_ne_of_arity :
    derive "IShape" ⟨["Geometry"], [("Outer", 1)], "Shape", 0, "Shapes.cs"⟩ ≠
      derive "IShape" ⟨["Geometry"], [("Outer", 1)], "Shape", 1, "Shapes.cs"⟩ := by
  have plain : Location.WellNamed ⟨["Geometry"], [("Outer", 1)], "Shape", 0, "Shapes.cs"⟩ :=
    ⟨by decide, by decide, by decide⟩
  have generic : Location.WellNamed ⟨["Geometry"], [("Outer", 1)], "Shape", 1, "Shapes.cs"⟩ :=
    ⟨by decide, by decide, by decide⟩
  intro equal
  have same := (derive_injective_iff_cuts plain generic).mpr (by decide +kernel) equal
  exact absurd same.2 (by decide)

/-- The key does not tell whether the word `A` ends the target or begins the name of the type. -/
theorem derive_collision_of_underscore :
    isIdentifier "I_A" = true ∧ isIdentifier "I" = true ∧
      Location.WellNamed ⟨[], [], "B", 0, "F.cs"⟩ ∧ Location.WellNamed ⟨[], [], "A_B", 0, "F.cs"⟩ ∧
      derive "I_A" ⟨[], [], "B", 0, "F.cs"⟩ = derive "I" ⟨[], [], "A_B", 0, "F.cs"⟩ ∧
      "I_A" ≠ "I" := by
  refine ⟨by decide, by decide, ⟨by decide, by decide, by decide⟩,
    ⟨by decide, by decide, by decide⟩, by decide +kernel, by decide⟩

end SourceKey
end InterfaceGen
