import InterfaceGen.Marker.Basic
import Mathlib.Data.List.Forall2

/-!
Which words name a marker. The test by byte lengths, start and end is exact: a word names an
attribute if it is its name, or its name with the class ending, and nothing else, whatever
characters are in it. No marker is the class name of another, so a word names one marker at most.
The access keywords before a member are then told attribute by attribute, and the order of the
markers plays no part.
-/

namespace InterfaceGen

/-- A text has one ending with a given number of bytes. -/
theorem Text.append_inj_of_utf8ByteSize {front other ending more : String}
    (same : front ++ ending = other ++ more) (size : ending.utf8ByteSize = more.utf8ByteSize) :
    front = other ∧ ending = more := by
  have bytes := congrArg String.toByteArray same
  rw [String.toByteArray_append, String.toByteArray_append] at bytes
  have total := congrArg String.utf8ByteSize same
  rw [String.utf8ByteSize_append, String.utf8ByteSize_append, size] at total
  have fronts : front.toByteArray.size = other.toByteArray.size := by
    simpa only [String.size_toByteArray] using Nat.add_right_cancel total
  obtain rfl := String.toByteArray_inj.mp (ByteArray.append_inj_left bytes fronts)
  exact ⟨rfl, (String.append_right_inj front).mp same⟩

namespace Attribute

/-- The word is the name of the attribute, or the name of its class. -/
def Calls (word base : String) : Prop :=
  word = base ∨ word = base ++ "Attribute"

/-- The test looks at no character twice: what follows the name has the size of the ending, and a
text has only one ending of that size. -/
theorem wordNames_iff {word base : String} : wordNames word base = true ↔ Calls word base := by
  unfold wordNames Calls
  constructor
  · split
    · intro same
      exact .inl (of_decide_eq_true same)
    · intro fits
      simp only [Bool.and_eq_true, decide_eq_true_eq, List.isPrefixOf_iff_prefix,
        List.isSuffixOf_iff_suffix] at fits
      obtain ⟨⟨size, ⟨rest, starts⟩⟩, ⟨front, ends⟩⟩ := fits
      have fromStart : word = base ++ String.ofList rest := by
        apply String.toList_inj.mp
        rw [← starts, String.toList_append, String.toList_ofList]
      have fromEnd : word = String.ofList front ++ classEnding := by
        apply String.toList_inj.mp
        rw [← ends, String.toList_append, String.toList_ofList]
      have restSize : (String.ofList rest).utf8ByteSize = classEnding.utf8ByteSize := by
        rw [fromStart, String.utf8ByteSize_append] at size
        exact Nat.add_left_cancel size
      obtain ⟨-, ending⟩ :=
        Text.append_inj_of_utf8ByteSize (fromStart.symm.trans fromEnd) restSize
      rw [ending] at fromStart
      exact .inr fromStart
  · rintro (rfl | rfl)
    · simp
    · have longer : (base ++ "Attribute").utf8ByteSize ≠ base.utf8ByteSize := by
        rw [String.utf8ByteSize_append]
        exact Nat.ne_of_gt (Nat.lt_add_of_pos_right (by decide))
      rw [if_neg longer]
      simp [classEnding, String.utf8ByteSize_append]

/-- A word calls two attributes only if one of them is the class of the other. -/
theorem Calls.cases {word base other : String} (h : Calls word base) (k : Calls word other) :
    base = other ∨ base = other ++ "Attribute" ∨ other = base ++ "Attribute" := by
  obtain rfl | rfl := h
  · obtain same | longer := k
    · exact .inl same
    · exact .inr (.inl longer)
  · obtain longer | same := k
    · exact .inr (.inr longer.symm)
    · exact .inl ((String.append_left_inj _).mp same)

end Attribute

namespace Marker
open Attribute

/-- The names of all markers. -/
def names : List String :=
  request :: ignore :: access.map Prod.fst

theorem eq_of_calls {word marker other : String} (listed : marker ∈ names)
    (otherListed : other ∈ names) (h : Calls word marker) (k : Calls word other) :
    marker = other := by
  have apart : ∀ marker ∈ names, ∀ other ∈ names, marker ≠ other ++ "Attribute" := by
    decide +kernel
  obtain same | longer | shorter := h.cases k
  · exact same
  · exact absurd longer (apart marker listed other otherListed)
  · exact absurd shorter (apart other otherListed marker listed)

/-- A word calls one row of the marker table at most. -/
theorem row_eq_of_calls {word : String} {row other : String × String} (listed : row ∈ access)
    (otherListed : other ∈ access) (h : Calls word row.1) (k : Calls word other.1) :
    row = other := by
  have inNames {row : String × String} (listed : row ∈ access) : row.1 ∈ names :=
    List.mem_cons_of_mem _ (List.mem_cons_of_mem _ (List.mem_map_of_mem listed))
  have keys : ∀ row ∈ access, ∀ other ∈ access, row.1 = other.1 → row = other := by
    decide +kernel
  exact keys row listed other otherListed
    (eq_of_calls (inNames listed) (inNames otherListed) h k)

section Table

variable {table : List (String × String)}

/-- The keyword of the first marker in a table that the attribute names. -/
def keywordIn (table : List (String × String)) (attr : Attribute) : Option String :=
  (table.find? fun marker => wordNames attr.word marker.1).map Prod.snd

/-- The access keywords of all attributes by the markers of a table. -/
def keywordsIn (table : List (String × String)) (sections : List AttributeSection) : String :=
  Text.joined
    (((AttributeSection.allAttributes sections).filterMap (keywordIn table)).map (· ++ " "))

theorem called_of_find? (perm : table.Perm access) {attr : Attribute} {marker : String × String}
    (found : table.find? (fun marker => wordNames attr.word marker.1) = some marker) :
    marker ∈ access ∧ Calls attr.word marker.1 := by
  have names : wordNames attr.word marker.1 = true := by simpa using List.find?_some found
  exact ⟨perm.mem_iff.mp (List.mem_of_find?_eq_some found), wordNames_iff.mp names⟩

/-- In whatever order the markers stand, the search finds the one that is named. -/
theorem keywordIn_eq_some_iff (perm : table.Perm access) {attr : Attribute} {keyword : String} :
    keywordIn table attr = some keyword ↔
      ∃ marker ∈ access, Calls attr.word marker.1 ∧ marker.2 = keyword := by
  rw [keywordIn, Option.map_eq_some_iff]
  constructor
  · rintro ⟨marker, found, rfl⟩
    obtain ⟨listed, calls⟩ := called_of_find? perm found
    exact ⟨marker, listed, calls, rfl⟩
  · rintro ⟨marker, listed, calls, rfl⟩
    have here : (table.find? fun marker => wordNames attr.word marker.1).isSome = true :=
      List.find?_isSome.mpr ⟨marker, perm.mem_iff.mpr listed, wordNames_iff.mpr calls⟩
    obtain ⟨first, found⟩ := Option.isSome_iff_exists.mp here
    obtain ⟨firstListed, firstCalls⟩ := called_of_find? perm found
    obtain rfl := row_eq_of_calls firstListed listed firstCalls calls
    exact ⟨first, found, rfl⟩

theorem keywordIn_eq_of_perm (perm : table.Perm access) : keywordIn table = keywordIn access := by
  funext attr
  ext keyword
  rw [keywordIn_eq_some_iff perm, keywordIn_eq_some_iff (List.Perm.refl access)]

end Table

/-- What an attribute puts before a member: the keyword of the marker that it names and a blank, or
nothing if it names none. -/
inductive Puts (attr : Attribute) : String → Prop where
  | keyword {marker : String × String} (listed : marker ∈ access)
      (calls : Calls attr.word marker.1) : Puts attr (marker.2 ++ " ")
  | nothing (uncalled : ∀ marker ∈ access, ¬ Calls attr.word marker.1) : Puts attr ""

theorem puts_iff {attr : Attribute} {text : String} :
    Puts attr text ↔ ((keywordIn access attr).map (· ++ " ")).getD "" = text := by
  have some_iff (keyword : String) : keywordIn access attr = some keyword ↔
      ∃ marker ∈ access, Calls attr.word marker.1 ∧ marker.2 = keyword :=
    keywordIn_eq_some_iff (List.Perm.refl access)
  cases found : keywordIn access attr with
  | none =>
      have uncalled : ∀ marker ∈ access, ¬ Calls attr.word marker.1 := by
        intro marker listed calls
        have here := (some_iff marker.2).mpr ⟨marker, listed, calls, rfl⟩
        rw [found] at here
        cases here
      constructor
      · rintro (⟨listed, calls⟩ | _)
        · exact absurd calls (uncalled _ listed)
        · rfl
      · rintro rfl
        exact .nothing uncalled
  | some keyword =>
      obtain ⟨marker, listed, calls, rfl⟩ := (some_iff keyword).mp found
      constructor
      · rintro (⟨otherListed, otherCalls⟩ | uncalled)
        · rw [row_eq_of_calls otherListed listed otherCalls calls]
          rfl
        · exact absurd calls (uncalled marker listed)
      · rintro rfl
        exact .keyword listed calls

theorem joined_filterMap_keyword (attributes : List Attribute) :
    Text.joined ((attributes.filterMap (keywordIn access)).map (· ++ " ")) =
      Text.joined (attributes.map fun attr =>
        ((keywordIn access attr).map (· ++ " ")).getD "") := by
  induction attributes with
  | nil => rfl
  | cons attr rest ih =>
      cases found : keywordIn access attr with
      | none => simp [found, Text.joined, ih]
      | some keyword => simp [found, Text.joined, ih]

theorem accessKeywords_eq_iff (sections : List AttributeSection) (text : String) :
    accessKeywords sections = text ↔
      ∃ texts, List.Forall₂ Puts (AttributeSection.allAttributes sections) texts ∧
        Text.joined texts = text := by
  have each (texts : List String) :
      List.Forall₂ Puts (AttributeSection.allAttributes sections) texts ↔
        (AttributeSection.allAttributes sections).map (fun attr =>
          ((keywordIn access attr).map (· ++ " ")).getD "") = texts := by
    rw [← List.forall₂_eq_eq_eq, List.forall₂_map_left_iff]
    simp only [← puts_iff]
  simp only [each, exists_eq_left', ← joined_filterMap_keyword]
  rfl

/-- A word names an attribute exactly if it is its name or that name with the class ending. Hence it
names one marker at most, and the access keywords of a member are those of the markers that its
attributes name, one by one in their order and in no way by the order of the markers. -/
theorem wordNames_exact :
    (∀ word base : String,
      wordNames word base = true ↔ word = base ∨ word = base ++ "Attribute") ∧
      (∀ word : String, ∀ marker ∈ names, ∀ other ∈ names, wordNames word marker = true →
        wordNames word other = true → marker = other) ∧
      ∀ sections : List AttributeSection,
        (∀ text, accessKeywords sections = text ↔
          ∃ texts, List.Forall₂ Puts (sections.flatMap AttributeSection.attributes) texts ∧
            Text.joined texts = text) ∧
        ∀ table : List (String × String), table.Perm access →
          keywordsIn table sections = accessKeywords sections := by
  refine ⟨fun word base => wordNames_iff, ?_, fun sections => ⟨?_, ?_⟩⟩
  · intro word marker listed other otherListed names otherNames
    exact eq_of_calls listed otherListed (wordNames_iff.mp names) (wordNames_iff.mp otherNames)
  · exact accessKeywords_eq_iff sections
  · intro table perm
    rw [keywordsIn, keywordIn_eq_of_perm perm]
    rfl

/-- The sections `[AutoInterfaceVisibilityProtectedInternal, Obsolete]` and
`[Marks.AutoInterfaceVisibilityProtectedAttribute]`. -/
def protectedSections : List AttributeSection :=
  [⟨none, [.ofText "AutoInterfaceVisibilityProtectedInternal" none, .ofText "Obsolete" none]⟩,
    ⟨none, [.ofText "Marks.AutoInterfaceVisibilityProtectedAttribute" none]⟩]

/-- Of the two markers one begins with the other; both are told apart, and also if the longer one
comes first in the table. -/
theorem wordNames_exact_protected :
    ¬ wordNames "AutoInterfaceVisibilityProtectedInternal" "AutoInterfaceVisibilityProtected" ∧
      (∀ marker ∈ names, wordNames "AutoInterfaceVisibilityProtectedAttribute" marker = true →
        marker = "AutoInterfaceVisibilityProtected") ∧
      accessKeywords protectedSections = "protected internal protected " ∧
      keywordsIn access.reverse protectedSections = "protected internal protected " := by
  obtain ⟨criterion, unique, keywords⟩ := wordNames_exact
  obtain ⟨texts, orderless⟩ := keywords protectedSections
  have first : Puts (.ofText "AutoInterfaceVisibilityProtectedInternal" none)
      "protected internal " :=
    .keyword (List.mem_of_getElem? (i := 3) rfl) (.inl (by decide +kernel))
  have second : Puts (.ofText "Obsolete" none) "" :=
    .nothing (by simp only [Calls]; decide +kernel)
  have third : Puts (.ofText "Marks.AutoInterfaceVisibilityProtectedAttribute" none)
      "protected " :=
    .keyword (List.mem_of_getElem? (i := 2) rfl) (.inr (by decide +kernel))
  have written : accessKeywords protectedSections = "protected internal protected " :=
    (texts _).mpr ⟨_, .cons first (.cons second (.cons third .nil)), rfl⟩
  refine ⟨?_, ?_, written, (orderless _ (List.reverse_perm access)).trans written⟩
  · rw [criterion]
    decide
  · intro marker listed names
    exact unique _ marker listed _ (by decide) names ((criterion _ _).mpr (.inr rfl))

end Marker

end InterfaceGen
