import InterfaceGen.Text.Basic
import Mathlib.Data.List.DropRight

/-!
Laws of trimming and of cutting text into lines. A trimmed text differs from the text by blanks at
its two ends, and trimming it again changes nothing. Lines without line feeds that do not end with a
carriage return are cut apart again where they were joined.
-/

namespace InterfaceGen
namespace Text

/-- There is no blank at the end of the text. -/
def EndsVisible (text : List Char) : Prop :=
  ∀ c ∈ text.getLast?, isBlank c = false

theorem dropBlanksEnd_eq_self_iff {text : List Char} :
    dropBlanksEnd text = text ↔ EndsVisible text := by
  change text.rdropWhile isBlank = text ↔ _
  rw [List.rdropWhile_eq_self_iff, EndsVisible]
  obtain rfl | ⟨front, last, rfl⟩ := List.eq_nil_or_concat text
  · simp
  · simp

theorem endsVisible_dropBlanksEnd (text : List Char) : EndsVisible (dropBlanksEnd text) :=
  dropBlanksEnd_eq_self_iff.mp (List.rdropWhile_idempotent isBlank text)

theorem EndsVisible.append {text more : List Char} (h : EndsVisible text) (k : EndsVisible more) :
    EndsVisible (text ++ more) := by
  intro c last
  rw [List.getLast?_append] at last
  obtain later | ⟨-, here⟩ := Option.or_eq_some_iff.mp last
  · exact k c later
  · exact h c here

theorem dropBlanks_of_visible {text : List Char} (visible : ∀ c ∈ text.head?, isBlank c = false) :
    dropBlanks text = text := by
  cases text with
  | nil => rfl
  | cons c rest => exact List.dropWhile_cons_of_neg (by simp [visible c rfl])

theorem visible_dropBlanks (text : List Char) :
    ∀ c ∈ (dropBlanks text).head?, isBlank c = false := by
  intro c head
  have stops := List.head?_dropWhile_not isBlank text
  rw [← dropBlanks, Option.mem_def.mp head] at stops
  exact stops

theorem trim_trim (text : String) : trim (trim text) = trim text := by
  have visible : ∀ c ∈ (dropBlanksEnd (dropBlanks text.toList)).head?, isBlank c = false := by
    intro c head
    obtain ⟨after, whole⟩ := List.rdropWhile_prefix isBlank (dropBlanks text.toList)
    apply visible_dropBlanks text.toList c
    rw [← whole]
    exact List.mem_head?_append_of_mem_head? head
  rw [trim, trim, String.toList_ofList, dropBlanks_of_visible visible,
    dropBlanksEnd_eq_self_iff.mpr (endsVisible_dropBlanksEnd _)]

/-- Trimming takes nothing but blanks away. -/
theorem exists_blanks_around (text : String) :
    ∃ before after : List Char, (∀ c ∈ before, isBlank c = true) ∧
      (∀ c ∈ after, isBlank c = true) ∧ text.toList = before ++ ((trim text).toList ++ after) := by
  refine ⟨text.toList.takeWhile isBlank, (dropBlanks text.toList).rtakeWhile isBlank,
    List.all_eq_true.mp List.all_takeWhile, fun c => List.mem_rtakeWhile_imp, ?_⟩
  have ends : dropBlanksEnd (dropBlanks text.toList) ++
      (dropBlanks text.toList).rtakeWhile isBlank = dropBlanks text.toList :=
    List.rdropWhile_append_rtakeWhile
  rw [trim, String.toList_ofList, ends]
  exact List.takeWhile_append_dropWhile.symm

theorem cutLines_append {text : List Char} (unbroken : '\n' ∉ text) (line rest : List Char) :
    cutLines line (text ++ rest) = cutLines (text.reverse ++ line) rest := by
  induction text generalizing line with
  | nil => rfl
  | cons c text ih =>
      have other : c ≠ '\n' := fun same => unbroken (same ▸ List.mem_cons_self)
      have later : '\n' ∉ text := fun listed => unbroken (List.mem_cons_of_mem c listed)
      rw [List.cons_append, cutLines, if_neg other, ih later, List.reverse_cons, List.append_assoc,
        List.singleton_append]

theorem dropReturn_of_head {line : List Char} (h : line.head? ≠ some '\r') :
    dropReturn line = line := by
  unfold dropReturn
  split
  · exact absurd rfl h
  · rfl

/-- A text that can stand on a line of its own. -/
structure IsLine (text : String) : Prop where
  unbroken : '\n' ∉ text.toList
  ending : text.toList.getLast? ≠ some '\r'

theorem EndsVisible.isLine {text : String} (h : EndsVisible text.toList)
    (unbroken : '\n' ∉ text.toList) : IsLine text where
  unbroken := unbroken
  ending last := by
    have visible : isBlank '\r' = false := h _ last
    revert visible
    decide

theorem lines_cons {line : String} (h : IsLine line) (rest : String) :
    lines (line ++ "\n" ++ rest) = line :: lines rest := by
  have kept : dropReturn line.toList.reverse = line.toList.reverse :=
    dropReturn_of_head (by rw [List.head?_reverse]; exact h.ending)
  have chars : (line ++ "\n" ++ rest).toList = line.toList ++ '\n' :: rest.toList := by simp
  rw [lines, chars, cutLines_append h.unbroken, List.append_nil, cutLines, if_pos rfl, kept,
    List.reverse_reverse, List.map_cons, String.ofList_toList]
  rfl

theorem lines_unfinished {line : String} (unbroken : '\n' ∉ line.toList) (nonempty : line ≠ "") :
    lines line = [line] := by
  have chars : line.toList ≠ [] := by simpa using nonempty
  have cut := cutLines_append unbroken [] []
  rw [List.append_nil, List.append_nil, cutLines, if_neg (by simpa using chars),
    List.reverse_reverse] at cut
  rw [lines, cut, List.map_singleton, String.ofList_toList]

theorem lines_joined {items : List String} (each : ∀ item ∈ items, IsLine item) :
    lines (joined (items.map (· ++ "\n"))) = items := by
  induction items with
  | nil => rfl
  | cons item rest ih =>
      obtain ⟨here, later⟩ := List.forall_mem_cons.mp each
      rw [List.map_cons, joined, lines_cons here, ih later]

theorem lines_separated {items : List String} (each : ∀ item ∈ items, IsLine item)
    (nonempty : ∀ item ∈ items, item ≠ "") : lines (separated "\n" items) = items := by
  fun_induction separated "\n" items with
  | case1 => rfl
  | case2 item =>
      exact lines_unfinished (each item List.mem_cons_self).unbroken
        (nonempty item List.mem_cons_self)
  | case3 item next rest ih =>
      obtain ⟨here, later⟩ := List.forall_mem_cons.mp each
      rw [lines_cons here, ih later (List.forall_mem_cons.mp nonempty).2]

theorem newline_not_mem_dropReturn {line : List Char} (unbroken : '\n' ∉ line) :
    '\n' ∉ dropReturn line := by
  unfold dropReturn
  split
  · exact fun listed => unbroken (List.mem_cons_of_mem _ listed)
  · exact unbroken

theorem newline_not_mem_cutLines {line : List Char} (text : List Char) (unbroken : '\n' ∉ line) :
    ∀ piece ∈ cutLines line text, '\n' ∉ piece := by
  induction text generalizing line with
  | nil =>
      intro piece listed
      unfold cutLines at listed
      split at listed
      · cases listed
      · rwa [List.mem_singleton.mp listed, List.mem_reverse]
  | cons c rest ih =>
      rw [cutLines]
      split
      · refine List.forall_mem_cons.mpr ⟨?_, ih List.not_mem_nil⟩
        rw [List.mem_reverse]
        exact newline_not_mem_dropReturn unbroken
      · rename_i other
        refine ih fun listed => ?_
        obtain same | before := List.mem_cons.mp listed
        · exact other same.symm
        · exact unbroken before

theorem newline_not_mem_of_mem_lines {text line : String} (h : line ∈ lines text) :
    '\n' ∉ line.toList := by
  obtain ⟨piece, cut, rfl⟩ := List.mem_map.mp h
  rw [String.toList_ofList]
  exact newline_not_mem_cutLines text.toList List.not_mem_nil piece cut

end Text
end InterfaceGen
