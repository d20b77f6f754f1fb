import InterfaceGen.Attribute.Printer

/-!
Escapes in literals. Both kinds of literal follow one rule, with a table of their own: a character
of the table is written as a backslash and the letter that the table has for it, any other character
as it is. Since the backslash is in each table and no letter stands for two characters, no escape
begins another, and a text between quotes that are escaped inside it ends at its own quote.
-/

namespace InterfaceGen
namespace Literal

/-- A character written by a table of escapes. -/
def escapeBy (table : List (Char × Char)) (c : Char) : List Char :=
  match table.lookup c with
  | some letter => ['\\', letter]
  | none => [c]

def textEscapes : List (Char × Char) :=
  [('\x22', '\x22'), ('\\', '\\'), ('\n', 'n'), ('\r', 'r'), ('\t', 't'), ('\x00', '0')]

def charEscapes : List (Char × Char) :=
  [('\x27', '\x27'), ('\\', '\\')]

theorem escapeBy_nil (c : Char) : escapeBy [] c = [c] := rfl

theorem escapeBy_cons (special letter : Char) (table : List (Char × Char)) (c : Char) :
    escapeBy ((special, letter) :: table) c =
      if c = special then ['\\', letter] else escapeBy table c := by
  unfold escapeBy
  rw [List.lookup_cons]
  by_cases same : c = special
  · simp [same]
  · have differs : (c == special) = false := beq_false_of_ne same
    rw [differs, if_neg same]

theorem toList_escapeInText (c : Char) : (escapeInText c).toList = escapeBy textEscapes c := by
  simp [escapeInText, textEscapes, escapeBy_cons, escapeBy_nil, apply_ite String.toList]

theorem toList_escapeInChar (c : Char) : (escapeInChar c).toList = escapeBy charEscapes c := by
  simp [escapeInChar, charEscapes, escapeBy_cons, escapeBy_nil, apply_ite String.toList]

theorem toList_joined_escapeInText (text : List Char) :
    (Text.joined (text.map escapeInText)).toList = text.flatMap (escapeBy textEscapes) := by
  induction text with
  | nil => rfl
  | cons c text ih =>
      rw [List.map_cons, Text.joined, String.toList_append, toList_escapeInText, ih,
        List.flatMap_cons]

/-- A table whose escapes can be told apart: the backslash is in it, and no letter stands for two
characters. -/
structure IsCode (table : List (Char × Char)) : Prop where
  backslash : table.lookup '\\' ≠ none
  letters : ∀ first ∈ table, ∀ second ∈ table, first.2 = second.2 → first.1 = second.1

theorem isCode_textEscapes : IsCode textEscapes :=
  ⟨by decide, by decide⟩

theorem isCode_charEscapes : IsCode charEscapes :=
  ⟨by decide, by decide⟩

theorem mem_of_lookup {table : List (Char × Char)} {c letter : Char}
    (found : table.lookup c = some letter) : (c, letter) ∈ table := by
  obtain ⟨front, back, split, _⟩ := List.lookup_eq_some_iff.mp found
  rw [split]
  exact List.mem_append_right _ List.mem_cons_self

/-- What begins with an escape determines the character, and what is left. -/
theorem IsCode.append_inj {table : List (Char × Char)} (code : IsCode table) {c d : Char}
    {rest more : List Char} (same : escapeBy table c ++ rest = escapeBy table d ++ more) :
    c = d ∧ rest = more := by
  unfold escapeBy at same
  cases first : table.lookup c with
  | some letter =>
      cases second : table.lookup d with
      | some other =>
          simp only [first, second, List.cons_append, List.nil_append, List.cons.injEq,
            true_and] at same
          exact ⟨code.letters _ (mem_of_lookup first) _ (mem_of_lookup second) same.1, same.2⟩
      | none =>
          simp only [first, second, List.cons_append, List.cons.injEq] at same
          rw [← same.1] at second
          exact absurd second code.backslash
  | none =>
      cases second : table.lookup d with
      | some other =>
          simp only [first, second, List.cons_append, List.cons.injEq] at same
          rw [same.1] at first
          exact absurd first code.backslash
      | none =>
          simp only [first, second, List.cons_append, List.nil_append, List.cons.injEq] at same
          exact same

/-- A quote that the table escapes ends the text before it. -/
theorem IsCode.quoted_inj {table : List (Char × Char)} (code : IsCode table) {quote : Char}
    (escaped : table.lookup quote ≠ none) (other : quote ≠ '\\') {text others : List Char}
    {rest more : List Char}
    (same : text.flatMap (escapeBy table) ++ quote :: rest =
      others.flatMap (escapeBy table) ++ quote :: more) :
    text = others ∧ rest = more := by
  have unescaped (d : Char) (left right : List Char) :
      quote :: left ≠ escapeBy table d ++ right := by
    unfold escapeBy
    cases found : table.lookup d with
    | some letter => simp [other]
    | none =>
        intro begins
        have here : quote = d := (List.cons.inj begins).1
        rw [here] at escaped
        exact escaped found
  induction text generalizing others with
  | nil =>
      cases others with
      | nil => exact ⟨rfl, (List.cons.inj same).2⟩
      | cons d others =>
          rw [List.flatMap_cons, List.append_assoc] at same
          exact absurd same (unescaped d _ _)
  | cons c text ih =>
      cases others with
      | nil =>
          rw [List.flatMap_cons, List.append_assoc] at same
          exact absurd same.symm (unescaped c _ _)
      | cons d others =>
          rw [List.flatMap_cons, List.flatMap_cons, List.append_assoc, List.append_assoc] at same
          obtain ⟨head, left⟩ := code.append_inj same
          obtain ⟨tail, after⟩ := ih left
          exact ⟨by rw [head, tail], after⟩

end Literal
end InterfaceGen
