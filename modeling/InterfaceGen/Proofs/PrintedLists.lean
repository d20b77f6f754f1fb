import InterfaceGen.Proofs.TypeBoundaries

/-!
Printed lists of items. An item is followed by a comma or by the end of its list. If before these
the text of each item determines the item and the place where it ends, the text of a list determines
the items and the place where the list ends.
-/

namespace InterfaceGen
namespace Text

/-- The list of items ends here. -/
inductive ClosesList : List Char → Prop where
  | square (rest : List Char) : ClosesList (']' :: rest)
  | round (rest : List Char) : ClosesList (')' :: rest)
  | curly (rest : List Char) : ClosesList (' ' :: '\x7d' :: rest)

/-- The item ends here, before the next one or with the whole list. -/
inductive FollowsItem : List Char → Prop where
  | comma (rest : List Char) : FollowsItem (',' :: rest)
  | close {text : List Char} (closes : ClosesList text) : FollowsItem text

theorem FollowsItem.endsBefore {text : List Char} (h : FollowsItem text) :
    TypeRef.EndsBefore text := by
  cases h with
  | comma rest => exact TypeRef.endsBefore_mark (by decide) rest
  | close closes =>
      cases closes with
      | square rest => exact TypeRef.endsBefore_mark (by decide) rest
      | round rest => exact TypeRef.endsBefore_mark (by decide) rest
      | curly rest => exact (TypeRef.endsBefore_mark (by decide) rest).afterSpace

/-- Marks that stand after items. No item begins with one of them. -/
def itemMarks : List Char := [' ', ',', ']', ')', '\x7d']

def startsItem (c : Char) : Bool :=
  !itemMarks.contains c

theorem startsItem_of_startsType {c : Char} (h : TypeRef.startsType c = true) :
    startsItem c = true := by
  have apart : (itemMarks.all fun mark => !TypeRef.startsType mark) = true := by decide +kernel
  cases inside : itemMarks.contains c with
  | false => rw [startsItem, inside, Bool.not_false]
  | true =>
      have outside := List.all_eq_true.mp apart c (List.contains_iff_mem.mp inside)
      rw [h] at outside
      cases outside

theorem FollowsItem.not_beginsWith {text : List Char} (h : FollowsItem text) :
    beginsWith startsItem text = false := by
  cases h with
  | comma rest => rfl
  | close closes => cases closes <;> rfl

theorem FollowsItem.ne_cons {text : List Char} (h : FollowsItem text) {c : Char}
    (starts : startsItem c = true) (rest : List Char) : text ≠ c :: rest := by
  rw [← beginsWith_cons startsItem c rest] at starts
  exact (ne_of_beginsWith starts h.not_beginsWith).symm

/-- The items after the first one in a list. -/
def following (items : List String) : String :=
  joined (items.map (", " ++ ·))

theorem commaSeparated_cons (item : String) (items : List String) :
    commaSeparated (item :: items) = item ++ following items := by
  induction items generalizing item with
  | nil => simp [commaSeparated, separated, following, joined]
  | cons next items ih =>
      have later := ih next
      rw [commaSeparated] at later ⊢
      rw [separated, later, following, following, List.map_cons, joined, String.append_assoc,
        String.append_assoc]

theorem toList_following_cons (item : String) (items : List String) :
    (following (item :: items)).toList =
      ',' :: ' ' :: (item.toList ++ (following items).toList) := by
  simp [following, joined]

theorem followsItem_following (items : List String) {rest : List Char} (closes : ClosesList rest) :
    FollowsItem ((following items).toList ++ rest) := by
  cases items with
  | nil => exact .close closes
  | cons item items =>
      rw [toList_following_cons]
      exact .comma _

theorem beginsWith_commaSeparated {accepts : Char → Bool} {item : String}
    (h : beginsWith accepts item.toList = true) (items : List String) (rest : List Char) :
    beginsWith accepts ((commaSeparated (item :: items)).toList ++ rest) = true := by
  rw [commaSeparated_cons, String.toList_append, List.append_assoc]
  exact beginsWith_append h _

section Lists

variable {α : Type} {print : α → String} {Formed : α → Prop}

/-- Printed in a list, the item is told from any other, and so is the place where it ends. -/
def Determines (print : α → String) (Formed : α → Prop) (item : α) : Prop :=
  ∀ other, Formed other → ∀ rest more, FollowsItem rest → FollowsItem more →
    (print item).toList ++ rest = (print other).toList ++ more → item = other ∧ rest = more

theorem following_append_inj {items others : List α}
    (each : ∀ item ∈ items, Determines print Formed item) (formed : ∀ item ∈ others, Formed item)
    {rest more : List Char} (closes : ClosesList rest) (otherCloses : ClosesList more)
    (same : (following (items.map print)).toList ++ rest =
      (following (others.map print)).toList ++ more) :
    items = others ∧ rest = more := by
  induction items generalizing others with
  | nil =>
      cases others with
      | nil => exact ⟨rfl, same⟩
      | cons other others =>
          -- one list is closed where the other one goes on with a comma
          rw [List.map_cons, toList_following_cons] at same
          change rest = _ at same
          rw [same] at closes
          cases closes
  | cons item items ih =>
      rw [List.map_cons, toList_following_cons] at same
      cases others with
      | nil =>
          change _ = more at same
          rw [← same] at otherCloses
          cases otherCloses
      | cons other others =>
          rw [List.map_cons, toList_following_cons] at same
          simp only [List.cons_append, List.append_assoc, List.cons.injEq, true_and] at same
          obtain ⟨first, later⟩ := List.forall_mem_cons.mp each
          obtain ⟨otherFormed, othersFormed⟩ := List.forall_mem_cons.mp formed
          obtain ⟨rfl, left⟩ := first other otherFormed _ _ (followsItem_following _ closes)
            (followsItem_following _ otherCloses) same
          obtain ⟨rfl, after⟩ := ih later othersFormed left
          exact ⟨rfl, after⟩

theorem commaSeparated_append_inj
    (begins : ∀ item, Formed item → beginsWith startsItem (print item).toList = true)
    {items others : List α} (each : ∀ item ∈ items, Determines print Formed item)
    (formed : ∀ item ∈ items, Formed item) (othersFormed : ∀ item ∈ others, Formed item)
    {rest more : List Char} (closes : ClosesList rest) (otherCloses : ClosesList more)
    (same : (commaSeparated (items.map print)).toList ++ rest =
      (commaSeparated (others.map print)).toList ++ more) :
    items = others ∧ rest = more := by
  cases items with
  | nil =>
      cases others with
      | nil => exact ⟨rfl, same⟩
      | cons other others =>
          have starts := begins other (othersFormed other List.mem_cons_self)
          exact absurd same.symm (ne_of_beginsWith (beginsWith_commaSeparated starts _ more)
            (FollowsItem.close closes).not_beginsWith)
  | cons item items =>
      cases others with
      | nil =>
          have starts := begins item (formed item List.mem_cons_self)
          exact absurd same (ne_of_beginsWith (beginsWith_commaSeparated starts _ rest)
            (FollowsItem.close otherCloses).not_beginsWith)
      | cons other others =>
          rw [List.map_cons, List.map_cons, commaSeparated_cons, commaSeparated_cons,
            String.toList_append, String.toList_append, List.append_assoc, List.append_assoc] at same
          obtain ⟨first, later⟩ := List.forall_mem_cons.mp each
          obtain ⟨otherFormed, laterFormed⟩ := List.forall_mem_cons.mp othersFormed
          obtain ⟨rfl, left⟩ := first other otherFormed _ _ (followsItem_following _ closes)
            (followsItem_following _ otherCloses) same
          obtain ⟨rfl, after⟩ := following_append_inj later laterFormed closes otherCloses left
          exact ⟨rfl, after⟩

end Lists
end Text
end InterfaceGen
