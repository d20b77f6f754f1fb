import InterfaceGen.Text.CharClass

/-!
Operations on text: joining with a separator, trimming blanks, cutting into pieces and into lines.
All of them are defined on the list of characters, so that their laws are laws of lists.
-/

namespace InterfaceGen
namespace Text

/-- The items in order with the separator between neighbours. -/
def separated (separator : String) : List String → String
  | [] => ""
  | [item] => item
  | item :: next :: rest => item ++ separator ++ separated separator (next :: rest)

theorem separated_append (separator : String) {items more : List String}
    (nonempty : items ≠ []) (follows : more ≠ []) :
    separated separator (items ++ more) =
      separated separator items ++ separator ++ separated separator more := by
  obtain ⟨next, later, rfl⟩ := List.exists_cons_of_ne_nil follows
  induction items with
  | nil => exact absurd rfl nonempty
  | cons item rest ih =>
      cases rest with
      | nil => rfl
      | cons second others =>
          have tail := ih (List.cons_ne_nil second others)
          simp only [List.cons_append, separated] at tail ⊢
          rw [tail]
          simp only [String.append_assoc]

def commaSeparated (items : List String) : String :=
  separated ", " items

def joined : List String → String
  | [] => ""
  | item :: rest => item ++ joined rest

theorem joined_append (items more : List String) :
    joined (items ++ more) = joined items ++ joined more := by
  induction items with
  | nil => simp [joined]
  | cons item rest ih => simp [joined, ih, String.append_assoc]

/-- The items in angle brackets, as in `<A, B>`, and nothing at all for no items. -/
def angleList : List String → String
  | [] => ""
  | item :: rest => "<" ++ commaSeparated (item :: rest) ++ ">"

def repeated (item : String) : Nat → String
  | 0 => ""
  | count + 1 => item ++ repeated item count

def dropBlanks (text : List Char) : List Char :=
  text.dropWhile isBlank

def dropBlanksEnd (text : List Char) : List Char :=
  (dropBlanks text.reverse).reverse

def trimEnd (text : String) : String :=
  String.ofList (dropBlanksEnd text.toList)

def trim (text : String) : String :=
  String.ofList (dropBlanksEnd (dropBlanks text.toList))

/-- The pieces between the characters that `isCut` accepts: one more piece than there are such
characters, possibly empty. -/
def pieces (isCut : Char → Bool) : List Char → List (List Char)
  | [] => [[]]
  | c :: rest =>
      if isCut c then [] :: pieces isCut rest
      else
        match pieces isCut rest with
        | [] => [[c]]
        | piece :: others => (c :: piece) :: others

/-- The parts of a dotted name: cut at the points, trimmed, empty parts dropped. -/
def dottedParts (text : List Char) : List String :=
  ((pieces (· == '.') text).map fun piece => trim (String.ofList piece)).filter (· ≠ "")

/-- What follows `start` in `text`, if `text` begins with it. -/
def afterStart : List Char → List Char → Option (List Char)
  | [], text => some text
  | _ :: _, [] => none
  | s :: start, c :: text => if s = c then afterStart start text else none

/-- Drops `start` from the front of `text` as often as it stands there, at most `count` times. -/
def dropStartsUpTo (start : List Char) : (count : Nat) → (text : List Char) → List Char
  | 0, text => text
  | count + 1, text =>
      match afterStart start text with
      | some rest => dropStartsUpTo start count rest
      | none => text

/-- Drops a nonempty `start` from the front of `text` as often as it stands there. -/
def dropStarts (start text : List Char) : List Char :=
  dropStartsUpTo start text.length text

/-- Drops a carriage return from the end of a line that is held last character first. -/
def dropReturn : List Char → List Char
  | '\r' :: line => line
  | line => line

/-- The lines of a text. A line ends at a line feed, and a carriage return directly before that
line feed belongs to the line end. `line` holds the current line, last character first; an
unfinished last line counts when it is not empty. -/
def cutLines (line : List Char) : List Char → List (List Char)
  | [] => if line.isEmpty then [] else [line.reverse]
  | c :: rest =>
      if c = '\n' then (dropReturn line).reverse :: cutLines [] rest
      else cutLines (c :: line) rest

def lines (text : String) : List String :=
  (cutLines [] text.toList).map String.ofList

end Text
end InterfaceGen
