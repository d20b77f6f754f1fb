import InterfaceGen.Proofs.EscapedText
import InterfaceGen.Proofs.LinesAndBlanks
import InterfaceGen.Proofs.ReferenceLayout

/-!
Line breaks in printed attributes. Apart from keywords, marks and blanks a section of attributes is
made of text that stands as it is, of string literals and of character literals. String literals
escape both line breaks and character literals escape neither, so a section whose other text has no
line break is printed on one line exactly if none of its character literals is a line break.
-/

namespace InterfaceGen
namespace Text

def isLineBreak (c : Char) : Bool :=
  c == '\n' || c == '\r'

def isOneLine (text : String) : Bool :=
  text.toList.all (!isLineBreak ·)

@[simp] theorem isOneLine_append (text more : String) :
    isOneLine (text ++ more) = (isOneLine text && isOneLine more) := by
  rw [isOneLine, String.toList_append, List.all_append]
  rfl

theorem isOneLine_joined (items : List String) :
    isOneLine (joined items) = items.all isOneLine := by
  induction items with
  | nil => rfl
  | cons item rest ih => rw [joined, isOneLine_append, ih, List.all_cons]

theorem isOneLine_separated {separator : String} (plain : isOneLine separator = true)
    (items : List String) : isOneLine (separated separator items) = items.all isOneLine := by
  fun_induction separated separator items with
  | case1 => rfl
  | case2 item => simp
  | case3 item next rest ih =>
      rw [isOneLine_append, isOneLine_append, plain, Bool.and_true, ih, ← List.all_cons]

theorem isOneLine_commaSeparated (items : List String) :
    isOneLine (commaSeparated items) = items.all isOneLine :=
  isOneLine_separated (by decide) items

theorem isOneLine_repeated {item : String} (h : isOneLine item = true) (count : Nat) :
    isOneLine (repeated item count) = true := by
  induction count with
  | zero => rfl
  | succ count ih => rw [repeated, isOneLine_append, h, ih, Bool.and_true]

theorem isLine_of_isOneLine {text : String} (plain : isOneLine text = true) : IsLine text := by
  have chars : ∀ c ∈ text.toList, isLineBreak c = false := by simpa [isOneLine] using plain
  constructor
  · intro feed
    cases chars _ feed
  · intro ending
    cases chars _ (List.mem_of_getLast? ending)

theorem lines_append {text : String} (plain : isOneLine text = true) (rest : String) :
    lines (text ++ "\n" ++ rest) = text :: lines rest :=
  lines_cons (isLine_of_isOneLine plain) rest

end Text

namespace Literal

/-- An escape table keeps a property of characters that the backslash and its letters have. -/
theorem all_escapeBy {accepts : Char → Bool} {table : List (Char × Char)}
    (backslash : accepts '\\' = true) (letters : ∀ entry ∈ table, accepts entry.2 = true)
    (c : Char) :
    (escapeBy table c).all accepts = ((table.lookup c).isSome || accepts c) := by
  unfold escapeBy
  cases found : table.lookup c with
  | none => simp
  | some letter => simp [backslash, letters _ (mem_of_lookup found)]

theorem isOneLine_escapeInText (c : Char) : Text.isOneLine (escapeInText c) = true := by
  rw [Text.isOneLine, toList_escapeInText, all_escapeBy (by decide) (by decide)]
  cases broken : Text.isLineBreak c with
  | false => simp
  | true =>
      have escaped : c = '\n' ∨ c = '\r' := by simpa [Text.isLineBreak] using broken
      obtain rfl | rfl := escaped <;> rfl

theorem isOneLine_escapeInChar (c : Char) :
    Text.isOneLine (escapeInChar c) = !Text.isLineBreak c := by
  rw [Text.isOneLine, toList_escapeInChar, all_escapeBy (by decide) (by decide)]
  cases found : charEscapes.lookup c with
  | none => rfl
  | some letter =>
      have plain : ∀ entry ∈ charEscapes, Text.isLineBreak entry.1 = false := by decide
      rw [plain _ (mem_of_lookup found)]
      rfl

end Literal

/-- What a printed section is made of, apart from keywords, marks and blanks. -/
inductive Piece where
  /-- Text that stands as it is. -/
  | written (text : String)
  /-- A string literal. -/
  | quoted (value : String)
  /-- A character literal. -/
  | char (value : Char)
  deriving DecidableEq

/-- The piece is printed without line breaks. -/
def Piece.isOneLine : Piece → Bool
  | .written text => Text.isOneLine text
  | .quoted _ => true
  | .char value => !Text.isLineBreak value

/-- Items are printed on one line each if this holds of their pieces. -/
theorem Piece.all_isOneLine_map {α : Type} {print : α → String} {pieces : α → List Piece}
    {items : List α}
    (each : ∀ item ∈ items, Text.isOneLine (print item) = (pieces item).all isOneLine) :
    (items.map print).all Text.isOneLine = (items.flatMap pieces).all isOneLine := by
  rw [List.all_map, List.all_flatMap, Bool.eq_iff_iff, List.all_eq_true, List.all_eq_true]
  refine forall₂_congr fun item member => ?_
  rw [Function.comp_apply, each item member]

mutual

def ArgumentValue.pieces : ArgumentValue → List Piece
  | .literal (.text value) => [.quoted value]
  | .literal (.char value) => [.char value]
  | .literal (.number digits) => [.written digits]
  | .literal (.bool _) | .literal .null => []
  | .typeOf type | .newArray type none => [.written type.render]
  | .collection items | .implicitArray items => ArgumentValue.piecesEach items
  | .newArray type (some items) => .written type.render :: ArgumentValue.piecesEach items
  | .other text => [.written text]

def ArgumentValue.piecesEach : List ArgumentValue → List Piece
  | [] => []
  | value :: rest => value.pieces ++ ArgumentValue.piecesEach rest

end

def Argument.pieces (argument : Argument) : List Piece :=
  argument.name.toList.map .written ++ argument.value.pieces

def Attribute.pieces (attr : Attribute) : List Piece :=
  .written attr.name.render :: (attr.arguments.getD []).flatMap Argument.pieces

def AttributeSection.pieces (attributes : AttributeSection) : List Piece :=
  attributes.target.toList.map .written ++ attributes.attributes.flatMap Attribute.pieces

namespace ArgumentValue

/-- Induction with a hypothesis for each element of an array. -/
@[elab_as_elim]
theorem inductionOn {motive : ArgumentValue → Prop} (literal : ∀ value, motive (.literal value))
    (typeOf : ∀ type, motive (.typeOf type))
    (collection : ∀ items, (∀ item ∈ items, motive item) → motive (.collection items))
    (implicitArray : ∀ items, (∀ item ∈ items, motive item) → motive (.implicitArray items))
    (newArray : ∀ type items, (∀ list ∈ items, ∀ item ∈ list, motive item) →
      motive (.newArray type items))
    (other : ∀ text, motive (.other text)) (value : ArgumentValue) : motive value := by
  refine @ArgumentValue.rec motive (fun items => ∀ item ∈ items, motive item)
    (fun items => ∀ list ∈ items, ∀ item ∈ list, motive item) literal typeOf collection
    implicitArray newArray other ?_ ?_ ?_ ?_ value
  · exact fun _ member => by cases member
  · exact fun _ _ head tail => List.forall_mem_cons.mpr ⟨head, tail⟩
  · exact fun _ member => by cases member
  · exact fun _ each _ member => by
      cases member
      exact each

@[simp] theorem piecesEach_eq_flatMap (values : List ArgumentValue) :
    piecesEach values = values.flatMap pieces := by
  induction values with
  | nil => rfl
  | cons value rest ih => rw [piecesEach, ih, List.flatMap_cons]

theorem isOneLine_initializer (items : List String) :
    Text.isOneLine (initializer items) = items.all Text.isOneLine := by
  have braces : Text.isOneLine "\x7b " = true ∧ Text.isOneLine " \x7d" = true := by decide
  cases items with
  | nil => decide
  | cons item items => simp [initializer, Text.isOneLine_commaSeparated, braces]

theorem isOneLine_render_literal (value : Literal) :
    Text.isOneLine value.render = (ArgumentValue.literal value).pieces.all Piece.isOneLine := by
  cases value with
  | text value =>
      have quotes : Text.isOneLine "\"" = true := by decide
      simp [Literal.render, pieces, Piece.isOneLine, Text.isOneLine_joined, quotes,
        Literal.isOneLine_escapeInText]
  | bool value => cases value <;> decide
  | number digits => simp [Literal.render, pieces, Piece.isOneLine]
  | char value =>
      have quotes : Text.isOneLine "\x27" = true := by decide
      simp [Literal.render, pieces, Piece.isOneLine, quotes, Literal.isOneLine_escapeInChar]
  | null => decide

/-- A value is printed on one line if each of its pieces is. -/
theorem isOneLine_render (value : ArgumentValue) :
    Text.isOneLine value.render = value.pieces.all Piece.isOneLine := by
  have marks : ∀ mark ∈ ["typeof(", ")", "[", "]", "new[] ", "new ", " "],
      Text.isOneLine mark = true := by decide
  simp only [List.forall_mem_cons] at marks
  induction value using inductionOn with
  | literal value => exact isOneLine_render_literal value
  | typeOf type => simp [render, pieces, Piece.isOneLine, marks]
  | collection items ih =>
      rw [render, pieces, piecesEach_eq_flatMap, ← Piece.all_isOneLine_map ih, renderEach_eq_map]
      simp [marks, Text.isOneLine_commaSeparated]
  | implicitArray items ih =>
      rw [render, pieces, piecesEach_eq_flatMap, ← Piece.all_isOneLine_map ih, renderEach_eq_map]
      simp [marks, isOneLine_initializer]
  | newArray type items ih =>
      cases items with
      | none => simp [render, pieces, Piece.isOneLine, marks]
      | some items =>
          rw [render, pieces, List.all_cons, piecesEach_eq_flatMap,
            ← Piece.all_isOneLine_map (ih items rfl), renderEach_eq_map]
          simp [marks, isOneLine_initializer, Piece.isOneLine]
  | other text => simp [render, pieces, Piece.isOneLine]

end ArgumentValue

theorem Argument.isOneLine_render (argument : Argument) :
    Text.isOneLine argument.render = argument.pieces.all Piece.isOneLine := by
  have sign : Text.isOneLine " = " = true := by decide
  obtain ⟨name, value⟩ := argument
  cases name with
  | none => exact value.isOneLine_render
  | some name => simp [render, pieces, Piece.isOneLine, sign, value.isOneLine_render]

theorem Attribute.isOneLine_render (attr : Attribute) :
    Text.isOneLine attr.render = attr.pieces.all Piece.isOneLine := by
  have brackets : Text.isOneLine "(" = true ∧ Text.isOneLine ")" = true := by decide
  obtain ⟨name, arguments⟩ := attr
  cases arguments with
  | none => simp [render, pieces, Piece.isOneLine]
  | some arguments =>
      have each := Piece.all_isOneLine_map fun argument (_ : argument ∈ arguments) =>
        argument.isOneLine_render
      rw [pieces, List.all_cons, Option.getD_some, ← each]
      simp [render, Piece.isOneLine, brackets, Text.isOneLine_commaSeparated]

namespace AttributeSection

/-- A section is printed on one line if each of its pieces is. -/
theorem isOneLine_render (attributes : AttributeSection) :
    Text.isOneLine attributes.render = attributes.pieces.all Piece.isOneLine := by
  have marks : ∀ mark ∈ ["[", ": ", "]"], Text.isOneLine mark = true := by decide
  simp only [List.forall_mem_cons] at marks
  obtain ⟨target, attributes⟩ := attributes
  have each := Piece.all_isOneLine_map fun attr (_ : attr ∈ attributes) => attr.isOneLine_render
  rw [pieces, List.all_append, ← each]
  cases target with
  | none => simp [render, marks, Text.isOneLine_commaSeparated]
  | some target => simp [render, marks, Text.isOneLine_commaSeparated, Piece.isOneLine]

/-- Where all other text is without line breaks, a section is printed on one line exactly if no
character literal in it is a line break, and is then one whole line of the source. -/
theorem isOneLine_render_iff {attributes : AttributeSection}
    (written : ∀ text, .written text ∈ attributes.pieces → Text.isOneLine text = true) :
    (Text.isOneLine attributes.render = true ↔
      ∀ c, .char c ∈ attributes.pieces → Text.isLineBreak c = false) ∧
    ((∀ c, .char c ∈ attributes.pieces → Text.isLineBreak c = false) →
      ∀ indent, Text.isOneLine indent = true → ∀ depth rest,
        Text.lines (Layout.lineAt indent depth attributes.render ++ rest) =
          (Text.repeated indent depth ++ attributes.render) :: Text.lines rest) := by
  have broken : Text.isOneLine attributes.render = true ↔
      ∀ c, .char c ∈ attributes.pieces → Text.isLineBreak c = false := by
    rw [isOneLine_render, List.all_eq_true]
    constructor
    · intro each c member
      simpa [Piece.isOneLine] using each (.char c) member
    · intro chars piece member
      cases piece with
      | written text => exact written text member
      | quoted value => rfl
      | char c => simpa [Piece.isOneLine] using chars c member
  refine ⟨broken, ?_⟩
  intro chars indent plain depth rest
  apply Text.lines_append
  rw [Text.isOneLine_append, Text.isOneLine_repeated plain, broken.mpr chars, Bool.and_true]

/-- A section with a text and a character among its arguments. -/
def labelled (text : String) (c : Char) : AttributeSection :=
  ⟨some "return", [⟨.simple "Label", some [⟨none, .literal (.text text)⟩,
    ⟨some "Marks", .implicitArray [.literal (.char c), .other "X.Y"]⟩]⟩]⟩

theorem pieces_labelled (text : String) (c : Char) :
    (labelled text c).pieces = [.written "return", .written "Label", .quoted text,
      .written "Marks", .char c, .written "X.Y"] := by
  have name : (QualName.simple "Label").render = "Label" := by decide +kernel
  simp [labelled, pieces, Attribute.pieces, Argument.pieces, ArgumentValue.pieces, name]

theorem written_labelled (text : String) (c : Char) :
    ∀ words, .written words ∈ (labelled text c).pieces → Text.isOneLine words = true := by
  have texts : ∀ words ∈ ["return", "Label", "Marks", "X.Y"], Text.isOneLine words = true := by
    decide
  intro words member
  apply texts
  simpa [pieces_labelled] using member

theorem lines_labelled :
    Text.lines (Layout.lineAt "  " 1 (labelled "a\nb" '\x27').render ++ "int Count;\n") =
      ["  [return: Label(\"a\\nb\", Marks = new[] \x7b \x27\\\x27\x27, X.Y \x7d)]",
        "int Count;"] := by
  have chars : ∀ c, .char c ∈ (labelled "a\nb" '\x27').pieces → Text.isLineBreak c = false := by
    intro c member
    have quote : c = '\x27' := by simpa [pieces_labelled] using member
    rw [quote]
    decide
  rw [(isOneLine_render_iff (written_labelled _ _)).2 chars "  " (by decide) 1]
  decide +kernel

/-- A line feed as a character literal takes the section apart. -/
theorem not_isOneLine_labelled :
    (∀ words, .written words ∈ (labelled "a" '\n').pieces → Text.isOneLine words = true) ∧
      (labelled "a" '\n').render =
        "[return: Label(\"a\", Marks = new[] \x7b \x27\n\x27, X.Y \x7d)]" ∧
      Text.isOneLine (labelled "a" '\n').render = false :=
  ⟨written_labelled _ _, by decide +kernel, by decide +kernel⟩

end AttributeSection
end InterfaceGen
