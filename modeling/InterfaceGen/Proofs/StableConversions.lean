import InterfaceGen.Proofs.LinesAndBlanks
import InterfaceGen.Proofs.TokenPlaces

/-!
Conversions that accept every text. What is no type, or no name, is kept as trimmed text, and the
written form of the result is converted to the same result again. The reason is one and the same
for texts that are read and texts that are kept: the written form has the tokens of the text, and
the tokens alone decide what is read. Trimming keeps the tokens because the blanks that it drops are
the blanks between which words end.
-/

namespace InterfaceGen
namespace TypeRef
namespace Token

theorem lex_blanks_append {blanks : List Char} (h : ∀ c ∈ blanks, Text.isBlank c = true)
    (text : List Char) : lex (blanks ++ text) = lex text := by
  induction blanks with
  | nil => rfl
  | cons c rest ih =>
      obtain ⟨here, later⟩ := List.forall_mem_cons.mp h
      rw [List.cons_append, lex_blank here, ih later]

theorem lex_append_blanks (text : List Char) {blanks : List Char}
    (h : ∀ c ∈ blanks, Text.isBlank c = true) : lex (text ++ blanks) = lex text := by
  -- no token goes on with a blank, so the tokens of `text` are complete
  have like : StartsLike blanks [] := fun c head => .inl (h c (List.mem_of_mem_head? head))
  have scanned := (cut_all text).scanned blanks like
  rw [(scanFrom_eq_nil_iff _ blanks).mpr h, List.append_nil] at scanned
  rw [lex, lex, scanned]

theorem lex_trim (text : String) : lex (Text.trim text).toList = lex text.toList := by
  obtain ⟨before, after, blankBefore, blankAfter, whole⟩ := Text.exists_blanks_around text
  rw [whole, lex_blanks_append blankBefore, lex_append_blanks _ blankAfter]

end Token

theorem toOption_parse_eq_some_iff {text : String} {type : TypeRef} :
    (parse text).toOption = some type ↔ parse text = .ok type := by
  cases parse text <;> simp [Except.toOption]

/-- Texts with the same tokens are read alike, or are both refused. -/
theorem toOption_parse_congr {text other : String}
    (same : Token.lex text.toList = Token.lex other.toList) :
    (parse text).toOption = (parse other).toOption := by
  apply Option.ext
  intro type
  rw [toOption_parse_eq_some_iff, toOption_parse_eq_some_iff, parse_eq_ok_iff_lex,
    parse_eq_ok_iff_lex, same]

theorem lex_render_of_parse {text : String} {type : TypeRef} (h : parse text = .ok type) :
    Token.lex type.render.toList = Token.lex text.toList := by
  obtain ⟨formed, tokens⟩ := parse_eq_ok_iff_lex.mp h
  exact (Token.map_token_scan_render formed).trans tokens.symm

end TypeRef

/-- A way to make a value of every text: some types are values, and any other text is kept. Values
are written like the types and texts that they come from. -/
structure Conversion (α : Type) where
  ofType? : TypeRef → Option α
  keep : String → α
  print : α → String
  print_keep (text : String) : print (keep text) = text
  print_ofType (type : TypeRef) : ∀ value ∈ ofType? type, print value = type.render

namespace Conversion

variable {α : Type} (conversion : Conversion α)

def read? (text : String) : Option α :=
  (TypeRef.parse text).toOption.bind conversion.ofType?

def convert (text : String) : α :=
  (conversion.read? text).getD (conversion.keep (Text.trim text))

/-- Nothing of a text is lost but its spacing. -/
theorem lex_print_convert (text : String) :
    TypeRef.Token.lex (conversion.print (conversion.convert text)).toList =
      TypeRef.Token.lex text.toList := by
  cases read : conversion.read? text with
  | none =>
      rw [convert, read, Option.getD_none, conversion.print_keep]
      exact TypeRef.Token.lex_trim text
  | some value =>
      obtain ⟨type, parsed, accepted⟩ := Option.bind_eq_some_iff.mp read
      rw [convert, read, Option.getD_some, conversion.print_ofType type value accepted]
      exact TypeRef.lex_render_of_parse (TypeRef.toOption_parse_eq_some_iff.mp parsed)

theorem convert_print_convert (text : String) :
    conversion.convert (conversion.print (conversion.convert text)) = conversion.convert text := by
  have same : conversion.read? (conversion.print (conversion.convert text)) =
      conversion.read? text := by
    rw [read?, TypeRef.toOption_parse_congr (conversion.lex_print_convert text)]
    rfl
  rw [convert, same]
  cases read : conversion.read? text with
  | none => simp only [convert, read, Option.getD_none, conversion.print_keep, Text.trim_trim]
  | some value => simp only [convert, read, Option.getD_some]

/-- Every type that is read is taken. -/
def toType : Conversion TypeRef where
  ofType? := some
  keep := .verbatim
  print := TypeRef.render
  print_keep _ := by rw [TypeRef.render]
  print_ofType _ := by simp

/-- Only names are taken. -/
def toName : Conversion QualName where
  ofType? type :=
    match type with
    | .named name => some name
    | _ => none
  keep := .simple
  print := QualName.render
  print_keep := QualName.render_simple
  print_ofType type value accepted := by
    split at accepted
    · cases accepted
      rw [TypeRef.render]
    · cases accepted

theorem convert_toType (text : String) : toType.convert text = TypeRef.ofText text := by
  unfold convert read? TypeRef.ofText
  cases TypeRef.parse text <;> rfl

theorem convert_toName (text : String) : toName.convert text = QualName.ofText text := by
  unfold convert read? QualName.ofText
  cases TypeRef.parse text with
  | error refused => rfl
  | ok type => cases type <;> rfl

end Conversion

/-- Whatever the text, converting it to a type or to a name and converting the written form again
gives the same result, and the written form has the tokens of the text. -/
theorem TypeRef.conversions_stable (text : String) :
    (ofText (ofText text).render = ofText text ∧
      QualName.ofText (QualName.ofText text).render = QualName.ofText text) ∧
    Token.lex (ofText text).render.toList = Token.lex text.toList ∧
    Token.lex (QualName.ofText text).render.toList = Token.lex text.toList := by
  simp only [← Conversion.convert_toType, ← Conversion.convert_toName]
  exact ⟨⟨Conversion.toType.convert_print_convert text,
    Conversion.toName.convert_print_convert text⟩, Conversion.toType.lex_print_convert text,
    Conversion.toName.lex_print_convert text⟩

/-- A single type in brackets is kept as it is, less the blanks around it. -/
example : TypeRef.ofText "\u2003( int )\n" = .verbatim "( int )" ∧
    QualName.ofText " List< int >[ ] " = .simple "List< int >[ ]" := by
  decide +kernel

end InterfaceGen
