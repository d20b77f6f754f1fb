import InterfaceGen.Proofs.WellFormedTypes
import InterfaceGen.TypeRef.Printer

/-!
The tokens of a printed type. `lex` forgets where tokens stand, so that the tokens of a text are the
tokens of its parts as long as no word runs over from one part into the next. Every well-formed
type has a token list of its own, and printing the type and cutting the text into tokens gives that
list.
-/

namespace InterfaceGen
namespace Text

def blankCodes : List Nat :=
  [0x09, 0x0A, 0x0B, 0x0C, 0x0D, 0x20, 0x85, 0xA0, 0x1680, 0x2000, 0x2001, 0x2002, 0x2003, 0x2004,
    0x2005, 0x2006, 0x2007, 0x2008, 0x2009, 0x200A, 0x2028, 0x2029, 0x202F, 0x205F, 0x3000]

theorem mem_blankCodes_of_isBlank {c : Char} (h : isBlank c = true) : c.toNat ∈ blankCodes := by
  unfold isBlank at h
  split at h
  · simp only [Bool.or_eq_true, beq_iff_eq, Bool.and_eq_true, decide_eq_true_eq] at h
    obtain rfl | range := h
    · decide
    · simp only [blankCodes, List.mem_cons]
      omega
  · simp only [inRanges, blankRanges, List.any_cons, List.any_nil, Bool.or_eq_true,
      Bool.and_eq_true, decide_eq_true_eq, Bool.or_false] at h
    simp only [blankCodes, List.mem_cons]
    omega

theorem not_isBlank_of_startsWord {c : Char} (h : startsWord c = true) : isBlank c = false := by
  have outside : ∀ n ∈ blankCodes, startsWord (Char.ofNat n) = false := by decide +kernel
  cases blank : isBlank c with
  | false => rfl
  | true =>
      have code := mem_blankCodes_of_isBlank blank
      rw [← Char.ofNat_toNat c, outside _ code] at h
      cases h

end Text

namespace TypeRef
namespace Token

/-- The tokens of a text without their places. -/
def lex (text : List Char) : List Token :=
  (scanFrom 0 0 text).map PlacedToken.token

theorem map_token_scanFrom_offset (skip offset other : Nat) (text : List Char) :
    (scanFrom skip offset text).map PlacedToken.token =
      (scanFrom skip other text).map PlacedToken.token := by
  induction text generalizing skip offset other with
  | nil => cases skip <;> rfl
  | cons c rest ih =>
      cases skip with
      | succ skip => exact ih skip _ _
      | zero =>
          simp only [scanFrom]
          split
          · exact ih 0 _ _
          · split
            · simp only [List.map_cons, ih _ (offset + c.utf8Size) (other + c.utf8Size)]
            · split
              · simp only [List.map_cons, ih _ (offset + c.utf8Size) (other + c.utf8Size)]
              · simp only [List.map_cons, ih _ (offset + c.utf8Size) (other + c.utf8Size)]

theorem map_token_scanFrom (skip offset : Nat) (text : List Char) :
    (scanFrom skip offset text).map PlacedToken.token = lex (text.drop skip) := by
  induction skip generalizing offset text with
  | zero => exact map_token_scanFrom_offset 0 offset 0 text
  | succ skip ih =>
      cases text with
      | nil => rfl
      | cons c rest => exact ih _ rest

@[simp] theorem lex_nil : lex [] = [] := rfl

theorem lex_blank {c : Char} (blank : Text.isBlank c = true) (rest : List Char) :
    lex (c :: rest) = lex rest := by
  rw [lex, scanFrom, if_pos blank, map_token_scanFrom, List.drop_zero]

theorem lex_word {first : Char} (starts : Text.startsWord first = true) (rest : List Char) :
    lex (first :: rest) =
      .word first (rest.takeWhile Text.continuesWord) ::
        lex (rest.dropWhile Text.continuesWord) := by
  have blank := Text.not_isBlank_of_startsWord starts
  have dropped : rest.drop (rest.takeWhile Text.continuesWord).length =
      rest.dropWhile Text.continuesWord := by
    have cut : (rest.takeWhile Text.continuesWord ++ rest.dropWhile Text.continuesWord).drop
        (rest.takeWhile Text.continuesWord).length = rest.dropWhile Text.continuesWord :=
      List.drop_left
    rwa [List.takeWhile_append_dropWhile] at cut
  rw [lex, scanFrom, if_neg (by simp [blank]), if_pos starts]
  simp only [List.map_cons, map_token_scanFrom, dropped]

theorem lex_aliasMark (rest : List Char) : lex (':' :: ':' :: rest) = .aliasMark :: lex rest := by
  rw [lex, scanFrom, if_neg (by decide), if_neg (by decide), if_pos (by simp)]
  simp only [List.map_cons, map_token_scanFrom, List.drop_succ_cons, List.drop_zero]

/-- The characters that are tokens of their own in a type. -/
def marks : List Char := ['<', '>', ',', '.', '?', '*', '[', ']', '(', ')']

theorem lex_other {c : Char} (blank : Text.isBlank c = false) (starts : Text.startsWord c = false)
    {rest : List Char} (pair : ¬ (c = ':' ∧ rest.head? = some ':')) :
    lex (c :: rest) = .mark c :: lex rest := by
  rw [lex, scanFrom, if_neg (by simp [blank]), if_neg (by simp [starts]), if_neg pair]
  simp only [List.map_cons, map_token_scanFrom, List.drop_zero]

theorem lex_mark {c : Char} (h : c ∈ marks) (rest : List Char) :
    lex (c :: rest) = .mark c :: lex rest := by
  have plain : (marks.all fun mark =>
      !Text.isBlank mark && !Text.startsWord mark && mark != ':') = true := by decide +kernel
  have apart := List.all_eq_true.mp plain c h
  simp only [Bool.and_eq_true, Bool.not_eq_true', bne_iff_ne] at apart
  obtain ⟨⟨blank, starts⟩, colon⟩ := apart
  exact lex_other blank starts fun both => colon both.1

/-- No word can run over into the text. -/
def Stops (text : List Char) : Prop :=
  ∀ c ∈ text.head?, Text.continuesWord c = false

theorem stops_nil : Stops [] := by
  simp [Stops]

theorem stops_cons {c : Char} (h : Text.continuesWord c = false) (text : List Char) :
    Stops (c :: text) := by
  rintro d ⟨⟩
  exact h

theorem Stops.takeWhile {text : List Char} (h : Stops text) :
    text.takeWhile Text.continuesWord = [] := by
  cases text with
  | nil => rfl
  | cons c rest => simp [h c rfl]

theorem Stops.dropWhile {text : List Char} (h : Stops text) :
    text.dropWhile Text.continuesWord = text := by
  cases text with
  | nil => rfl
  | cons c rest => simp [h c rfl]

/-- The text has these tokens, unless its last word runs over into what follows. -/
def Lexes (text : String) (tokens : List Token) : Prop :=
  ∀ rest, Stops rest → lex (text.toList ++ rest) = tokens ++ lex rest

/-- The text has these tokens whatever follows, and it ends every word before it. -/
structure Delimits (text : String) (tokens : List Token) : Prop where
  stops : ∀ rest, Stops (text.toList ++ rest)
  lexed : ∀ rest, lex (text.toList ++ rest) = tokens ++ lex rest

theorem delimits_mark {text : String} {c : Char} (single : text.toList = [c]) (h : c ∈ marks) :
    Delimits text [.mark c] := by
  have apart : (marks.all (!Text.continuesWord ·)) = true := by decide +kernel
  constructor
  · intro rest
    rw [single]
    exact stops_cons (by simpa using List.all_eq_true.mp apart c h) rest
  · intro rest
    rw [single]
    exact lex_mark h rest

theorem delimits_space : Delimits " " [] :=
  ⟨fun rest => stops_cons (by decide) rest, fun rest => lex_blank (by decide) rest⟩

theorem delimits_aliasMark : Delimits "::" [.aliasMark] :=
  ⟨fun rest => stops_cons (by decide) (':' :: rest), fun rest => lex_aliasMark rest⟩

theorem Delimits.append {first second : String} {tokens more : List Token}
    (h : Delimits first tokens) (k : Delimits second more) :
    Delimits (first ++ second) (tokens ++ more) := by
  constructor
  · intro rest
    rw [String.toList_append, List.append_assoc]
    exact h.stops _
  · intro rest
    rw [String.toList_append, List.append_assoc, h.lexed, k.lexed, List.append_assoc]

theorem delimits_comma : Delimits "," [.mark ','] :=
  delimits_mark rfl (by decide)

theorem delimits_commaSpace : Delimits ", " [.mark ','] :=
  delimits_comma.append delimits_space

theorem Lexes.delimited {text delimiter : String} {tokens marks : List Token}
    (h : Lexes text tokens) (d : Delimits delimiter marks) :
    Lexes (text ++ delimiter) (tokens ++ marks) := by
  intro rest _
  rw [String.toList_append, List.append_assoc, h _ (d.stops rest), d.lexed, List.append_assoc]

theorem Delimits.before {text delimiter : String} {tokens marks : List Token}
    (d : Delimits delimiter marks) (h : Lexes text tokens) :
    Lexes (delimiter ++ text) (marks ++ tokens) := by
  intro rest stops
  rw [String.toList_append, List.append_assoc, d.lexed, h rest stops, List.append_assoc]

theorem Lexes.between {first second delimiter : String} {tokens marks more : List Token}
    (h : Lexes first tokens) (d : Delimits delimiter marks) (k : Lexes second more) :
    Lexes (first ++ delimiter ++ second) (tokens ++ (marks ++ more)) := by
  intro rest stops
  rw [String.append_assoc, String.toList_append, List.append_assoc,
    h _ (by simpa using d.stops (second.toList ++ rest)), d.before k rest stops]
  simp only [List.append_assoc]

theorem lexes_empty : Lexes "" [] :=
  fun _ _ => rfl

def ofWord (word : String) : List Token :=
  match word.toList with
  | [] => []
  | first :: rest => [.word first rest]

theorem lexes_word {word : String} (h : Text.isWord word = true) : Lexes word (ofWord word) := by
  intro rest stops
  unfold Text.isWord at h
  split at h
  · cases h
  · rename_i first more chars
    simp only [Bool.and_eq_true, List.all_eq_true] at h
    -- the scanner takes the longest word, and none of `rest` belongs to it
    rw [ofWord, chars, List.cons_append, lex_word h.1, List.takeWhile_append_of_pos h.2,
      List.dropWhile_append_of_pos h.2, stops.takeWhile, stops.dropWhile, List.append_nil]
    rfl

theorem lexes_separated {separator : String} {mark : Token} (d : Delimits separator [mark])
    {α : Type} {items : List α} {print : α → String} {tokens : α → List Token}
    (each : ∀ item ∈ items, Lexes (print item) (tokens item)) :
    Lexes (Text.separated separator (items.map print))
      ([mark].intercalate (items.map tokens)) := by
  induction items with
  | nil => exact lexes_empty
  | cons item more ih =>
      obtain ⟨first, later⟩ := List.forall_mem_cons.mp each
      cases more with
      | nil => simpa [Text.separated] using first
      | cons next more =>
          have tail := ih later
          simp only [List.map_cons] at tail ⊢
          rw [Text.separated, List.intercalate_cons_cons, List.append_assoc]
          exact first.between d tail

theorem delimits_closeRank (count : Nat) :
    Delimits (Text.repeated "," count ++ "]") (List.replicate count (.mark ',') ++ [.mark ']']) := by
  have close : Delimits "]" [.mark ']'] := delimits_mark rfl (by decide)
  induction count with
  | zero => simpa [Text.repeated] using close
  | succ count ih =>
      rw [Text.repeated, String.append_assoc, List.replicate_succ]
      exact delimits_comma.append ih

end Token

end TypeRef

mutual

def TypeRef.tokens : TypeRef → List TypeRef.Token
  | .named name => name.tokens
  | .array element rank =>
      element.tokens ++ .mark '[' :: (List.replicate (rank - 1) (.mark ',') ++ [.mark ']'])
  | .nullable inner => inner.tokens ++ [.mark '?']
  | .pointer inner => inner.tokens ++ [.mark '*']
  | .tuple fields =>
      .mark '(' :: ([TypeRef.Token.mark ','].intercalate (TupleField.tokensEach fields) ++
        [.mark ')'])
  | .verbatim _ => []

def QualName.tokens : QualName → List TypeRef.Token
  | ⟨none, segments⟩ => [TypeRef.Token.mark '.'].intercalate (Segment.tokensEach segments)
  | ⟨some aliasName, segments⟩ =>
      TypeRef.Token.ofWord aliasName ++
        .aliasMark :: [TypeRef.Token.mark '.'].intercalate (Segment.tokensEach segments)

def Segment.tokens : Segment → List TypeRef.Token
  | ⟨word, []⟩ => TypeRef.Token.ofWord word
  | ⟨word, first :: rest⟩ =>
      TypeRef.Token.ofWord word ++
        .mark '<' :: ([TypeRef.Token.mark ','].intercalate
          (first.tokens :: TypeRef.tokensEach rest) ++ [.mark '>'])

def TupleField.tokens : TupleField → List TypeRef.Token
  | ⟨type, none⟩ => type.tokens
  | ⟨type, some name⟩ => type.tokens ++ TypeRef.Token.ofWord name

def TypeRef.tokensEach : List TypeRef → List (List TypeRef.Token)
  | [] => []
  | type :: rest => type.tokens :: TypeRef.tokensEach rest

def Segment.tokensEach : List Segment → List (List TypeRef.Token)
  | [] => []
  | segment :: rest => segment.tokens :: Segment.tokensEach rest

def TupleField.tokensEach : List TupleField → List (List TypeRef.Token)
  | [] => []
  | field :: rest => field.tokens :: TupleField.tokensEach rest

end

@[simp] theorem TypeRef.tokensEach_eq_map (types : List TypeRef) :
    TypeRef.tokensEach types = types.map TypeRef.tokens := by
  induction types with
  | nil => rfl
  | cons type rest ih => simp [TypeRef.tokensEach, ih]

@[simp] theorem Segment.tokensEach_eq_map (segments : List Segment) :
    Segment.tokensEach segments = segments.map Segment.tokens := by
  induction segments with
  | nil => rfl
  | cons segment rest ih => simp [Segment.tokensEach, ih]

@[simp] theorem TupleField.tokensEach_eq_map (fields : List TupleField) :
    TupleField.tokensEach fields = fields.map TupleField.tokens := by
  induction fields with
  | nil => rfl
  | cons field rest ih => simp [TupleField.tokensEach, ih]

namespace TypeRef
namespace Token

theorem lexes_segment {segment : Segment} (word : Text.isWord segment.word = true)
    (types : ∀ type ∈ segment.arguments, Lexes type.render type.tokens) :
    Lexes segment.render segment.tokens := by
  obtain ⟨name, arguments⟩ := segment
  cases arguments with
  | nil => simpa [Segment.render, Segment.tokens, Text.angleList] using lexes_word word
  | cons first rest =>
      have items := lexes_separated delimits_commaSpace types
      have opening : Delimits "<" [.mark '<'] := delimits_mark rfl (by decide)
      have closing : Delimits ">" [.mark '>'] := delimits_mark rfl (by decide)
      have printed := (lexes_word word).between opening (items.delimited closing)
      simpa [Segment.render, Segment.tokens, Text.angleList, Text.commaSeparated,
        String.append_assoc] using printed

theorem lexes_field {field : TupleField} (type : Lexes field.type.render field.type.tokens)
    (names : ∀ word ∈ field.name, Text.isWord word = true) : Lexes field.render field.tokens := by
  obtain ⟨of, name⟩ := field
  cases name with
  | none => exact type
  | some name => exact type.between delimits_space (lexes_word (names name rfl))

theorem lexes_render {type : TypeRef} (h : type.WellFormed) : Lexes type.render type.tokens := by
  induction h with
  | @named aliasName segments nonempty aliases words arguments ih =>
      have point : Delimits "." [.mark '.'] := delimits_mark rfl (by decide)
      have dotted := lexes_separated point fun segment member =>
        lexes_segment (words segment member) (ih segment member)
      cases aliasName with
      | none => simpa [TypeRef.render, QualName.render, TypeRef.tokens, QualName.tokens] using dotted
      | some word =>
          have printed := (lexes_word (aliases word rfl)).between delimits_aliasMark dotted
          simpa [TypeRef.render, QualName.render, TypeRef.tokens, QualName.tokens] using printed
  | @array element rank inner positive ih =>
      have opening : Delimits "[" [.mark '['] := delimits_mark rfl (by decide)
      have printed := ih.delimited (opening.append (delimits_closeRank (rank - 1)))
      simpa [TypeRef.render, TypeRef.tokens, String.append_assoc] using printed
  | nullable inner ih => exact ih.delimited (delimits_mark rfl (by decide))
  | pointer inner ih => exact ih.delimited (delimits_mark rfl (by decide))
  | @tuple fields several types names ih =>
      have opening : Delimits "(" [.mark '('] := delimits_mark rfl (by decide)
      have closing : Delimits ")" [.mark ')'] := delimits_mark rfl (by decide)
      have items := lexes_separated delimits_commaSpace fun field member =>
        lexes_field (ih field member) (names field member)
      have printed := opening.before (items.delimited closing)
      simpa [TypeRef.render, TypeRef.tokens, Text.commaSeparated, String.append_assoc] using printed

theorem map_token_scan_render {type : TypeRef} (h : type.WellFormed) :
    (scan type.render).map PlacedToken.token = type.tokens := by
  have printed := lexes_render h [] stops_nil
  rwa [List.append_nil, lex_nil, List.append_nil] at printed

end Token
end TypeRef
end InterfaceGen
