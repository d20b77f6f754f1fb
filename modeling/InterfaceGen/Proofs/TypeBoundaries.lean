import InterfaceGen.Proofs.PrintedTypes

/-!
Where a printed type ends. Outside all brackets only a few tokens can go on with a type, so a
printed type before any other token determines both the type and the place where it ends. The same
holds of a word before anything that is no part of a word.
-/

namespace InterfaceGen
namespace TypeRef

/-- The tokens with which a type can go on outside all brackets. -/
def Token.extenders : List Token :=
  [.aliasMark, .mark '<', .mark '.', .mark '?', .mark '*', .mark '[']

namespace Reader

theorem mem_extenders_of_move {offset : Nat} {stage : Stage} {type : TypeRef} {token : Token}
    {next : State} (complete : Completes stage type) (move : Move offset ⟨stage, []⟩ token next) :
    token ∈ Token.extenders := by
  cases complete with
  | word stem word => cases move <;> decide
  | name stem => cases move <;> decide
  | type type => cases move <;> decide

/-- The tokens as if all of them stood at the start of the text. -/
def placed (tokens : List Token) : List PlacedToken :=
  tokens.map (⟨0, ·⟩)

theorem map_token_placed (tokens : List Token) :
    (placed tokens).map PlacedToken.token = tokens := by
  simp [placed, Function.comp_def]

/-- After a whole type the reader goes on with one of these tokens or not at all. -/
theorem mem_extenders_of_tokens {type longer : TypeRef} (formed : type.WellFormed)
    (longerFormed : longer.WellFormed) {token : Token} {more : List Token}
    (tokens : longer.tokens = type.tokens ++ token :: more) : token ∈ Token.extenders := by
  obtain ⟨stage, complete, reads⟩ := readable_of_wellFormed formed []
  obtain ⟨last, -, readsOn⟩ := readable_of_wellFormed longerFormed []
  have run := readsOn (placed type.tokens ++ ⟨0, token⟩ :: placed more)
    (by simp [map_token_placed, tokens])
  rw [List.foldlM_append, reads _ (map_token_placed _)] at run
  change (⟨0, token⟩ :: placed more).foldlM step ⟨stage, []⟩ = _ at run
  rw [List.foldlM_cons] at run
  cases moved : step ⟨stage, []⟩ ⟨0, token⟩ with
  | ok next => exact mem_extenders_of_move complete (move_of_step moved)
  | error refused =>
      rw [moved] at run
      cases run

end Reader

theorem eq_of_tokens_eq {type other : TypeRef} (formed : type.WellFormed)
    (otherFormed : other.WellFormed) (same : type.tokens = other.tokens) : type = other := by
  have read := parse_of_lex otherFormed ((Token.map_token_scan_render formed).trans same)
  rw [parse_render_of_wellFormed formed] at read
  exact Except.ok.inj read

/-- A type's tokens before one that extends no type determine the type and what follows. -/
theorem tokens_append_inj {type other : TypeRef} (formed : type.WellFormed)
    (otherFormed : other.WellFormed) {rest more : List Token}
    (ends : ∀ token ∈ rest.head?, token ∉ Token.extenders)
    (otherEnds : ∀ token ∈ more.head?, token ∉ Token.extenders)
    (same : type.tokens ++ rest = other.tokens ++ more) : type = other := by
  cases List.append_eq_append_iff.mp same with
  | inl h =>
      obtain ⟨between, tokens, left⟩ := h
      cases between with
      | nil =>
          rw [List.append_nil] at tokens
          exact eq_of_tokens_eq formed otherFormed tokens.symm
      | cons token between =>
          have extender := Reader.mem_extenders_of_tokens formed otherFormed tokens
          rw [left] at ends
          exact absurd extender (ends token rfl)
  | inr h =>
      obtain ⟨between, tokens, left⟩ := h
      cases between with
      | nil =>
          rw [List.append_nil] at tokens
          exact eq_of_tokens_eq formed otherFormed tokens
      | cons token between =>
          have extender := Reader.mem_extenders_of_tokens otherFormed formed tokens
          rw [left] at otherEnds
          exact absurd extender (otherEnds token rfl)

/-- No type that ends before this text goes on into it. -/
structure EndsBefore (text : List Char) : Prop where
  stops : Token.Stops text
  closed : ∀ token ∈ (Token.lex text).head?, token ∉ Token.extenders

theorem render_append_inj {type other : TypeRef} (formed : type.WellFormed)
    (otherFormed : other.WellFormed) {rest more : List Char} (ends : EndsBefore rest)
    (otherEnds : EndsBefore more)
    (same : type.render.toList ++ rest = other.render.toList ++ more) :
    type = other ∧ rest = more := by
  have tokens := congrArg Token.lex same
  rw [Token.lexes_render formed rest ends.stops,
    Token.lexes_render otherFormed more otherEnds.stops] at tokens
  have types := tokens_append_inj formed otherFormed ends.closed otherEnds.closed tokens
  rw [types] at same
  exact ⟨types, List.append_cancel_left same⟩

theorem word_append_inj {word other : String} (identifier : Text.isWord word = true)
    (otherIdentifier : Text.isWord other = true) {rest more : List Char}
    (ends : Token.Stops rest) (otherEnds : Token.Stops more)
    (same : word.toList ++ rest = other.toList ++ more) : word = other ∧ rest = more := by
  have tokens := congrArg Token.lex same
  rw [Token.lexes_word identifier rest ends, Token.lexes_word otherIdentifier more otherEnds]
    at tokens
  obtain ⟨first, later, token, rfl⟩ := Reader.ofWord_of_isWord identifier
  obtain ⟨otherFirst, otherLater, otherToken, rfl⟩ := Reader.ofWord_of_isWord otherIdentifier
  rw [token, otherToken, List.singleton_append, List.singleton_append, List.cons.injEq,
    Token.word.injEq] at tokens
  obtain ⟨⟨rfl, rfl⟩, -⟩ := tokens
  exact ⟨rfl, List.append_cancel_left same⟩

/-- The marks that stand in an attribute after a type or a word and are no part of it. -/
def outerMarks : List Char := [',', ']', ')', '(', '\x7b', '\x7d']

theorem endsBefore_mark {c : Char} (h : c ∈ outerMarks) (rest : List Char) :
    EndsBefore (c :: rest) := by
  have apart : (outerMarks.all fun mark => !Text.isBlank mark && !Text.startsWord mark &&
      !Text.continuesWord mark && mark != ':' &&
      !Token.extenders.contains (.mark mark)) = true := by
    decide +kernel
  have plain := List.all_eq_true.mp apart c h
  simp only [Bool.and_eq_true, Bool.not_eq_true', bne_iff_ne] at plain
  obtain ⟨⟨⟨⟨blank, starts⟩, continues⟩, colon⟩, extender⟩ := plain
  refine ⟨Token.stops_cons continues rest, ?_⟩
  rw [Token.lex_other blank starts fun both => colon both.1]
  intro token first
  cases first
  simpa using extender

theorem EndsBefore.afterSpace {rest : List Char} (h : EndsBefore rest) :
    EndsBefore (' ' :: rest) := by
  refine ⟨Token.stops_cons (by decide) rest, ?_⟩
  rw [Token.lex_blank (by decide)]
  exact h.closed

theorem endsBefore_colon (rest : List Char) : EndsBefore (':' :: ' ' :: rest) := by
  refine ⟨Token.stops_cons (by decide) _, ?_⟩
  rw [Token.lex_other (by decide) (by decide) (by simp)]
  intro token first
  cases first
  decide

end TypeRef

namespace Text

/-- The text has a first character, and it is one of those accepted. -/
def beginsWith (accepts : Char → Bool) (text : List Char) : Bool :=
  text.head?.any accepts

theorem beginsWith_cons (accepts : Char → Bool) (first : Char) (rest : List Char) :
    beginsWith accepts (first :: rest) = accepts first := rfl

theorem beginsWith_append {accepts : Char → Bool} {text : List Char}
    (h : beginsWith accepts text = true) (more : List Char) :
    beginsWith accepts (text ++ more) = true := by
  cases text with
  | nil => cases h
  | cons first rest => exact h

theorem beginsWith_mono {accepts others : Char → Bool} {text : List Char}
    (h : beginsWith accepts text = true) (more : ∀ c, accepts c = true → others c = true) :
    beginsWith others text = true := by
  cases text with
  | nil => cases h
  | cons first rest => exact more first h

theorem ne_of_beginsWith {accepts : Char → Bool} {text other : List Char}
    (h : beginsWith accepts text = true) (outside : beginsWith accepts other = false) :
    text ≠ other := by
  intro same
  rw [same, outside] at h
  cases h

theorem beginsWith_of_isWord {word : String} (identifier : isWord word = true) :
    beginsWith startsWord word.toList = true := by
  unfold isWord at identifier
  split at identifier
  · cases identifier
  · rename_i first rest chars
    rw [Bool.and_eq_true] at identifier
    simpa [beginsWith, chars] using identifier.1

end Text

/-- An identifier or a tuple begins here. -/
def TypeRef.startsType (c : Char) : Bool :=
  Text.startsWord c || c == '('

theorem TypeRef.beginsWith_word {word : String} (identifier : Text.isWord word = true) :
    Text.beginsWith startsType word.toList = true :=
  Text.beginsWith_mono (Text.beginsWith_of_isWord identifier) fun c starts => by
    rw [startsType, starts, Bool.true_or]

theorem Segment.beginsWith_render {segment : Segment}
    (identifier : Text.isWord segment.word = true) :
    Text.beginsWith TypeRef.startsType segment.render.toList = true := by
  obtain ⟨word, arguments⟩ := segment
  rw [Segment.render, String.toList_append]
  exact Text.beginsWith_append (TypeRef.beginsWith_word identifier) _

theorem TypeRef.beginsWith_render {type : TypeRef} (formed : type.WellFormed) :
    Text.beginsWith startsType type.render.toList = true := by
  induction formed with
  | @named aliasName segments nonempty aliases words _ _ =>
      cases aliasName with
      | some word =>
          rw [render, QualName.render, String.append_assoc, String.toList_append]
          exact Text.beginsWith_append (beginsWith_word (aliases word rfl)) _
      | none =>
          obtain ⟨segment, others, rfl⟩ := List.exists_cons_of_ne_nil nonempty
          have first := Segment.beginsWith_render (words segment List.mem_cons_self)
          rw [render, QualName.render, Segment.renderEach_eq_map, List.map_cons]
          cases others with
          | nil => exact first
          | cons next others =>
              rw [List.map_cons, Text.separated, String.append_assoc, String.toList_append]
              exact Text.beginsWith_append first _
  | array _ _ ih =>
      rw [render, String.append_assoc, String.append_assoc, String.toList_append]
      exact Text.beginsWith_append ih _
  | nullable _ ih | pointer _ ih =>
      rw [render, String.toList_append]
      exact Text.beginsWith_append ih _
  | tuple =>
      rw [render, String.append_assoc, String.toList_append]
      exact Text.beginsWith_append (by decide) _

end InterfaceGen
