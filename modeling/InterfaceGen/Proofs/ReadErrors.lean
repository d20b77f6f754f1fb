import InterfaceGen.Proofs.TokenPlaces

/-!
Errors point at the first offending place. Every state that the reader reaches can be led to a
complete type, by closing what is open; so what stands before a refused token can be continued, and
a text that ends too soon can be continued as a whole. A refused token is refused whatever follows
its first character, since a state that takes one word takes every word. And a state remembers of
each open tuple where its bracket stands.
-/

namespace InterfaceGen
namespace TypeRef
namespace Reader

theorem foldlM_step_eq_error {placed : List PlacedToken} {state : State} {error : ReadError}
    (h : placed.foldlM step state = .error error) :
    ∃ before refused after last, placed = before ++ refused :: after ∧
      before.foldlM step state = .ok last ∧ step last refused = .error error := by
  induction placed generalizing state with
  | nil => cases h
  | cons first rest ih =>
      rw [List.foldlM_cons] at h
      cases moved : step state first with
      | error other =>
          rw [moved] at h
          cases h
          exact ⟨[], first, rest, state, rfl, rfl, moved⟩
      | ok next =>
          rw [moved] at h
          obtain ⟨before, refused, after, last, rfl, run, refuses⟩ := ih h
          refine ⟨first :: before, refused, after, last, rfl, ?_, refuses⟩
          rw [List.foldlM_cons, moved]
          exact run

/-- The tuple that starts at `start` would have a single element if it were closed here. -/
inductive HoldsLone (start : Nat) : State → Prop where
  | unnamed {stage : Stage} {type : TypeRef} (complete : Completes stage type)
      (frames : List Frame) : HoldsLone start ⟨stage, .fields start [] :: frames⟩
  | named {items : List TupleField} (few : items.length < 2) (frames : List Frame) :
      HoldsLone start ⟨.field start items, frames⟩

/-- Why a state refuses a token: the token cannot stand there, or it closes a tuple too soon. -/
inductive Refuses (state : State) (placed : PlacedToken) : ReadError → Prop where
  | unexpected : Refuses state placed (.unexpectedChar placed.token.first placed.offset)
  | lone {start : Nat} (bracket : placed.token = .mark ')') (holds : HoldsLone start state) :
      Refuses state placed (.singleElementTuple start)

section Refusals
variable {placed : PlacedToken} {frames : List Frame} {error : ReadError}

theorem afterField_eq_error {start : Nat} {items : List TupleField}
    (h : afterField placed start items frames = .error error) :
    error = .unexpectedChar placed.token.first placed.offset ∨
      placed.token = .mark ')' ∧ items.length < 2 ∧ error = .singleElementTuple start := by
  unfold afterField at h
  split at h
  · cases h
  · rename_i bracket
    unfold Reader.closeTuple at h
    split at h
    · cases h
    · rename_i few
      cases h
      refine .inr ⟨bracket, ?_, rfl⟩
      match items with
      | [] | [_] => simp
      | first :: second :: rest => exact absurd rfl (few first second rest)
  · cases h
    exact .inl rfl

theorem refuses_of_afterType {stage : Stage} {type : TypeRef} (complete : Completes stage type)
    (h : afterType placed type frames = .error error) : Refuses ⟨stage, frames⟩ placed error := by
  unfold afterType at h
  split at h
  · cases h
  · cases h
  · cases h
  · cases h
  · cases h
  · cases h
  · rename_i start items outer _ _ _ _
    obtain rfl | ⟨bracket, few, rfl⟩ := afterField_eq_error h
    · exact .unexpected
    · rw [List.length_cons] at few
      obtain rfl : items = [] := List.eq_nil_of_length_eq_zero (by omega)
      exact .lone bracket (.unnamed complete outer)
  · cases h
    exact .unexpected

theorem refuses_of_step {state : State} (h : step state placed = .error error) :
    Refuses state placed error := by
  obtain ⟨stage, frames⟩ := state
  cases stage with
  | start | wordWanted stem | rank element rank =>
      simp only [step] at h
      split at h
      all_goals cases h
      exact .unexpected
  | word stem word =>
      simp only [step] at h
      split at h
      · cases h
      · cases h
      · cases h
      · exact refuses_of_afterType (.word _ word) h
  | name stem =>
      simp only [step] at h
      split at h
      · cases h
      · exact refuses_of_afterType (.name stem) h
  | type type => exact refuses_of_afterType (.type type) h
  | field start items =>
      obtain rfl | ⟨bracket, few, rfl⟩ := afterField_eq_error h
      · exact .unexpected
      · exact .lone bracket (.named few frames)

end Refusals

theorem finish_eq_error {state : State} {error : ReadError} (h : finish state = .error error) :
    state = State.initial ∧ error = .empty ∨ error = .unexpectedEnd := by
  unfold finish at h
  split at h
  · cases h
    exact .inl ⟨rfl, rfl⟩
  · cases h
  · cases h
  · cases h
  · cases h
    exact .inr rfl

/-- Tokens that no state tells apart: words, and equal tokens. -/
inductive Alike : Token → Token → Prop where
  | refl (token : Token) : Alike token token
  | words (first : Char) (rest : List Char) (other : Char) (others : List Char) :
      Alike (.word first rest) (.word other others)

theorem Move.of_alike {offset : Nat} {state next : State} {token other : Token}
    (move : Move offset state token next) (alike : Alike token other) :
    ∃ last, Move offset state other last := by
  cases alike with
  | refl => exact ⟨next, move⟩
  | words first rest other others =>
      cases move with
      | firstWord => exact ⟨_, .firstWord other others _⟩
      | nextWord => exact ⟨_, .nextWord _ other others _⟩
      | fieldName complete => exact ⟨_, .fieldName complete _ _ other others _⟩

theorem alike_of_startedBy {c : Char} {token other : Token} (h : Token.StartedBy c token)
    (k : Token.StartedBy c other) (single : c ≠ ':') : Alike token other := by
  cases h with
  | word starts more =>
      cases k with
      | word _ others => exact .words c more c others
      | aliasMark colon => exact absurd colon single
      | mark apart =>
          rw [starts] at apart
          cases apart
  | aliasMark colon => exact absurd colon single
  | mark apart =>
      cases k with
      | word starts =>
          rw [starts] at apart
          cases apart
      | aliasMark colon => exact absurd colon single
      | mark => exact .refl _

section Endings

/-- A text that closes the open brackets, from the innermost on. A tuple gets one more element, in
case it has only one. -/
def closing : List Frame → List Char
  | [] => []
  | .arguments .. :: outer => '>' :: closing outer
  | .fields .. :: outer => ',' :: 'a' :: ')' :: closing outer

/-- A text that completes what has been read. -/
def State.ending : State → List Char
  | ⟨.start, frames⟩ | ⟨.wordWanted _, frames⟩ => 'a' :: closing frames
  | ⟨.word .., frames⟩ | ⟨.name _, frames⟩ | ⟨.type _, frames⟩ => closing frames
  | ⟨.rank .., frames⟩ => ']' :: closing frames
  | ⟨.field start items, frames⟩ => closing (.fields start items :: frames)

theorem stops_closing (frames : List Frame) : Token.Stops (closing frames) := by
  cases frames with
  | nil => exact Token.stops_nil
  | cons frame outer =>
      cases frame with
      | arguments => exact Token.stops_cons (by decide) _
      | fields => exact Token.stops_cons (by decide) _

theorem lex_letter {rest : List Char} (stops : Token.Stops rest) :
    Token.lex ('a' :: rest) = .word 'a' [] :: Token.lex rest := by
  rw [Token.lex_word (by decide), stops.takeWhile, stops.dropWhile]

theorem lex_closing_fields (start : Nat) (items : List TupleField) (outer : List Frame) :
    Token.lex (closing (.fields start items :: outer)) =
      .mark ',' :: .word 'a' [] :: .mark ')' :: Token.lex (closing outer) := by
  rw [closing, Token.lex_mark (by decide), lex_letter (Token.stops_cons (by decide) _),
    Token.lex_mark (by decide)]

/-- One more element closes a tuple that has at least one. -/
theorem reads_lastField (start : Nat) (item : TupleField) (items : List TupleField)
    (frames : List Frame) :
    ∃ type, Reads ⟨.start, .fields start (item :: items) :: frames⟩ [.word 'a' [], .mark ')']
      ⟨.type type, frames⟩ :=
  ⟨_, (reads_token fun _ => .closeTuple (.word ⟨none, []⟩ _) start item items frames).after
    fun _ => .firstWord 'a' [] _⟩

theorem reads_closing (frames : List Frame) {stage : Stage} {type : TypeRef}
    (complete : Completes stage type) :
    ∃ last whole, Completes last whole ∧
      Reads ⟨stage, frames⟩ (Token.lex (closing frames)) ⟨last, []⟩ := by
  induction frames generalizing stage type with
  | nil => exact ⟨stage, type, complete, reads_nil _⟩
  | cons frame outer ih =>
      cases frame with
      | arguments stem word items =>
          obtain ⟨last, whole, completed, reads⟩ :=
            ih (.name (stem.push word (type :: items).reverse))
          refine ⟨last, whole, completed, ?_⟩
          rw [closing, Token.lex_mark (by decide)]
          exact reads.after fun _ => .closeArguments complete stem word items outer
      | fields start items =>
          obtain ⟨tuple, closes⟩ := reads_lastField start ⟨type, none⟩ items outer
          obtain ⟨last, whole, completed, reads⟩ := ih (.type tuple)
          refine ⟨last, whole, completed, ?_⟩
          rw [lex_closing_fields]
          exact (closes.append reads).after fun _ => .nextField complete start items outer

/-- Every state that can be reached is led to a complete type by its ending. -/
theorem reads_ending {state : State} {tokens : List Token} (h : state.ReadFrom tokens) :
    ∃ last whole, Completes last whole ∧
      Reads state (Token.lex state.ending) ⟨last, []⟩ := by
  obtain ⟨stage, frames⟩ := state
  obtain ⟨own, read, -⟩ := h
  cases read with
  | start =>
      obtain ⟨last, whole, completed, reads⟩ := reads_closing frames (.word ⟨none, []⟩ _)
      refine ⟨last, whole, completed, ?_⟩
      rw [State.ending, lex_letter (stops_closing frames)]
      exact reads.after fun _ => .firstWord 'a' [] frames
  | wordWanted stem =>
      obtain ⟨last, whole, completed, reads⟩ := reads_closing frames (.word stem _)
      refine ⟨last, whole, completed, ?_⟩
      rw [State.ending, lex_letter (stops_closing frames)]
      exact reads.after fun _ => .nextWord stem 'a' [] frames
  | word stem word => exact reads_closing frames (.word stem word)
  | name stem word arguments => exact reads_closing frames (.name _)
  | type type => exact reads_closing frames (.type type)
  | rank element commas =>
      obtain ⟨last, whole, completed, reads⟩ :=
        reads_closing frames (.type (.array element (commas + 1)))
      refine ⟨last, whole, completed, ?_⟩
      rw [State.ending, Token.lex_mark (by decide)]
      exact reads.after fun _ => .closeRank element (commas + 1) frames
  | field offset field items =>
      obtain ⟨tuple, closes⟩ := reads_lastField offset field items frames
      obtain ⟨last, whole, completed, reads⟩ := reads_closing frames (.type tuple)
      refine ⟨last, whole, completed, ?_⟩
      rw [State.ending, lex_closing_fields]
      exact (closes.append reads).after fun _ => .nextAfterName offset _ frames

end Endings

section OpenTuples

/-- The open tuples among the brackets, each with the offset of its bracket and with the brackets
around it. -/
def Frame.openTuples : List Frame → List (Nat × List Frame)
  | [] => []
  | .arguments .. :: outer => openTuples outer
  | .fields start _ :: outer => (start, outer) :: openTuples outer

def State.openTuples : State → List (Nat × List Frame)
  | ⟨.field start _, frames⟩ => (start, frames) :: Frame.openTuples frames
  | ⟨_, frames⟩ => Frame.openTuples frames

theorem Completes.openTuples {stage : Stage} {type : TypeRef} (complete : Completes stage type)
    (frames : List Frame) : State.openTuples ⟨stage, frames⟩ = Frame.openTuples frames := by
  cases complete <;> rfl

/-- Only an opening bracket opens a tuple. -/
theorem Move.openTuples {offset : Nat} {state next : State} {token : Token}
    (move : Move offset state token next) {tuple : Nat × List Frame}
    (opened : tuple ∈ next.openTuples) :
    tuple ∈ state.openTuples ∨
      token = .mark '(' ∧ state.stage = .start ∧ tuple = (offset, state.frames) := by
  cases move with
  | openTuple frames =>
      obtain rfl | outer := List.mem_cons.mp opened
      · exact .inr ⟨rfl, rfl, rfl⟩
      · exact .inl outer
  | firstWord | nextWord | aliasName | openArguments | wordPoint | namePoint | rankComma
  | closeRank | nextAfterName => exact .inl opened
  | closeAfterName => exact .inl (List.mem_cons_of_mem _ opened)
  | nullable complete | pointer complete | openRank complete | nextArgument complete
  | closeArguments complete | fieldName complete | nextField complete =>
      left
      rw [complete.openTuples]
      exact opened
  | closeTuple complete =>
      left
      rw [complete.openTuples]
      exact List.mem_cons_of_mem _ opened

/-- The tuple's bracket was read at its offset, after the tokens of the brackets around it. -/
def OpenedAt (read : List PlacedToken) (tuple : Nat × List Frame) : Prop :=
  ∃ before inside, read = before ++ ⟨tuple.1, .mark '('⟩ :: inside ∧
    before.map PlacedToken.token = tuple.2.reverse.flatMap Frame.opened

theorem OpenedAt.concat {read : List PlacedToken} {tuple : Nat × List Frame}
    (h : OpenedAt read tuple) (placed : PlacedToken) : OpenedAt (read ++ [placed]) tuple := by
  obtain ⟨before, inside, rfl, tokens⟩ := h
  exact ⟨before, inside ++ [placed], by simp, tokens⟩

/-- Where a tuple would be closed too soon, what was read since its bracket is one element. -/
theorem HoldsLone.element {start : Nat} {state : State} (holds : HoldsLone start state)
    (formed : state.WellFormed) {own : List Token} (read : state.stage.ReadFrom own) :
    ∃ field frames, Grammar.FieldWellFormed field ∧ (start, frames) ∈ state.openTuples ∧
      state.frames.reverse.flatMap Frame.opened ++ own =
        frames.reverse.flatMap Frame.opened ++ .mark '(' :: field.tokens := by
  cases holds with
  | @unnamed stage type complete frames =>
      refine ⟨⟨type, none⟩, frames, ⟨complete.wellFormed formed.stage, by simp⟩, ?_, ?_⟩
      · rw [complete.openTuples]
        exact List.mem_cons_self
      · rw [complete.readFrom read]
        simp [Frame.opened, ended, TupleField.tokens]
  | named few frames =>
      cases read with
      | field offset field items =>
          rw [List.length_cons] at few
          obtain rfl : items = [] := List.eq_nil_of_length_eq_zero (by omega)
          obtain ⟨types, names⟩ := formed.stage
          refine ⟨field, frames, ⟨types field List.mem_cons_self, names field List.mem_cons_self⟩,
            List.mem_cons_self, ?_⟩
          simp [Frame.opened, ended]

/-- What holds of a state that the placed tokens lead to from the start. -/
structure Reached (read : List PlacedToken) (state : State) : Prop where
  readFrom : state.ReadFrom (read.map PlacedToken.token)
  admitted : ∀ placed ∈ read, placed.token.isAdmitted = true
  formed : (∀ placed ∈ read, placed.token.Lexical) → state.WellFormed
  opened : ∀ tuple ∈ state.openTuples, OpenedAt read tuple

theorem Reached.move {read : List PlacedToken} {placed : PlacedToken} {state next : State}
    (move : Move placed.offset state placed.token next) (h : Reached read state) :
    Reached (read ++ [placed]) next where
  readFrom := by
    rw [List.map_append, List.map_singleton]
    exact move.readFrom h.readFrom
  admitted := by
    intro other listed
    obtain old | new := List.mem_append.mp listed
    · exact h.admitted other old
    · rw [List.mem_singleton.mp new]
      exact move.isAdmitted
  formed := by
    intro lexical
    refine move.wellFormed (lexical placed (by simp)) (h.formed ?_)
    intro other listed
    exact lexical other (List.mem_append_left _ listed)
  opened := by
    intro tuple listed
    obtain old | ⟨bracket, start, rfl⟩ := move.openTuples listed
    · exact (h.opened tuple old).concat placed
    · obtain ⟨own, stage, tokens⟩ := h.readFrom
      rw [start] at stage
      cases stage
      rw [List.append_nil] at tokens
      exact ⟨read, [], by rw [← bracket], tokens⟩

theorem reached_of_run {read : List PlacedToken} {state : State}
    (run : read.foldlM step State.initial = .ok state) : Reached read state := by
  have start : Reached [] State.initial :=
    { readFrom := ⟨[], .start, rfl⟩
      admitted := by simp
      formed := fun _ => ⟨trivial, by simp [State.initial]⟩
      opened := by simp [State.initial, State.openTuples, Frame.openTuples] }
  exact foldlM_step_placed Reached.move start run

/-- A tuple that would be closed too soon has its bracket at the offset that is reported. -/
theorem Reached.lone {read : List PlacedToken} {state : State} (h : Reached read state)
    (lexical : ∀ placed ∈ read, placed.token.Lexical) {start : Nat}
    (holds : HoldsLone start state) :
    ∃ before inside field, read = before ++ ⟨start, .mark '('⟩ :: inside ∧
      Grammar.FieldWellFormed field ∧ inside.map PlacedToken.token = field.tokens := by
  obtain ⟨own, stage, tokens⟩ := h.readFrom
  obtain ⟨field, frames, formed, opened, own_eq⟩ := holds.element (h.formed lexical) stage
  obtain ⟨before, inside, rfl, around⟩ := h.opened _ opened
  refine ⟨before, inside, field, rfl, formed, ?_⟩
  -- the tokens of the brackets around are the same on both sides, so the rest is the element
  rw [own_eq, List.map_append, around, List.map_cons] at tokens
  exact (List.cons.inj (List.append_cancel_left tokens)).2

end OpenTuples

end Reader

open Reader

/-- Some text that starts with this one is a type. -/
def Extendable (start : String) : Prop :=
  ∃ more type, parse (start ++ more) = .ok type

theorem parse_of_scan {text : String} {before later : List PlacedToken} {state : State}
    (scanned : Token.scan text = before ++ later)
    (run : before.foldlM step State.initial = .ok state) :
    parse text = later.foldlM step state >>= finish := by
  unfold parse Reader.run
  rw [scanned, List.foldlM_append, run]
  rfl

/-- An error comes from the first token that is refused, or from the end of the text. -/
theorem parse_eq_error {text : String} {error : ReadError} (h : parse text = .error error) :
    (∃ before refused after state, Token.scan text = before ++ refused :: after ∧
        before.foldlM step State.initial = .ok state ∧ step state refused = .error error) ∨
      ∃ state, (Token.scan text).foldlM step State.initial = .ok state ∧
        finish state = .error error := by
  cases ran : (Token.scan text).foldlM step State.initial with
  | error other =>
      unfold parse Reader.run at h
      rw [ran] at h
      cases h
      exact .inl (foldlM_step_eq_error ran)
  | ok state =>
      unfold parse Reader.run at h
      rw [ran] at h
      exact .inr ⟨state, rfl, h⟩

theorem extendable_of_cut {text front rest : List Char} {before : List PlacedToken}
    {state : State} (cut : Token.Cut 0 text before front rest)
    (run : before.foldlM step State.initial = .ok state) : Extendable (String.ofList front) := by
  obtain ⟨last, whole, complete, reads⟩ := reads_ending (reached_of_run run).readFrom
  refine ⟨String.ofList (' ' :: state.ending), whole, ?_⟩
  have scanned : Token.scan (String.ofList front ++ String.ofList (' ' :: state.ending)) =
      before ++ Token.scanFrom 0 (0 + Text.byteLength front) (' ' :: state.ending) := by
    rw [Token.scan, String.toList_append, String.toList_ofList, String.toList_ofList]
    exact cut.scanned _ (Token.startsLike_blank (by decide) _ _)
  have tokens : (Token.scanFrom 0 (0 + Text.byteLength front) (' ' :: state.ending)).map
      PlacedToken.token = Token.lex state.ending := by
    rw [Token.map_token_scanFrom, List.drop_zero, Token.lex_blank (by decide)]
  rw [parse_of_scan scanned run, reads _ tokens]
  exact finish_of_completes complete

theorem not_extendable_of_refused {text front rest : List Char} {before : List PlacedToken}
    {refused : PlacedToken} {c : Char} {state : State} {error : ReadError}
    (cut : Token.Cut 0 text before front (c :: rest))
    (place : Text.byteLength front = refused.offset)
    (started : Token.StartedBy c refused.token) (single : c ≠ ':')
    (run : before.foldlM step State.initial = .ok state)
    (refuses : step state refused = .error error) :
    ¬ Extendable (String.ofList front ++ String.singleton c) := by
  rintro ⟨more, type, parsed⟩
  obtain ⟨token, later, first, alsoStarted⟩ :=
    Token.scanFrom_visible (cut.visible c rfl) (0 + Text.byteLength front) more.toList
  have scanned : Token.scan (String.ofList front ++ String.singleton c ++ more) =
      before ++ ⟨0 + Text.byteLength front, token⟩ :: later := by
    rw [Token.scan, String.toList_append, String.toList_append, String.toList_ofList,
      String.toList_singleton, List.append_assoc, List.singleton_append,
      cut.scanned _ (Token.startsLike_cons c _ _), first]
  rw [parse_of_scan scanned run, List.foldlM_cons] at parsed
  cases moved : step state ⟨0 + Text.byteLength front, token⟩ with
  | error other =>
      rw [moved] at parsed
      cases parsed
  | ok next =>
      -- a token that starts with the same character would be taken, so the refused one would be
      obtain ⟨last, move⟩ :=
        (move_of_step moved).of_alike (alike_of_startedBy alsoStarted started single)
      have taken := step_of_move move
      rw [Nat.zero_add, place, refuses] at taken
      cases taken

/-- The text is cut at this byte, the character after the cut is the one found, which is no blank,
and it is the first one that cannot stand where it does. -/
def OffendsAt (text : String) (found : Char) (offset : Nat) : Prop :=
  ∃ front rest : String, text = front ++ String.singleton found ++ rest ∧
    front.utf8ByteSize = offset ∧ Text.isBlank found = false ∧ Extendable front ∧
    (found ≠ ':' → ¬ Extendable (front ++ String.singleton found))

theorem offendsAt_of_refused {text : String} {before after : List PlacedToken}
    {refused : PlacedToken} {state : State} {error : ReadError}
    (scanned : Token.scan text = before ++ refused :: after)
    (run : before.foldlM step State.initial = .ok state)
    (refuses : step state refused = .error error) :
    OffendsAt text refused.token.first refused.offset := by
  obtain ⟨front, rest, cut, place, visible, started⟩ := Token.exists_cut_before scanned
  refine ⟨String.ofList front, String.ofList rest, ?_, ?_, visible, extendable_of_cut cut run,
    fun single => not_extendable_of_refused cut place started single run refuses⟩
  · apply String.toList_inj.mp
    simp [cut.text_eq]
  · rw [← Text.byteLength_toList, String.toList_ofList, place]

/-- At this byte of the text stands a single tuple element in brackets: a type, perhaps with a
name. -/
def BracketsFieldAt (text : String) (offset : Nat) : Prop :=
  ∃ front inside rest : String, text = front ++ "(" ++ inside ++ ")" ++ rest ∧
    front.utf8ByteSize = offset ∧
    ∃ tokens field, Token.Tokenizes inside.toList tokens ∧ Grammar.IsField tokens field

theorem bracketsFieldAt_of_lone {text : String} {before after : List PlacedToken}
    {refused : PlacedToken} {state : State} {start : Nat}
    (scanned : Token.scan text = before ++ refused :: after)
    (run : before.foldlM step State.initial = .ok state)
    (bracket : refused.token = .mark ')') (holds : HoldsLone start state) :
    BracketsFieldAt text start := by
  have lexical : ∀ placed ∈ before, placed.token.Lexical := by
    intro placed listed
    refine Token.lexical_of_mem_scanFrom 0 0 text.toList placed ?_
    rw [← Token.scan, scanned]
    exact List.mem_append_left _ listed
  have reached := reached_of_run run
  obtain ⟨outside, inside, field, rfl, ⟨typed, named⟩, tokens⟩ := reached.lone lexical holds
  -- cut the text at the closing bracket, and what stands before it at the opening one
  obtain ⟨upTo, rest, closed, -⟩ := Token.exists_cut_before scanned
  obtain ⟨front, middle, opened, place, -⟩ := Token.exists_cut_before closed.scan_front
  dsimp only [Token.first] at opened place
  have within : Token.lex middle = field.tokens := by
    have lexed := Token.map_token_scanFrom 0 (0 + Text.byteLength front) ('(' :: middle)
    rw [opened.scan_rest closed.scan_front, List.drop_zero, Token.lex_mark (by decide),
      List.map_cons, tokens] at lexed
    exact (List.cons.inj lexed).2.symm
  refine ⟨String.ofList front, String.ofList middle, String.ofList rest, ?_, ?_, field.tokens,
    field, ?_, ?_⟩
  · apply String.toList_inj.mp
    simp [closed.text_eq, opened.text_eq, bracket, Token.first]
  · rw [← Text.byteLength_toList, String.toList_ofList, place]
  · rw [String.toList_ofList, ← within]
    refine Token.tokenizes_lex middle ?_
    rw [within, ← tokens, List.all_map, List.all_eq_true]
    intro placed listed
    exact reached.admitted placed (List.mem_append_right _ (List.mem_cons_of_mem _ listed))
  · exact Grammar.isField_tokens (Grammar.isType_tokens typed) named

/-- Errors point at the first offending place: an empty text is all blanks; before an unexpected
character the text could go on to a type, and with it no more; a text that ends too soon could go on
as a whole; and where a tuple has too few elements, a bracketed single element stands. -/
theorem parse_error_places (text : String) :
    (parse text = .error .empty ↔ ∀ c ∈ text.toList, Text.isBlank c = true) ∧
      (∀ found offset, parse text = .error (.unexpectedChar found offset) →
        OffendsAt text found offset) ∧
      (parse text = .error .unexpectedEnd → Extendable text) ∧
      ∀ offset, parse text = .error (.singleElementTuple offset) → BracketsFieldAt text offset := by
  refine ⟨⟨?_, ?_⟩, ?_, ?_, ?_⟩
  · intro failed
    obtain ⟨_, _, _, _, _, _, refuses⟩ | ⟨state, run, ends⟩ := parse_eq_error failed
    · cases refuses_of_step refuses
    · obtain ⟨rfl, -⟩ | ended := finish_eq_error ends
      · obtain ⟨own, ⟨⟩, tokens⟩ := (reached_of_run run).readFrom
        exact (Token.scanFrom_eq_nil_iff 0 _).mp (List.map_eq_nil_iff.mp tokens)
      · cases ended
  · intro blank
    have none : Token.scan text = [] := (Token.scanFrom_eq_nil_iff 0 _).mpr blank
    unfold parse
    rw [none]
    rfl
  · intro found offset failed
    obtain ⟨before, refused, after, state, scanned, run, refuses⟩ | ⟨state, run, ends⟩ :=
      parse_eq_error failed
    · cases refuses_of_step refuses
      exact offendsAt_of_refused scanned run refuses
    · obtain ⟨-, ended⟩ | ended := finish_eq_error ends
      all_goals cases ended
  · intro failed
    obtain ⟨_, _, _, _, _, _, refuses⟩ | ⟨state, run, -⟩ := parse_eq_error failed
    · cases refuses_of_step refuses
    · have whole := extendable_of_cut (Token.cut_all text.toList) run
      rwa [String.ofList_toList] at whole
  · intro offset failed
    obtain ⟨before, refused, after, state, scanned, run, refuses⟩ | ⟨state, run, ends⟩ :=
      parse_eq_error failed
    · cases refuses_of_step refuses with
      | lone bracket holds => exact bracketsFieldAt_of_lone scanned run bracket holds
    · obtain ⟨-, ended⟩ | ended := finish_eq_error ends
      all_goals cases ended

/-- The letters of `Größe` take seven bytes, so its bracket is closed wrongly at byte 11; the tuple
in `List` has a single element. -/
theorem parse_error_places_brackets :
    (parse "Größe<int]" = .error (.unexpectedChar ']' 11) ∧ OffendsAt "Größe<int]" ']' 11) ∧
      (parse "Map<(int, " = .error .unexpectedEnd ∧ Extendable "Map<(int, ") ∧
      (parse "List<( int @a )>" = .error (.singleElementTuple 5) ∧
        BracketsFieldAt "List<( int @a )>" 5) ∧
      parse " \t" = .error .empty := by
  have wrong : parse "Größe<int]" = .error (.unexpectedChar ']' 11) := by rfl
  have openEnd : parse "Map<(int, " = .error .unexpectedEnd := by rfl
  have lone : parse "List<( int @a )>" = .error (.singleElementTuple 5) := by rfl
  have blank : ∀ c ∈ " \t".toList, Text.isBlank c = true := List.all_eq_true.mp (by decide)
  exact ⟨⟨wrong, (parse_error_places _).2.1 _ _ wrong⟩,
    ⟨openEnd, (parse_error_places _).2.2.1 openEnd⟩,
    ⟨lone, (parse_error_places _).2.2.2 _ lone⟩, (parse_error_places _).1.mpr blank⟩

end TypeRef
end InterfaceGen
