import InterfaceGen.TypeRef.Reader

/-!
The transitions of the type reader. `Move` lists every way in which one token takes the reader from
a state to the next; by `move_of_step` and `step_of_move` these are exactly the successful steps.
Three stages may hold a complete type; `Completes` reads it off, so that each mark after a type is
one transition and not three.
-/

namespace InterfaceGen
namespace TypeRef
namespace Reader

/-- The stage holds this type, complete unless further marks extend it. -/
inductive Completes : Stage → TypeRef → Prop where
  | word (stem : NameStem) (word : String) : Completes (.word stem word) (stem.push word []).toType
  | name (stem : NameStem) : Completes (.name stem) stem.toType
  | type (type : TypeRef) : Completes (.type type) type

/-- A token that starts at `offset` takes the first state to the second. -/
inductive Move (offset : Nat) : State → Token → State → Prop where
  | firstWord (first : Char) (rest : List Char) (frames : List Frame) :
      Move offset ⟨.start, frames⟩ (.word first rest)
        ⟨.word ⟨none, []⟩ (String.ofList (first :: rest)), frames⟩
  | openTuple (frames : List Frame) :
      Move offset ⟨.start, frames⟩ (.mark '(') ⟨.start, .fields offset [] :: frames⟩
  | nextWord (stem : NameStem) (first : Char) (rest : List Char) (frames : List Frame) :
      Move offset ⟨.wordWanted stem, frames⟩ (.word first rest)
        ⟨.word stem (String.ofList (first :: rest)), frames⟩
  | aliasName (word : String) (frames : List Frame) :
      Move offset ⟨.word ⟨none, []⟩ word, frames⟩ .aliasMark
        ⟨.wordWanted ⟨some word, []⟩, frames⟩
  | openArguments (stem : NameStem) (word : String) (frames : List Frame) :
      Move offset ⟨.word stem word, frames⟩ (.mark '<') ⟨.start, .arguments stem word [] :: frames⟩
  | wordPoint (stem : NameStem) (word : String) (frames : List Frame) :
      Move offset ⟨.word stem word, frames⟩ (.mark '.') ⟨.wordWanted (stem.push word []), frames⟩
  | namePoint (stem : NameStem) (frames : List Frame) :
      Move offset ⟨.name stem, frames⟩ (.mark '.') ⟨.wordWanted stem, frames⟩
  | nullable {stage : Stage} {type : TypeRef} (complete : Completes stage type)
      (frames : List Frame) :
      Move offset ⟨stage, frames⟩ (.mark '?') ⟨.type (.nullable type), frames⟩
  | pointer {stage : Stage} {type : TypeRef} (complete : Completes stage type)
      (frames : List Frame) :
      Move offset ⟨stage, frames⟩ (.mark '*') ⟨.type (.pointer type), frames⟩
  | openRank {stage : Stage} {type : TypeRef} (complete : Completes stage type)
      (frames : List Frame) :
      Move offset ⟨stage, frames⟩ (.mark '[') ⟨.rank type 1, frames⟩
  | rankComma (element : TypeRef) (rank : Nat) (frames : List Frame) :
      Move offset ⟨.rank element rank, frames⟩ (.mark ',') ⟨.rank element (rank + 1), frames⟩
  | closeRank (element : TypeRef) (rank : Nat) (frames : List Frame) :
      Move offset ⟨.rank element rank, frames⟩ (.mark ']') ⟨.type (.array element rank), frames⟩
  | nextArgument {stage : Stage} {type : TypeRef} (complete : Completes stage type)
      (stem : NameStem) (word : String) (items : List TypeRef) (frames : List Frame) :
      Move offset ⟨stage, .arguments stem word items :: frames⟩ (.mark ',')
        ⟨.start, .arguments stem word (type :: items) :: frames⟩
  | closeArguments {stage : Stage} {type : TypeRef} (complete : Completes stage type)
      (stem : NameStem) (word : String) (items : List TypeRef) (frames : List Frame) :
      Move offset ⟨stage, .arguments stem word items :: frames⟩ (.mark '>')
        ⟨.name (stem.push word (type :: items).reverse), frames⟩
  | fieldName {stage : Stage} {type : TypeRef} (complete : Completes stage type)
      (start : Nat) (items : List TupleField) (first : Char) (rest : List Char)
      (frames : List Frame) :
      Move offset ⟨stage, .fields start items :: frames⟩ (.word first rest)
        ⟨.field start (⟨type, some (String.ofList (first :: rest))⟩ :: items), frames⟩
  | nextField {stage : Stage} {type : TypeRef} (complete : Completes stage type)
      (start : Nat) (items : List TupleField) (frames : List Frame) :
      Move offset ⟨stage, .fields start items :: frames⟩ (.mark ',')
        ⟨.start, .fields start (⟨type, none⟩ :: items) :: frames⟩
  | closeTuple {stage : Stage} {type : TypeRef} (complete : Completes stage type)
      (start : Nat) (item : TupleField) (items : List TupleField) (frames : List Frame) :
      Move offset ⟨stage, .fields start (item :: items) :: frames⟩ (.mark ')')
        ⟨.type (.tuple (⟨type, none⟩ :: item :: items).reverse), frames⟩
  | nextAfterName (start : Nat) (items : List TupleField) (frames : List Frame) :
      Move offset ⟨.field start items, frames⟩ (.mark ',')
        ⟨.start, .fields start items :: frames⟩
  | closeAfterName (start : Nat) (last item : TupleField) (items : List TupleField)
      (frames : List Frame) :
      Move offset ⟨.field start (last :: item :: items), frames⟩ (.mark ')')
        ⟨.type (.tuple (last :: item :: items).reverse), frames⟩

theorem step_of_completes {stage : Stage} {type : TypeRef} (complete : Completes stage type)
    (frames : List Frame) {placed : PlacedToken} (notAlias : placed.token ≠ .aliasMark)
    (notOpen : placed.token ≠ .mark '<') (notPoint : placed.token ≠ .mark '.') :
    step ⟨stage, frames⟩ placed = afterType placed type frames := by
  cases complete with
  | word stem word =>
      simp only [step]
      split
      · exact absurd ‹_› notAlias
      · exact absurd ‹_› notOpen
      · exact absurd ‹_› notPoint
      · rfl
  | name stem => simp only [step]
  | type type => rfl

theorem step_of_move {offset : Nat} {state next : State} {token : Token}
    (h : Move offset state token next) : step state ⟨offset, token⟩ = .ok next := by
  cases h with
  | firstWord | openTuple | nextWord | aliasName | openArguments | wordPoint | namePoint
  | rankComma | closeRank | nextAfterName | closeAfterName => rfl
  | nullable complete | pointer complete | openRank complete | nextArgument complete
  | closeArguments complete | fieldName complete | nextField complete | closeTuple complete =>
      rw [step_of_completes complete _ (by simp) (by simp) (by simp)]
      rfl

theorem afterField_eq_ok {placed : PlacedToken} {start : Nat} {items : List TupleField}
    {frames : List Frame} {next : State} (h : afterField placed start items frames = .ok next) :
    (placed.token = .mark ',' ∧ next = ⟨.start, .fields start items :: frames⟩) ∨
      (placed.token = .mark ')' ∧ ∃ last item rest, items = last :: item :: rest ∧
        next = ⟨.type (.tuple items.reverse), frames⟩) := by
  unfold afterField at h
  split at h
  · rename_i comma
    cases h
    exact .inl ⟨comma, rfl⟩
  · rename_i bracket
    unfold TypeRef.Reader.closeTuple at h
    split at h
    · rename_i last item rest
      cases h
      exact .inr ⟨bracket, last, item, rest, rfl, rfl⟩
    · cases h
  · cases h

theorem move_of_afterType {offset : Nat} {stage : Stage} {type : TypeRef} {frames : List Frame}
    {token : Token} {next : State} (complete : Completes stage type)
    (h : afterType ⟨offset, token⟩ type frames = .ok next) :
    Move offset ⟨stage, frames⟩ token next := by
  unfold afterType at h
  split at h
  · rename_i mark
    cases mark
    cases h
    exact .nullable complete _
  · rename_i mark
    cases mark
    cases h
    exact .pointer complete _
  · rename_i mark
    cases mark
    cases h
    exact .openRank complete _
  · rename_i stem word items outer mark
    cases mark
    cases h
    exact .closeArguments complete stem word items outer
  · rename_i stem word items outer mark
    cases mark
    cases h
    exact .nextArgument complete stem word items outer
  · rename_i first rest start items outer mark
    cases mark
    cases h
    exact .fieldName complete start items first rest outer
  · rename_i start items outer _ _ _ _
    obtain ⟨mark, rfl⟩ | ⟨mark, last, item, rest, fields, rfl⟩ := afterField_eq_ok h
    · cases mark
      exact .nextField complete start items outer
    · cases mark
      cases fields
      exact .closeTuple complete start item rest outer
  · cases h

theorem move_of_step {offset : Nat} {state next : State} {token : Token}
    (h : step state ⟨offset, token⟩ = .ok next) : Move offset state token next := by
  obtain ⟨stage, frames⟩ := state
  cases stage with
  | start =>
      simp only [step] at h
      split at h
      · cases h
        exact .firstWord ..
      · cases h
        exact .openTuple ..
      · cases h
  | wordWanted stem =>
      simp only [step] at h
      split at h
      · cases h
        exact .nextWord ..
      · cases h
  | word stem word =>
      simp only [step] at h
      split at h
      · cases h
        exact .aliasName ..
      · cases h
        exact .openArguments ..
      · cases h
        exact .wordPoint ..
      · exact move_of_afterType (.word stem word) h
  | name stem =>
      simp only [step] at h
      split at h
      · cases h
        exact .namePoint ..
      · exact move_of_afterType (.name stem) h
  | type type => exact move_of_afterType (.type type) h
  | rank element rank =>
      simp only [step] at h
      split at h
      · cases h
        exact .rankComma ..
      · cases h
        exact .closeRank ..
      · cases h
  | field start items =>
      obtain ⟨mark, rfl⟩ | ⟨mark, last, item, rest, rfl, rfl⟩ := afterField_eq_ok h
      · cases mark
        exact .nextAfterName start items frames
      · cases mark
        exact .closeAfterName start last item rest frames

/-- What each move keeps up of the placed tokens read so far holds after a run over any number of
them. -/
theorem foldlM_step_placed {motive : List PlacedToken → State → Prop}
    (keep : ∀ {placed state next read}, Move placed.offset state placed.token next →
      motive read state → motive (read ++ [placed]) next)
    {placed read : List PlacedToken} {state last : State} (start : motive read state)
    (run : placed.foldlM step state = .ok last) : motive (read ++ placed) last := by
  induction placed generalizing state read with
  | nil =>
      cases run
      simpa using start
  | cons first rest ih =>
      rw [List.foldlM_cons] at run
      cases moved : step state first with
      | error error =>
          rw [moved] at run
          cases run
      | ok next =>
          rw [moved] at run
          simpa using ih (keep (move_of_step moved) start) run

/-- What each move keeps up holds after a run over any number of tokens. -/
theorem foldlM_step_induction {motive : List Token → State → Prop}
    (keep : ∀ {offset state token next read}, Move offset state token next → motive read state →
      motive (read ++ [token]) next)
    {placed : List PlacedToken} {state last : State} {read : List Token}
    (start : motive read state) (run : placed.foldlM step state = .ok last) :
    motive (read ++ placed.map PlacedToken.token) last := by
  have begun : motive (read ++ ([] : List PlacedToken).map PlacedToken.token) state := by
    simpa using start
  refine foldlM_step_placed
    (motive := fun seen state => motive (read ++ seen.map PlacedToken.token) state) ?_ begun run
  intro placed state next seen move before
  simpa using keep move before

theorem completes_of_finish {state : State} {type : TypeRef} (h : finish state = .ok type) :
    ∃ stage, Completes stage type ∧ state = ⟨stage, []⟩ := by
  unfold finish at h
  split at h
  · cases h
  · cases h
    exact ⟨_, .word _ _, rfl⟩
  · cases h
    exact ⟨_, .name _, rfl⟩
  · cases h
    exact ⟨_, .type _, rfl⟩
  · cases h

/-- A type that was read is held at the end, with no bracket open, by a state that has all that the
moves keep up. -/
theorem completes_of_parse {motive : List Token → State → Prop}
    (keep : ∀ {offset state token next read}, Move offset state token next → motive read state →
      motive (read ++ [token]) next)
    (start : motive [] State.initial) {text : String} {type : TypeRef}
    (h : parse text = .ok type) :
    ∃ stage, Completes stage type ∧
      motive ((Token.scan text).map PlacedToken.token) ⟨stage, []⟩ := by
  unfold parse run at h
  cases ran : (Token.scan text).foldlM step State.initial with
  | error error =>
      rw [ran] at h
      cases h
  | ok last =>
      rw [ran] at h
      obtain ⟨stage, complete, rfl⟩ := completes_of_finish h
      exact ⟨stage, complete, foldlM_step_induction keep start ran⟩

end Reader
end TypeRef
end InterfaceGen
