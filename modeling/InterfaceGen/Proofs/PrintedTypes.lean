import InterfaceGen.Proofs.TypeTokens

/-!
Reading a printed type gives the type back. `Reads` follows the reader over a list of tokens,
wherever these stand in the text. A well-formed type takes the reader from the start of a type to a
stage that holds exactly this type, under any open brackets, so that the loops over type arguments,
name segments and tuple elements need nothing from their items but that.
-/

namespace InterfaceGen
namespace TypeRef
namespace Reader

/-- Whatever their places, the tokens take the first state to the second. -/
def Reads (state : State) (tokens : List Token) (last : State) : Prop :=
  ∀ placed : List PlacedToken, placed.map PlacedToken.token = tokens →
    placed.foldlM step state = .ok last

theorem reads_nil (state : State) : Reads state [] state := by
  intro placed none
  cases List.map_eq_nil_iff.mp none
  rfl

theorem reads_cons {state last : State} {token : Token} {rest : List Token}
    (h : ∀ offset, ∃ next, Move offset state token next ∧ Reads next rest last) :
    Reads state (token :: rest) last := by
  intro placed tokens
  obtain ⟨⟨offset, first⟩, later, rfl, rfl, restTokens⟩ := List.map_eq_cons_iff.mp tokens
  obtain ⟨next, move, follows⟩ := h offset
  rw [List.foldlM_cons, step_of_move move]
  exact follows later restTokens

theorem Reads.after {state next last : State} {token : Token} {rest : List Token}
    (h : Reads next rest last) (move : ∀ offset, Move offset state token next) :
    Reads state (token :: rest) last :=
  reads_cons fun offset => ⟨next, move offset, h⟩

theorem reads_token {state next : State} {token : Token}
    (move : ∀ offset, Move offset state token next) : Reads state [token] next :=
  (reads_nil next).after move

theorem Reads.append {state next last : State} {tokens more : List Token}
    (h : Reads state tokens next) (k : Reads next more last) : Reads state (tokens ++ more) last := by
  intro placed all
  obtain ⟨first, second, rfl, firstTokens, secondTokens⟩ := List.map_eq_append_iff.mp all
  rw [List.foldlM_append, h first firstTokens]
  exact k second secondTokens

/-- Under any open brackets, the tokens of the type lead to a stage that holds the type. -/
def Readable (type : TypeRef) : Prop :=
  ∀ frames, ∃ stage, Completes stage type ∧ Reads ⟨.start, frames⟩ type.tokens ⟨stage, frames⟩

theorem finish_of_completes {stage : Stage} {type : TypeRef} (complete : Completes stage type) :
    finish ⟨stage, []⟩ = .ok type := by
  cases complete <;> rfl

theorem Readable.append {type extended : TypeRef} {more : List Token} (h : Readable type)
    (tokens : extended.tokens = type.tokens ++ more)
    (extend : ∀ stage frames, Completes stage type →
      Reads ⟨stage, frames⟩ more ⟨.type extended, frames⟩) : Readable extended := by
  intro frames
  obtain ⟨stage, complete, reads⟩ := h frames
  rw [tokens]
  exact ⟨.type extended, .type extended, reads.append (extend stage frames complete)⟩

theorem reads_rank (element : TypeRef) (rank count : Nat) (frames : List Frame) :
    Reads ⟨.rank element rank, frames⟩ (List.replicate count (.mark ',') ++ [.mark ']'])
      ⟨.type (.array element (rank + count)), frames⟩ := by
  induction count generalizing rank with
  | zero => exact reads_token fun offset => .closeRank element rank frames
  | succ count ih =>
      have later := ih (rank + 1)
      rw [Nat.add_assoc, Nat.add_comm 1] at later
      exact later.after fun offset => .rankComma element rank frames

theorem reads_arguments {types : List TypeRef} (nonempty : types ≠ [])
    (each : ∀ type ∈ types, Readable type) (stem : NameStem) (word : String)
    (items : List TypeRef) (frames : List Frame) :
    Reads ⟨.start, .arguments stem word items :: frames⟩
      ([Token.mark ','].intercalate (types.map TypeRef.tokens) ++ [.mark '>'])
      ⟨.name (stem.push word (items.reverse ++ types)), frames⟩ := by
  induction types generalizing items with
  | nil => exact absurd rfl nonempty
  | cons type rest ih =>
      obtain ⟨first, later⟩ := List.forall_mem_cons.mp each
      obtain ⟨stage, complete, reads⟩ := first (.arguments stem word items :: frames)
      cases rest with
      | nil =>
          have close : Reads ⟨stage, .arguments stem word items :: frames⟩ [.mark '>']
              ⟨.name (stem.push word (type :: items).reverse), frames⟩ :=
            reads_token fun offset => .closeArguments complete stem word items frames
          simpa using reads.append close
      | cons next rest =>
          have others := ih (by simp) later (type :: items)
          have all := reads.append (others.after fun offset =>
            .nextArgument complete stem word items frames)
          simpa using all

/-- The stage expects a word that continues this stem. -/
inductive WantsWord : Stage → NameStem → Prop where
  | start : WantsWord .start ⟨none, []⟩
  | wordWanted (stem : NameStem) : WantsWord (.wordWanted stem) stem

/-- The stage holds a name whose segments so far are those of the stem. -/
inductive Names : Stage → NameStem → Prop where
  | word (stem : NameStem) (word : String) : Names (.word stem word) (stem.push word [])
  | name (stem : NameStem) : Names (.name stem) stem

theorem Names.completes {stage : Stage} {stem : NameStem} (h : Names stage stem) :
    Completes stage stem.toType := by
  cases h with
  | word stem word => exact .word stem word
  | name => exact .name stem

theorem Names.point {stage : Stage} {stem : NameStem} (h : Names stage stem)
    (frames : List Frame) (offset : Nat) :
    Move offset ⟨stage, frames⟩ (.mark '.') ⟨.wordWanted stem, frames⟩ := by
  cases h with
  | word stem word => exact .wordPoint stem word frames
  | name => exact .namePoint stem frames

theorem ofWord_of_isWord {word : String} (h : Text.isWord word = true) :
    ∃ first rest, Token.ofWord word = [.word first rest] ∧ String.ofList (first :: rest) = word := by
  unfold Text.isWord at h
  split at h
  · cases h
  · rename_i first rest chars
    refine ⟨first, rest, ?_, ?_⟩
    · rw [Token.ofWord, chars]
    · rw [← chars, String.ofList_toList]

theorem WantsWord.reads {stage : Stage} {stem : NameStem} (h : WantsWord stage stem)
    {word : String} (identifier : Text.isWord word = true) (frames : List Frame) :
    Reads ⟨stage, frames⟩ (Token.ofWord word) ⟨.word stem word, frames⟩ := by
  obtain ⟨first, rest, token, rfl⟩ := ofWord_of_isWord identifier
  rw [token]
  cases h with
  | start => exact reads_token fun offset => .firstWord first rest frames
  | wordWanted => exact reads_token fun offset => .nextWord stem first rest frames

theorem reads_segment {segment : Segment} (word : Text.isWord segment.word = true)
    (types : ∀ type ∈ segment.arguments, Readable type) {stage : Stage} {stem : NameStem}
    (wanted : WantsWord stage stem) (frames : List Frame) :
    ∃ next, Names next ⟨stem.aliasName, segment :: stem.closed⟩ ∧
      Reads ⟨stage, frames⟩ segment.tokens ⟨next, frames⟩ := by
  obtain ⟨name, arguments⟩ := segment
  cases arguments with
  | nil => exact ⟨.word stem name, .word stem name, wanted.reads word frames⟩
  | cons first rest =>
      have items := reads_arguments (List.cons_ne_nil first rest) types stem name [] frames
      have bracketed := items.after fun offset => .openArguments stem name frames
      refine ⟨.name (stem.push name (first :: rest)), .name _, ?_⟩
      simpa [Segment.tokens] using (wanted.reads word frames).append bracketed

theorem reads_segments {segments : List Segment} (nonempty : segments ≠ [])
    (words : ∀ segment ∈ segments, Text.isWord segment.word = true)
    (types : ∀ segment ∈ segments, ∀ type ∈ segment.arguments, Readable type) {stage : Stage}
    {stem : NameStem} (wanted : WantsWord stage stem) (frames : List Frame) :
    ∃ next, Names next ⟨stem.aliasName, segments.reverse ++ stem.closed⟩ ∧
      Reads ⟨stage, frames⟩ ([Token.mark '.'].intercalate (segments.map Segment.tokens))
        ⟨next, frames⟩ := by
  induction segments generalizing stage stem with
  | nil => exact absurd rfl nonempty
  | cons segment rest ih =>
      obtain ⟨word, laterWords⟩ := List.forall_mem_cons.mp words
      obtain ⟨arguments, laterTypes⟩ := List.forall_mem_cons.mp types
      obtain ⟨named, names, reads⟩ := reads_segment word arguments wanted frames
      cases rest with
      | nil =>
          refine ⟨named, ?_, ?_⟩
          · simpa using names
          · simpa using reads
      | cons next rest =>
          obtain ⟨last, lastNames, others⟩ := ih (by simp) laterWords laterTypes
            (.wordWanted ⟨stem.aliasName, segment :: stem.closed⟩)
          refine ⟨last, ?_, ?_⟩
          · simpa using lastNames
          · simpa using reads.append (others.after (names.point frames))

/-- The state has read the element of the tuple that starts at `start`, after `items`. -/
inductive HoldsField (start : Nat) (items : List TupleField) (frames : List Frame) :
    TupleField → State → Prop where
  | unnamed {stage : Stage} {type : TypeRef} (complete : Completes stage type) :
      HoldsField start items frames ⟨type, none⟩ ⟨stage, .fields start items :: frames⟩
  | named (type : TypeRef) (name : String) :
      HoldsField start items frames ⟨type, some name⟩
        ⟨.field start (⟨type, some name⟩ :: items), frames⟩

theorem HoldsField.comma {start : Nat} {items : List TupleField} {frames : List Frame}
    {field : TupleField} {state : State} (h : HoldsField start items frames field state)
    (offset : Nat) :
    Move offset state (.mark ',') ⟨.start, .fields start (field :: items) :: frames⟩ := by
  cases h with
  | unnamed complete => exact .nextField complete start items frames
  | named type name => exact .nextAfterName start _ frames

theorem HoldsField.close {start : Nat} {items : List TupleField} {frames : List Frame}
    {field : TupleField} {state : State} (h : HoldsField start items frames field state)
    (several : items ≠ []) (offset : Nat) :
    Move offset state (.mark ')') ⟨.type (.tuple (field :: items).reverse), frames⟩ := by
  obtain ⟨item, others, rfl⟩ := List.exists_cons_of_ne_nil several
  cases h with
  | unnamed complete => exact .closeTuple complete start item others frames
  | named type name => exact .closeAfterName start _ item others frames

theorem reads_field {field : TupleField} (type : Readable field.type)
    (names : ∀ word ∈ field.name, Text.isWord word = true) (start : Nat)
    (items : List TupleField) (frames : List Frame) :
    ∃ state, HoldsField start items frames field state ∧
      Reads ⟨.start, .fields start items :: frames⟩ field.tokens state := by
  obtain ⟨held, name⟩ := field
  obtain ⟨stage, complete, reads⟩ := type (.fields start items :: frames)
  cases name with
  | none => exact ⟨_, .unnamed complete, reads⟩
  | some name =>
      obtain ⟨first, rest, token, rfl⟩ := ofWord_of_isWord (names name rfl)
      refine ⟨_, .named held _, ?_⟩
      rw [TupleField.tokens, token]
      exact reads.append (reads_token fun offset =>
        .fieldName complete start items first rest frames)

theorem reads_fields {fields : List TupleField} (nonempty : fields ≠ [])
    (types : ∀ field ∈ fields, Readable field.type)
    (names : ∀ field ∈ fields, ∀ word ∈ field.name, Text.isWord word = true) (start : Nat)
    (items : List TupleField) (several : 2 ≤ items.length + fields.length) (frames : List Frame) :
    Reads ⟨.start, .fields start items :: frames⟩
      ([Token.mark ','].intercalate (fields.map TupleField.tokens) ++ [.mark ')'])
      ⟨.type (.tuple (items.reverse ++ fields)), frames⟩ := by
  induction fields generalizing items with
  | nil => exact absurd rfl nonempty
  | cons field rest ih =>
      obtain ⟨type, laterTypes⟩ := List.forall_mem_cons.mp types
      obtain ⟨name, laterNames⟩ := List.forall_mem_cons.mp names
      obtain ⟨state, holds, reads⟩ := reads_field type name start items frames
      cases rest with
      | nil =>
          have before : items ≠ [] := by
            rintro rfl
            simp at several
          simpa using reads.append (reads_token (holds.close before))
      | cons next rest =>
          have others := ih (by simp) laterTypes laterNames (field :: items)
            (by simp only [List.length_cons] at several ⊢; omega)
          simpa using reads.append (others.after holds.comma)

theorem readable_of_wellFormed {type : TypeRef} (h : type.WellFormed) : Readable type := by
  induction h with
  | @named aliasName segments nonempty aliases words arguments ih =>
      intro frames
      cases aliasName with
      | none =>
          obtain ⟨stage, names, reads⟩ := reads_segments nonempty words ih .start frames
          refine ⟨stage, ?_, ?_⟩
          · simpa [NameStem.toType] using names.completes
          · simpa [TypeRef.tokens, QualName.tokens] using reads
      | some word =>
          obtain ⟨stage, names, reads⟩ :=
            reads_segments nonempty words ih (.wordWanted ⟨some word, []⟩) frames
          refine ⟨stage, ?_, ?_⟩
          · simpa [NameStem.toType] using names.completes
          -- the alias is read as the first word of a name and turned into an alias by the mark
          · have aliased := reads.after fun offset => .aliasName word frames
            have started := WantsWord.start.reads (aliases word rfl) frames
            simpa [TypeRef.tokens, QualName.tokens] using started.append aliased
  | @array element rank inner positive ih =>
      refine ih.append rfl ?_
      intro stage frames complete
      have bracket := reads_rank element 1 (rank - 1) frames
      rw [Nat.add_sub_cancel' positive] at bracket
      exact bracket.after fun offset => .openRank complete frames
  | nullable inner ih =>
      refine ih.append rfl ?_
      intro stage frames complete
      exact reads_token fun offset => .nullable complete frames
  | pointer inner ih =>
      refine ih.append rfl ?_
      intro stage frames complete
      exact reads_token fun offset => .pointer complete frames
  | @tuple fields several types names ih =>
      intro frames
      have nonempty : fields ≠ [] := by
        rintro rfl
        simp at several
      refine ⟨.type (.tuple fields), .type _, ?_⟩
      -- the tuple's frame remembers where the bracket stands, so the move depends on the place
      have opened : Reads ⟨.start, frames⟩
          (.mark '(' :: ([Token.mark ','].intercalate (fields.map TupleField.tokens) ++ [.mark ')']))
          ⟨.type (.tuple fields), frames⟩ :=
        reads_cons fun offset => ⟨_, .openTuple frames,
          reads_fields nonempty ih names offset [] (by simpa using several) frames⟩
      simpa [TypeRef.tokens] using opened

end Reader

theorem parse_of_lex {text : String} {type : TypeRef} (h : type.WellFormed)
    (tokens : Token.lex text.toList = type.tokens) : parse text = .ok type := by
  obtain ⟨stage, complete, reads⟩ := Reader.readable_of_wellFormed h []
  have run := reads (Token.scan text) tokens
  unfold parse Reader.run Reader.State.initial
  rw [run]
  exact Reader.finish_of_completes complete

theorem parse_render_of_wellFormed {type : TypeRef} (h : type.WellFormed) :
    parse type.render = .ok type :=
  parse_of_lex h (Token.map_token_scan_render h)

/-- The types that the reader produces are exactly the well-formed ones, and each of them is read
back from its printed form. -/
theorem parse_render_and_parsed_iff (type : TypeRef) :
    (type.WellFormed → parse type.render = .ok type) ∧
      ((∃ text, parse text = .ok type) ↔ type.WellFormed) := by
  refine ⟨parse_render_of_wellFormed, ?_, ?_⟩
  · rintro ⟨text, parsed⟩
    exact wellFormed_of_parse parsed
  · intro h
    exact ⟨type.render, parse_render_of_wellFormed h⟩

/-- An aliased generic name that holds a nullable array and a tuple with one named element. -/
def aliasedLookup : TypeRef :=
  .named ⟨some "global", [⟨"Data", []⟩, ⟨"Lookup",
    [.nullable (.array (.simple "int") 2),
      .tuple [⟨.pointer (.simple "@byte"), some "start"⟩, ⟨.simple "string", none⟩]]⟩]⟩

theorem aliasedLookup_wellFormed : aliasedLookup.WellFormed := by
  have plain : ∀ word, Text.isWord word = true → (TypeRef.simple word).WellFormed := by
    intro word identifier
    exact .named (by simp) (by simp) (by simpa using identifier) (by simp)
  have array : (TypeRef.nullable (.array (.simple "int") 2)).WellFormed :=
    .nullable (.array (plain "int" (by decide)) (by decide))
  have pair : (TypeRef.tuple [⟨.pointer (.simple "@byte"), some "start"⟩,
      ⟨.simple "string", none⟩]).WellFormed := by
    refine .tuple (by simp) ?_ (by simp; decide)
    simpa using ⟨.pointer (plain "@byte" (by decide)), plain "string" (by decide)⟩
  refine .named (by simp) (by simp; decide) (by simp; decide) ?_
  simpa using ⟨array, pair⟩

theorem parse_render_aliasedLookup :
    aliasedLookup.WellFormed ∧
      aliasedLookup.render = "global::Data.Lookup<int[,]?, (@byte* start, string)>" ∧
      parse "global::Data.Lookup<int[,]?, (@byte* start, string)>" = .ok aliasedLookup := by
  have printed : aliasedLookup.render = "global::Data.Lookup<int[,]?, (@byte* start, string)>" := by
    decide +kernel
  refine ⟨aliasedLookup_wellFormed, printed, ?_⟩
  have read := (parse_render_and_parsed_iff aliasedLookup).1 aliasedLookup_wellFormed
  rwa [printed] at read

end TypeRef
end InterfaceGen
