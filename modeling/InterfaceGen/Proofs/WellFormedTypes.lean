import InterfaceGen.Proofs.ReaderMoves

/-!
Every type that the reader produces is well formed. The invariant runs over the reader's whole
state: the stage, the open brackets around it and the items read so far hold well-formed parts only,
and a word token is always an identifier.
-/

namespace InterfaceGen

/-- The text is lexically an identifier. -/
def Text.isWord (text : String) : Bool :=
  match text.toList with
  | [] => false
  | first :: rest => Text.startsWord first && rest.all Text.continuesWord

namespace TypeRef

/-- A type made of identifiers, with at least one segment in each name, at least one dimension in
each array and at least two elements in each tuple. Verbatim text is no such type. -/
inductive WellFormed : TypeRef → Prop where
  | named {aliasName : Option String} {segments : List Segment} (nonempty : segments ≠ [])
      (aliases : ∀ word ∈ aliasName, Text.isWord word = true)
      (words : ∀ segment ∈ segments, Text.isWord segment.word = true)
      (arguments : ∀ segment ∈ segments, ∀ type ∈ segment.arguments, WellFormed type) :
      WellFormed (.named ⟨aliasName, segments⟩)
  | array {element : TypeRef} {rank : Nat} (inner : WellFormed element) (positive : 1 ≤ rank) :
      WellFormed (.array element rank)
  | nullable {type : TypeRef} (inner : WellFormed type) : WellFormed (.nullable type)
  | pointer {type : TypeRef} (inner : WellFormed type) : WellFormed (.pointer type)
  | tuple {fields : List TupleField} (several : 2 ≤ fields.length)
      (types : ∀ field ∈ fields, WellFormed field.type)
      (names : ∀ field ∈ fields, ∀ word ∈ field.name, Text.isWord word = true) :
      WellFormed (.tuple fields)

namespace Token

/-- A word token holds an identifier; there is nothing to ask of the others. -/
def Lexical : Token → Prop
  | .word first rest => Text.isWord (String.ofList (first :: rest)) = true
  | .aliasMark | .mark _ => True

theorem lexical_of_mem_scanFrom (skip offset : Nat) (text : List Char) :
    ∀ placed ∈ scanFrom skip offset text, placed.token.Lexical := by
  fun_induction scanFrom skip offset text with
  | case1 => simp
  | case2 _ _ _ _ ih => exact ih
  | case3 _ _ _ _ _ ih => exact ih
  | case4 offset c rest next notBlank starts tail ih =>
      intro placed member
      obtain rfl | later := List.mem_cons.mp member
      · have continued : tail.all Text.continuesWord = true := List.all_takeWhile
        simpa [Lexical, Text.isWord, starts] using continued
      · exact ih placed later
  | case5 _ _ _ _ _ _ _ ih | case6 _ _ _ _ _ _ _ ih =>
      intro placed member
      obtain rfl | later := List.mem_cons.mp member
      · trivial
      · exact ih placed later

end Token

namespace Reader

def NameStem.WellFormed (stem : NameStem) : Prop :=
  (∀ word ∈ stem.aliasName, Text.isWord word = true) ∧
    (∀ segment ∈ stem.closed, Text.isWord segment.word = true) ∧
    ∀ segment ∈ stem.closed, ∀ type ∈ segment.arguments, TypeRef.WellFormed type

def FieldsWellFormed (items : List TupleField) : Prop :=
  (∀ field ∈ items, field.type.WellFormed) ∧
    ∀ field ∈ items, ∀ word ∈ field.name, Text.isWord word = true

def Frame.WellFormed : Frame → Prop
  | .arguments stem word items =>
      stem.WellFormed ∧ Text.isWord word = true ∧ ∀ type ∈ items, TypeRef.WellFormed type
  | .fields _ items => FieldsWellFormed items

def Stage.WellFormed : Stage → Prop
  | .start => True
  | .wordWanted stem => stem.WellFormed
  | .word stem current => stem.WellFormed ∧ Text.isWord current = true
  | .name stem => stem.WellFormed ∧ stem.closed ≠ []
  | .type read => read.WellFormed
  | .rank element dimensions => element.WellFormed ∧ 1 ≤ dimensions
  | .field _ items => FieldsWellFormed items

structure State.WellFormed (state : State) : Prop where
  stage : state.stage.WellFormed
  frames : ∀ frame ∈ state.frames, frame.WellFormed

theorem NameStem.WellFormed.push {stem : NameStem} (h : stem.WellFormed) {word : String}
    (identifier : Text.isWord word = true) {arguments : List TypeRef}
    (types : ∀ type ∈ arguments, TypeRef.WellFormed type) :
    (stem.push word arguments).WellFormed := by
  refine ⟨h.1, ?_, ?_⟩
  · exact List.forall_mem_cons.mpr ⟨identifier, h.2.1⟩
  · exact List.forall_mem_cons.mpr ⟨types, h.2.2⟩

theorem NameStem.WellFormed.toType {stem : NameStem} (h : stem.WellFormed)
    (nonempty : stem.closed ≠ []) : stem.toType.WellFormed :=
  .named (by simpa using nonempty) h.1 (by simpa using h.2.1) (by simpa using h.2.2)

theorem FieldsWellFormed.cons {items : List TupleField} (h : FieldsWellFormed items)
    {type : TypeRef} (typed : type.WellFormed) (name : Option String)
    (named : ∀ word ∈ name, Text.isWord word = true) : FieldsWellFormed (⟨type, name⟩ :: items) := by
  constructor
  · exact List.forall_mem_cons.mpr ⟨typed, h.1⟩
  · exact List.forall_mem_cons.mpr ⟨named, h.2⟩

theorem FieldsWellFormed.tuple {items : List TupleField} (h : FieldsWellFormed items)
    (several : 2 ≤ items.length) : (TypeRef.tuple items.reverse).WellFormed :=
  .tuple (by simpa using several) (by simpa using h.1) (by simpa using h.2)

theorem Completes.wellFormed {stage : Stage} {type : TypeRef} (complete : Completes stage type)
    (h : stage.WellFormed) : type.WellFormed := by
  cases complete with
  | word stem word => exact (h.1.push h.2 (by simp)).toType (by simp [NameStem.push])
  | name stem => exact h.1.toType h.2
  | type type => exact h

theorem Move.wellFormed {offset : Nat} {state next : State} {token : Token}
    (move : Move offset state token next) (lexical : token.Lexical) (h : state.WellFormed) :
    next.WellFormed := by
  obtain ⟨stage, frames⟩ := h
  cases move with
  | firstWord => exact ⟨⟨⟨by simp, by simp, by simp⟩, lexical⟩, frames⟩
  | openTuple => exact ⟨trivial, List.forall_mem_cons.mpr ⟨⟨by simp, by simp⟩, frames⟩⟩
  | nextWord => exact ⟨⟨stage, lexical⟩, frames⟩
  | aliasName => exact ⟨⟨by simpa using stage.2, by simp, by simp⟩, frames⟩
  | openArguments =>
      exact ⟨trivial, List.forall_mem_cons.mpr ⟨⟨stage.1, stage.2, by simp⟩, frames⟩⟩
  | wordPoint => exact ⟨stage.1.push stage.2 (by simp), frames⟩
  | namePoint => exact ⟨stage.1, frames⟩
  | nullable complete => exact ⟨.nullable (complete.wellFormed stage), frames⟩
  | pointer complete => exact ⟨.pointer (complete.wellFormed stage), frames⟩
  | openRank complete => exact ⟨⟨complete.wellFormed stage, Nat.le_refl 1⟩, frames⟩
  | rankComma => exact ⟨⟨stage.1, Nat.le_succ_of_le stage.2⟩, frames⟩
  | closeRank => exact ⟨.array stage.1 stage.2, frames⟩
  | nextArgument complete =>
      obtain ⟨⟨stem, word, items⟩, outer⟩ := List.forall_mem_cons.mp frames
      have types := List.forall_mem_cons.mpr ⟨complete.wellFormed stage, items⟩
      exact ⟨trivial, List.forall_mem_cons.mpr ⟨⟨stem, word, types⟩, outer⟩⟩
  | closeArguments complete =>
      obtain ⟨⟨stem, word, items⟩, outer⟩ := List.forall_mem_cons.mp frames
      have types := List.forall_mem_cons.mpr ⟨complete.wellFormed stage, items⟩
      refine ⟨⟨stem.push word ?_, by simp [NameStem.push]⟩, outer⟩
      intro type member
      exact types type (List.mem_reverse.mp member)
  | fieldName complete =>
      obtain ⟨items, outer⟩ := List.forall_mem_cons.mp frames
      refine ⟨FieldsWellFormed.cons items (complete.wellFormed stage) _ ?_, outer⟩
      rintro word ⟨⟩
      exact lexical
  | nextField complete =>
      obtain ⟨items, outer⟩ := List.forall_mem_cons.mp frames
      have fields := FieldsWellFormed.cons items (complete.wellFormed stage) none (by simp)
      exact ⟨trivial, List.forall_mem_cons.mpr ⟨fields, outer⟩⟩
  | closeTuple complete =>
      obtain ⟨items, outer⟩ := List.forall_mem_cons.mp frames
      have fields := FieldsWellFormed.cons items (complete.wellFormed stage) none (by simp)
      exact ⟨fields.tuple (by simp), outer⟩
  | nextAfterName => exact ⟨trivial, List.forall_mem_cons.mpr ⟨stage, frames⟩⟩
  | closeAfterName => exact ⟨FieldsWellFormed.tuple stage (by simp), frames⟩

end Reader

theorem wellFormed_of_parse {text : String} {type : TypeRef} (h : parse text = .ok type) :
    type.WellFormed := by
  have initial : Reader.State.initial.WellFormed := ⟨trivial, by simp [Reader.State.initial]⟩
  obtain ⟨stage, complete, formed⟩ := Reader.completes_of_parse
    (motive := fun read state => (∀ token ∈ read, token.Lexical) → state.WellFormed)
    (fun move before lexical => move.wellFormed (lexical _ (by simp))
      (before fun token member => lexical token (List.mem_append_left _ member)))
    (fun _ => initial) h
  refine complete.wellFormed (formed ?_).stage
  intro token member
  obtain ⟨placed, scanned, rfl⟩ := List.mem_map.mp member
  exact Token.lexical_of_mem_scanFrom 0 0 text.toList placed scanned

end TypeRef
end InterfaceGen
