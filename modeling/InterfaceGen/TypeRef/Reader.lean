import InterfaceGen.Text.Basic
import InterfaceGen.TypeRef.Basic
import InterfaceGen.TypeRef.Token

/-!
Reading type references. The reader consumes one token at a time and keeps what it has read of the
innermost type, the *stage*, apart from the type-argument lists and tuples that are still open
around it, the *frames*. It refuses the first token that no type can have at that place.
-/

namespace InterfaceGen
namespace TypeRef

/-- Why a text is no type. Offsets count UTF-8 bytes. -/
inductive ReadError where
  | empty
  | unexpectedChar (found : Char) (offset : Nat)
  | unexpectedEnd
  | singleElementTuple (offset : Nat)
  deriving DecidableEq

def ReadError.message : ReadError → String
  | .empty => "empty type"
  | .unexpectedChar found offset =>
      "unexpected character `" ++ found.toString ++ "` at offset " ++ toString offset
  | .unexpectedEnd => "unexpected end of type"
  | .singleElementTuple offset =>
      "tuple at offset " ++ toString offset ++ " must have at least two elements"

namespace Reader

/-- The closed part of a name: its alias, and its finished segments, last first. -/
structure NameStem where
  aliasName : Option String
  closed : List Segment

namespace NameStem

def push (stem : NameStem) (word : String) (arguments : List TypeRef) : NameStem :=
  ⟨stem.aliasName, ⟨word, arguments⟩ :: stem.closed⟩

def toType (stem : NameStem) : TypeRef :=
  .named ⟨stem.aliasName, stem.closed.reverse⟩

end NameStem

/-- An open bracket around the type being read, with the items before it, last first. -/
inductive Frame where
  | arguments (stem : NameStem) (word : String) (items : List TypeRef)
  | fields (offset : Nat) (items : List TupleField)

/-- What has been read of the innermost type. -/
inductive Stage where
  /-- A type has to start here. -/
  | start
  /-- A word has to follow an alias mark or a point. -/
  | wordWanted (stem : NameStem)
  /-- A word of a name was read; its arguments may follow. -/
  | word (stem : NameStem) (word : String)
  /-- A segment was closed; a point may follow. -/
  | name (stem : NameStem)
  /-- A type was read that further marks may extend. -/
  | type (type : TypeRef)
  /-- An array bracket is open with this rank so far. -/
  | rank (element : TypeRef) (rank : Nat)
  /-- A tuple element was read with its name; it is the first of `items`. -/
  | field (offset : Nat) (items : List TupleField)

structure State where
  stage : Stage
  frames : List Frame

def State.initial : State :=
  ⟨.start, []⟩

/-- Closes the tuple that starts at `offset`, given its elements last first. -/
def closeTuple (offset : Nat) (items : List TupleField) : Except ReadError TypeRef :=
  match items with
  | _ :: _ :: _ => .ok (.tuple items.reverse)
  | _ => .error (.singleElementTuple offset)

def afterField (placed : PlacedToken) (offset : Nat) (items : List TupleField)
    (frames : List Frame) : Except ReadError State :=
  match placed.token with
  | .mark ',' => .ok ⟨.start, .fields offset items :: frames⟩
  | .mark ')' => (closeTuple offset items).map fun tuple => ⟨.type tuple, frames⟩
  | token => .error (.unexpectedChar token.first placed.offset)

def afterType (placed : PlacedToken) (type : TypeRef) (frames : List Frame) :
    Except ReadError State :=
  match placed.token, frames with
  | .mark '?', _ => .ok ⟨.type (.nullable type), frames⟩
  | .mark '*', _ => .ok ⟨.type (.pointer type), frames⟩
  | .mark '[', _ => .ok ⟨.rank type 1, frames⟩
  | .mark '>', .arguments stem word items :: outer =>
      .ok ⟨.name (stem.push word (type :: items).reverse), outer⟩
  | .mark ',', .arguments stem word items :: outer =>
      .ok ⟨.start, .arguments stem word (type :: items) :: outer⟩
  | .word first rest, .fields offset items :: outer =>
      .ok ⟨.field offset (⟨type, some (String.ofList (first :: rest))⟩ :: items), outer⟩
  | _, .fields offset items :: outer => afterField placed offset (⟨type, none⟩ :: items) outer
  | token, _ => .error (.unexpectedChar token.first placed.offset)

def step (state : State) (placed : PlacedToken) : Except ReadError State :=
  let unexpected := .error (.unexpectedChar placed.token.first placed.offset)
  let frames := state.frames
  match state.stage with
  | .start =>
      match placed.token with
      | .word first rest => .ok ⟨.word ⟨none, []⟩ (String.ofList (first :: rest)), frames⟩
      | .mark '(' => .ok ⟨.start, .fields placed.offset [] :: frames⟩
      | _ => unexpected
  | .wordWanted stem =>
      match placed.token with
      | .word first rest => .ok ⟨.word stem (String.ofList (first :: rest)), frames⟩
      | _ => unexpected
  | .word stem word =>
      match placed.token, stem with
      | .aliasMark, ⟨none, []⟩ => .ok ⟨.wordWanted ⟨some word, []⟩, frames⟩
      | .mark '<', _ => .ok ⟨.start, .arguments stem word [] :: frames⟩
      | .mark '.', _ => .ok ⟨.wordWanted (stem.push word []), frames⟩
      | _, _ => afterType placed (stem.push word []).toType frames
  | .name stem =>
      match placed.token with
      | .mark '.' => .ok ⟨.wordWanted stem, frames⟩
      | _ => afterType placed stem.toType frames
  | .type type => afterType placed type frames
  | .rank element rank =>
      match placed.token with
      | .mark ',' => .ok ⟨.rank element (rank + 1), frames⟩
      | .mark ']' => .ok ⟨.type (.array element rank), frames⟩
      | _ => unexpected
  | .field offset items => afterField placed offset items frames

def finish (state : State) : Except ReadError TypeRef :=
  match state with
  | ⟨.start, []⟩ => .error .empty
  | ⟨.word stem word, []⟩ => .ok (stem.push word []).toType
  | ⟨.name stem, []⟩ => .ok stem.toType
  | ⟨.type type, []⟩ => .ok type
  | _ => .error .unexpectedEnd

def run (tokens : List PlacedToken) : Except ReadError TypeRef :=
  tokens.foldlM step State.initial >>= finish

end Reader

def parse (text : String) : Except ReadError TypeRef :=
  Reader.run (Token.scan text)

/-- Reads a type, keeping the trimmed text verbatim if it is none. -/
def ofText (text : String) : TypeRef :=
  match parse text with
  | .ok type => type
  | .error _ => .verbatim (Text.trim text)

end TypeRef

/-- Reads a dotted name, keeping the trimmed text as one word if it is none. -/
def QualName.ofText (text : String) : QualName :=
  match TypeRef.parse text with
  | .ok (.named name) => name
  | _ => .simple (Text.trim text)

end InterfaceGen
