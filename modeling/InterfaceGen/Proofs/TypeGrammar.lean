import InterfaceGen.Proofs.PrintedTypes

/-!
The grammar of type texts, and that the reader accepts exactly this grammar. `Tokenizes` says which
tokens a text has, if it has any; the relations in `Grammar` derive a type from a list of tokens,
one relation for each nonterminal. The reader never looks further than one token ahead. That this
never leads it astray shows in two facts: what it has read so far is always the written form of
what it holds, and the tokens of a well-formed type lead it to that type under any open brackets.
-/

namespace InterfaceGen
namespace TypeRef
namespace Token

/-- The text has these tokens: maximal words, the alias mark, and the marks of types, with blanks
skipped. A text with any other character has no tokens. -/
inductive Tokenizes : List Char → List Token → Prop where
  | nil : Tokenizes [] []
  | blank {c : Char} {rest : List Char} {tokens : List Token} (blank : Text.isBlank c = true)
      (later : Tokenizes rest tokens) : Tokenizes (c :: rest) tokens
  | word {first : Char} {more rest : List Char} {tokens : List Token}
      (starts : Text.startsWord first = true)
      (continues : ∀ c ∈ more, Text.continuesWord c = true) (maximal : Stops rest)
      (later : Tokenizes rest tokens) :
      Tokenizes (first :: (more ++ rest)) (.word first more :: tokens)
  | aliasMark {rest : List Char} {tokens : List Token} (later : Tokenizes rest tokens) :
      Tokenizes (':' :: ':' :: rest) (.aliasMark :: tokens)
  | mark {c : Char} {rest : List Char} {tokens : List Token} (listed : c ∈ marks)
      (later : Tokenizes rest tokens) : Tokenizes (c :: rest) (.mark c :: tokens)

/-- The token can stand in a type. -/
def isAdmitted : Token → Bool
  | .word _ _ | .aliasMark => true
  | .mark c => marks.contains c

theorem stops_dropWhile (text : List Char) : Stops (text.dropWhile Text.continuesWord) := by
  intro c head
  have ends := List.head?_dropWhile_not Text.continuesWord text
  rw [Option.mem_def.mp head] at ends
  exact ends

theorem lex_eq_of_tokenizes {text : List Char} {tokens : List Token} (h : Tokenizes text tokens) :
    lex text = tokens := by
  induction h with
  | nil => rfl
  | blank blank later ih => rw [lex_blank blank, ih]
  | word starts continues maximal later ih =>
      rw [lex_word starts, List.takeWhile_append_of_pos continues,
        List.dropWhile_append_of_pos continues, maximal.takeWhile, maximal.dropWhile,
        List.append_nil, ih]
  | aliasMark later ih => rw [lex_aliasMark, ih]
  | mark listed later ih => rw [lex_mark listed, ih]

theorem tokenizes_lex (text : List Char) (h : (lex text).all isAdmitted = true) :
    Tokenizes text (lex text) := by
  -- the cases are the branches of the scanner; each of them leaves a shorter text
  match text with
  | [] => exact .nil
  | c :: rest =>
      by_cases blank : Text.isBlank c = true
      · rw [lex_blank blank] at h ⊢
        exact .blank blank (tokenizes_lex rest h)
      by_cases starts : Text.startsWord c = true
      · rw [lex_word starts] at h ⊢
        have shorter : (rest.dropWhile Text.continuesWord).length ≤ rest.length :=
          (List.dropWhile_suffix _).length_le
        have later := tokenizes_lex (rest.dropWhile Text.continuesWord)
          (by simpa [isAdmitted] using h)
        have taken : ∀ c ∈ rest.takeWhile Text.continuesWord, Text.continuesWord c = true :=
          List.all_eq_true.mp List.all_takeWhile
        have word := Tokenizes.word starts taken (stops_dropWhile rest) later
        rwa [List.takeWhile_append_dropWhile] at word
      by_cases pair : c = ':' ∧ rest.head? = some ':'
      · obtain ⟨rfl, second⟩ := pair
        obtain ⟨more, rfl⟩ := List.head?_eq_some_iff.mp second
        rw [lex_aliasMark] at h ⊢
        exact .aliasMark (tokenizes_lex more (by simpa [isAdmitted] using h))
      · rw [lex_other (by simpa using blank) (by simpa using starts) pair] at h ⊢
        rw [List.all_cons, Bool.and_eq_true] at h
        exact .mark (by simpa [isAdmitted] using h.1) (tokenizes_lex rest h.2)
termination_by text.length

theorem lexical_of_mem_lex (text : List Char) : ∀ token ∈ lex text, token.Lexical := by
  intro token member
  obtain ⟨placed, scanned, rfl⟩ := List.mem_map.mp member
  exact lexical_of_mem_scanFrom 0 0 text placed scanned

end Token

namespace Grammar

/-- `suffix ::= '?' | '*' | '[' ','* ']'`, with what it makes of the type before it. -/
inductive Suffix : List Token → (TypeRef → TypeRef) → Prop where
  | nullable : Suffix [.mark '?'] .nullable
  | pointer : Suffix [.mark '*'] .pointer
  | array (commas : Nat) :
      Suffix (.mark '[' :: (List.replicate commas (.mark ',') ++ [.mark ']']))
        (.array · (commas + 1))

/-- `suffix*`, applied from left to right: the tokens make the second type of the first. -/
inductive Suffixes : List Token → TypeRef → TypeRef → Prop where
  | nil (type : TypeRef) : Suffixes [] type type
  | cons {tokens more : List Token} {extend : TypeRef → TypeRef} {type last : TypeRef}
      (first : Suffix tokens extend) (later : Suffixes more (extend type) last) :
      Suffixes (tokens ++ more) type last

mutual

/-- `type ::= (name | tuple) suffix*` -/
inductive IsType : List Token → TypeRef → Prop where
  | named {tokens more : List Token} {name : QualName} {type : TypeRef}
      (base : IsName tokens name) (suffixes : Suffixes more (.named name) type) :
      IsType (tokens ++ more) type
  | tuple {tokens more : List Token} {fields : List TupleField} {type : TypeRef}
      (base : IsTuple tokens fields) (suffixes : Suffixes more (.tuple fields) type) :
      IsType (tokens ++ more) type

/-- `name ::= [identifier '::'] segment ('.' segment)*` -/
inductive IsName : List Token → QualName → Prop where
  | plain {tokens : List Token} {segments : List Segment} (dotted : IsSegments tokens segments) :
      IsName tokens ⟨none, segments⟩
  | aliased (first : Char) (rest : List Char) {tokens : List Token} {segments : List Segment}
      (dotted : IsSegments tokens segments) :
      IsName (.word first rest :: .aliasMark :: tokens)
        ⟨some (String.ofList (first :: rest)), segments⟩

/-- `segment ('.' segment)*` -/
inductive IsSegments : List Token → List Segment → Prop where
  | one {tokens : List Token} {segment : Segment} (only : IsSegment tokens segment) :
      IsSegments tokens [segment]
  | more {tokens more : List Token} {segment : Segment} {segments : List Segment}
      (first : IsSegment tokens segment) (later : IsSegments more segments) :
      IsSegments (tokens ++ .mark '.' :: more) (segment :: segments)

/-- `segment ::= identifier ['<' type (',' type)* '>']` -/
inductive IsSegment : List Token → Segment → Prop where
  | plain (first : Char) (rest : List Char) :
      IsSegment [.word first rest] ⟨String.ofList (first :: rest), []⟩
  | generic (first : Char) (rest : List Char) {tokens : List Token} {types : List TypeRef}
      (arguments : IsTypes tokens types) :
      IsSegment (.word first rest :: .mark '<' :: (tokens ++ [.mark '>']))
        ⟨String.ofList (first :: rest), types⟩

/-- `type (',' type)*` -/
inductive IsTypes : List Token → List TypeRef → Prop where
  | one {tokens : List Token} {type : TypeRef} (only : IsType tokens type) :
      IsTypes tokens [type]
  | more {tokens more : List Token} {type : TypeRef} {types : List TypeRef}
      (first : IsType tokens type) (later : IsTypes more types) :
      IsTypes (tokens ++ .mark ',' :: more) (type :: types)

/-- `tuple ::= '(' field (',' field)+ ')'` -/
inductive IsTuple : List Token → List TupleField → Prop where
  | mk {tokens more : List Token} {field : TupleField} {fields : List TupleField}
      (first : IsField tokens field) (later : IsFields more fields) :
      IsTuple (.mark '(' :: (tokens ++ .mark ',' :: (more ++ [.mark ')']))) (field :: fields)

/-- `field (',' field)*` -/
inductive IsFields : List Token → List TupleField → Prop where
  | one {tokens : List Token} {field : TupleField} (only : IsField tokens field) :
      IsFields tokens [field]
  | more {tokens more : List Token} {field : TupleField} {fields : List TupleField}
      (first : IsField tokens field) (later : IsFields more fields) :
      IsFields (tokens ++ .mark ',' :: more) (field :: fields)

/-- `field ::= type [identifier]` -/
inductive IsField : List Token → TupleField → Prop where
  | unnamed {tokens : List Token} {type : TypeRef} (typed : IsType tokens type) :
      IsField tokens ⟨type, none⟩
  | named {tokens : List Token} {type : TypeRef} (typed : IsType tokens type) (first : Char)
      (rest : List Char) :
      IsField (tokens ++ [.word first rest]) ⟨type, some (String.ofList (first :: rest))⟩

end

/-- The tokens are words as the scanner makes them. -/
def Lexical (tokens : List Token) : Prop :=
  ∀ token ∈ tokens, token.Lexical

@[simp] theorem lexical_nil : Lexical [] := by
  simp [Lexical]

@[simp] theorem lexical_cons {token : Token} {tokens : List Token} :
    Lexical (token :: tokens) ↔ token.Lexical ∧ Lexical tokens := by
  simp [Lexical]

@[simp] theorem lexical_append {tokens more : List Token} :
    Lexical (tokens ++ more) ↔ Lexical tokens ∧ Lexical more := by
  simp [Lexical, or_imp, forall_and]

theorem ofWord_ofList (first : Char) (rest : List Char) :
    Token.ofWord (String.ofList (first :: rest)) = [.word first rest] := by
  simp only [Token.ofWord, String.toList_ofList]

def SegmentWellFormed (segment : Segment) : Prop :=
  Text.isWord segment.word = true ∧ ∀ type ∈ segment.arguments, type.WellFormed

def FieldWellFormed (field : TupleField) : Prop :=
  field.type.WellFormed ∧ ∀ word ∈ field.name, Text.isWord word = true

/-- Items of one form, at least one of them, whose tokens with the mark between neighbours are the
given ones. -/
structure Listed {α : Type} (mark : Token) (Formed : α → Prop) (write : α → List Token)
    (tokens : List Token) (items : List α) : Prop where
  nonempty : items ≠ []
  each : ∀ item ∈ items, Formed item
  written : [mark].intercalate (items.map write) = tokens

section Listed
variable {α : Type} {mark : Token} {Formed : α → Prop} {write : α → List Token}
  {tokens others : List Token} {item : α} {items : List α}

theorem Listed.one (h : Formed item ∧ write item = tokens) :
    Listed mark Formed write tokens [item] :=
  ⟨by simp, by simpa using h.1, by simpa using h.2⟩

theorem Listed.more (h : Formed item ∧ write item = tokens)
    (later : Listed mark Formed write others items) :
    Listed mark Formed write (tokens ++ mark :: others) (item :: items) where
  nonempty := List.cons_ne_nil item items
  each := List.forall_mem_cons.mpr ⟨h.1, later.each⟩
  written := by
    rw [List.map_cons, List.intercalate_cons_of_ne_nil (by simpa using later.nonempty), h.2,
      later.written, List.append_assoc, List.singleton_append]

end Listed

theorem Suffix.yields {more : List Token} {extend : TypeRef → TypeRef} {type : TypeRef}
    (h : Suffix more extend) (typed : type.WellFormed) :
    (extend type).WellFormed ∧ (extend type).tokens = type.tokens ++ more := by
  cases h with
  | nullable => exact ⟨.nullable typed, rfl⟩
  | pointer => exact ⟨.pointer typed, rfl⟩
  | array commas => exact ⟨.array typed (Nat.le_add_left 1 commas), rfl⟩

theorem Suffixes.yields {more : List Token} {type last : TypeRef} (h : Suffixes more type last)
    (typed : type.WellFormed) : last.WellFormed ∧ last.tokens = type.tokens ++ more := by
  induction h with
  | nil type => exact ⟨typed, (List.append_nil _).symm⟩
  | cons first later ih =>
      obtain ⟨extended, tokens⟩ := first.yields typed
      obtain ⟨last, all⟩ := ih extended
      exact ⟨last, by rw [all, tokens, List.append_assoc]⟩

mutual

theorem IsType.yields {tokens : List Token} {type : TypeRef} (h : IsType tokens type)
    (lexical : Lexical tokens) : type.WellFormed ∧ type.tokens = tokens := by
  match h with
  | .named base suffixes =>
      obtain ⟨named, written⟩ := base.yields (lexical_append.mp lexical).1
      obtain ⟨typed, all⟩ := suffixes.yields named
      exact ⟨typed, by rw [all, written]⟩
  | .tuple base suffixes =>
      obtain ⟨tuple, written⟩ := base.yields (lexical_append.mp lexical).1
      obtain ⟨typed, all⟩ := suffixes.yields tuple
      exact ⟨typed, by rw [all, written]⟩

theorem IsName.yields {tokens : List Token} {name : QualName} (h : IsName tokens name)
    (lexical : Lexical tokens) :
    (TypeRef.named name).WellFormed ∧ (TypeRef.named name).tokens = tokens := by
  match h with
  | .plain dotted =>
      obtain ⟨nonempty, each, written⟩ := dotted.yields lexical
      refine ⟨.named nonempty (by simp) (fun segment member => (each segment member).1)
        (fun segment member => (each segment member).2), ?_⟩
      rw [TypeRef.tokens, QualName.tokens, Segment.tokensEach_eq_map, written]
  | .aliased first rest dotted =>
      simp only [lexical_cons] at lexical
      obtain ⟨word, -, inner⟩ := lexical
      obtain ⟨nonempty, each, written⟩ := dotted.yields inner
      refine ⟨.named nonempty ?_ (fun segment member => (each segment member).1)
        (fun segment member => (each segment member).2), ?_⟩
      · rintro _ ⟨⟩
        exact word
      · rw [TypeRef.tokens, QualName.tokens, Segment.tokensEach_eq_map, written, ofWord_ofList]
        rfl

theorem IsSegments.yields {tokens : List Token} {segments : List Segment}
    (h : IsSegments tokens segments) (lexical : Lexical tokens) :
    Listed (.mark '.') SegmentWellFormed Segment.tokens tokens segments := by
  match h with
  | .one only => exact .one (only.yields lexical)
  | .more first later =>
      simp only [lexical_append, lexical_cons] at lexical
      exact .more (first.yields lexical.1) (later.yields lexical.2.2)

theorem IsSegment.yields {tokens : List Token} {segment : Segment} (h : IsSegment tokens segment)
    (lexical : Lexical tokens) : SegmentWellFormed segment ∧ segment.tokens = tokens := by
  match h with
  | .plain first rest =>
      exact ⟨⟨(lexical_cons.mp lexical).1, by simp⟩, ofWord_ofList first rest⟩
  | .generic first rest arguments =>
      simp only [lexical_cons, lexical_append] at lexical
      obtain ⟨word, -, inner, -⟩ := lexical
      obtain ⟨nonempty, each, written⟩ := arguments.yields inner
      obtain ⟨type, types, rfl⟩ := List.exists_cons_of_ne_nil nonempty
      refine ⟨⟨word, each⟩, ?_⟩
      rw [Segment.tokens, ofWord_ofList, TypeRef.tokensEach_eq_map, ← List.map_cons, written]
      rfl

theorem IsTypes.yields {tokens : List Token} {types : List TypeRef} (h : IsTypes tokens types)
    (lexical : Lexical tokens) :
    Listed (.mark ',') WellFormed TypeRef.tokens tokens types := by
  match h with
  | .one only => exact .one (only.yields lexical)
  | .more first later =>
      simp only [lexical_append, lexical_cons] at lexical
      exact .more (first.yields lexical.1) (later.yields lexical.2.2)

theorem IsTuple.yields {tokens : List Token} {fields : List TupleField} (h : IsTuple tokens fields)
    (lexical : Lexical tokens) :
    (TypeRef.tuple fields).WellFormed ∧ (TypeRef.tuple fields).tokens = tokens := by
  match h with
  | .mk first later =>
      simp only [lexical_cons, lexical_append] at lexical
      have rest := later.yields lexical.2.2.2.1
      have all := rest.more (first.yields lexical.2.1)
      refine ⟨.tuple (Nat.succ_le_succ (List.length_pos_iff.mpr rest.nonempty))
        (fun field member => (all.each field member).1)
        (fun field member => (all.each field member).2), ?_⟩
      rw [TypeRef.tokens, TupleField.tokensEach_eq_map, all.written, List.append_assoc]
      rfl

theorem IsFields.yields {tokens : List Token} {fields : List TupleField}
    (h : IsFields tokens fields) (lexical : Lexical tokens) :
    Listed (.mark ',') FieldWellFormed TupleField.tokens tokens fields := by
  match h with
  | .one only => exact .one (only.yields lexical)
  | .more first later =>
      simp only [lexical_append, lexical_cons] at lexical
      exact .more (first.yields lexical.1) (later.yields lexical.2.2)

theorem IsField.yields {tokens : List Token} {field : TupleField} (h : IsField tokens field)
    (lexical : Lexical tokens) : FieldWellFormed field ∧ field.tokens = tokens := by
  match h with
  | .unnamed typed =>
      obtain ⟨formed, written⟩ := typed.yields lexical
      exact ⟨⟨formed, by simp⟩, written⟩
  | .named typed first rest =>
      simp only [lexical_append, lexical_cons] at lexical
      obtain ⟨formed, written⟩ := typed.yields lexical.1
      refine ⟨⟨formed, ?_⟩, ?_⟩
      · rintro _ ⟨⟩
        exact lexical.2.1
      · rw [TupleField.tokens, written, ofWord_ofList]

end

theorem separated_of_each {α : Type} {mark : Token} {write : α → List Token}
    {One : List Token → α → Prop} {Many : List Token → List α → Prop}
    (one : ∀ {tokens item}, One tokens item → Many tokens [item])
    (more : ∀ {tokens others item items}, One tokens item → Many others items →
      Many (tokens ++ mark :: others) (item :: items))
    {items : List α} (nonempty : items ≠ []) (each : ∀ item ∈ items, One (write item) item) :
    Many ([mark].intercalate (items.map write)) items := by
  induction items with
  | nil => exact absurd rfl nonempty
  | cons item rest ih =>
      obtain ⟨first, later⟩ := List.forall_mem_cons.mp each
      cases rest with
      | nil => simpa using one first
      | cons next rest => simpa using more first (ih (by simp) later)

theorem Suffixes.concat {tokens more : List Token} {extend : TypeRef → TypeRef}
    {type last : TypeRef} (h : Suffixes tokens type last) (suffix : Suffix more extend) :
    Suffixes (tokens ++ more) type (extend last) := by
  induction h with
  | nil type => simpa using Suffixes.cons suffix (.nil (extend type))
  | cons first later ih => simpa using Suffixes.cons first ih

theorem IsType.extend {tokens more : List Token} {extend : TypeRef → TypeRef} {type : TypeRef}
    (h : IsType tokens type) (suffix : Suffix more extend) :
    IsType (tokens ++ more) (extend type) := by
  cases h with
  | named base suffixes =>
      rw [List.append_assoc]
      exact .named base (suffixes.concat suffix)
  | tuple base suffixes =>
      rw [List.append_assoc]
      exact .tuple base (suffixes.concat suffix)

theorem isSegment_tokens {segment : Segment} (word : Text.isWord segment.word = true)
    (types : ∀ type ∈ segment.arguments, IsType type.tokens type) :
    IsSegment segment.tokens segment := by
  obtain ⟨name, arguments⟩ := segment
  obtain ⟨first, rest, token, rfl⟩ := Reader.ofWord_of_isWord word
  cases arguments with
  | nil =>
      rw [Segment.tokens, token]
      exact .plain first rest
  | cons type others =>
      have inner : IsTypes _ (type :: others) :=
        separated_of_each .one .more (List.cons_ne_nil type others) types
      rw [Segment.tokens, token, TypeRef.tokensEach_eq_map]
      exact .generic first rest inner

theorem isField_tokens {field : TupleField} (typed : IsType field.type.tokens field.type)
    (names : ∀ word ∈ field.name, Text.isWord word = true) : IsField field.tokens field := by
  obtain ⟨type, name⟩ := field
  cases name with
  | none => exact .unnamed typed
  | some word =>
      obtain ⟨first, rest, token, rfl⟩ := Reader.ofWord_of_isWord (names word rfl)
      rw [TupleField.tokens, token]
      exact .named typed first rest

theorem isTuple_tokens {fields : List TupleField} (several : 2 ≤ fields.length)
    (each : ∀ field ∈ fields, IsField field.tokens field) :
    IsTuple (TypeRef.tuple fields).tokens fields := by
  match fields, several with
  | field :: next :: rest, _ =>
      obtain ⟨first, later⟩ := List.forall_mem_cons.mp each
      have others : IsFields _ (next :: rest) :=
        separated_of_each .one .more (List.cons_ne_nil next rest) later
      simpa [TypeRef.tokens] using IsTuple.mk first others

theorem isType_tokens {type : TypeRef} (h : type.WellFormed) : IsType type.tokens type := by
  induction h with
  | @named aliasName segments nonempty aliases words arguments ih =>
      have dotted : IsSegments _ segments := separated_of_each .one .more nonempty
        fun segment member => isSegment_tokens (words segment member) (ih segment member)
      cases aliasName with
      | none => simpa [TypeRef.tokens, QualName.tokens] using IsType.named (.plain dotted) (.nil _)
      | some word =>
          obtain ⟨first, rest, token, rfl⟩ := Reader.ofWord_of_isWord (aliases word rfl)
          have name := IsType.named (.aliased first rest dotted) (.nil _)
          rw [List.append_nil] at name
          rw [TypeRef.tokens, QualName.tokens, token, Segment.tokensEach_eq_map]
          exact name
  | @array element rank inner positive ih =>
      have extended := ih.extend (.array (rank - 1))
      rwa [Nat.sub_add_cancel positive] at extended
  | nullable inner ih => exact ih.extend .nullable
  | pointer inner ih => exact ih.extend .pointer
  | @tuple fields several types names ih =>
      have tuple := isTuple_tokens several fun field member =>
        isField_tokens (ih field member) (names field member)
      simpa using IsType.tuple tuple (.nil _)

end Grammar

namespace Reader

/-- Items that are held last first, each written with the mark after it. -/
def ended {α : Type} (mark : Token) (write : α → List Token) : List α → List Token
  | [] => []
  | item :: items => ended mark write items ++ (write item ++ [mark])

theorem ended_eq_flatMap {α : Type} (mark : Token) (write : α → List Token) (items : List α) :
    ended mark write items = items.reverse.flatMap fun item => write item ++ [mark] := by
  induction items with
  | nil => rfl
  | cons item items ih => simp [ended, ih]

theorem intercalate_concat (mark : Token) (items : List (List Token)) (last : List Token) :
    [mark].intercalate (items ++ [last]) = items.flatMap (· ++ [mark]) ++ last := by
  induction items with
  | nil => simp
  | cons item rest ih =>
      rw [List.cons_append, List.intercalate_cons_of_ne_nil (by simp), ih]
      simp

theorem intercalate_reverse_cons {α : Type} (mark : Token) (write : α → List Token) (item : α)
    (items : List α) :
    [mark].intercalate ((item :: items).reverse.map write) =
      ended mark write items ++ write item := by
  rw [List.reverse_cons, List.map_append, List.map_singleton, intercalate_concat,
    List.flatMap_map, ended_eq_flatMap]

/-- The tokens of a name up to the point or alias mark after which its next word is due. -/
def NameStem.opened (stem : NameStem) : List Token :=
  (match stem.aliasName with
    | none => []
    | some word => Token.ofWord word ++ [.aliasMark]) ++
    ended (.mark '.') Segment.tokens stem.closed

/-- The tokens from an open bracket to the last comma inside it. -/
def Frame.opened : Frame → List Token
  | .arguments stem word items =>
      stem.opened ++ (Token.ofWord word ++ .mark '<' :: ended (.mark ',') TypeRef.tokens items)
  | .fields _ items => .mark '(' :: ended (.mark ',') TupleField.tokens items

/-- The stage was reached from the start of a type by these tokens. -/
inductive Stage.ReadFrom : Stage → List Token → Prop where
  | start : ReadFrom .start []
  | wordWanted (stem : NameStem) : ReadFrom (.wordWanted stem) stem.opened
  | word (stem : NameStem) (word : String) :
      ReadFrom (.word stem word) (stem.opened ++ Token.ofWord word)
  | name (stem : NameStem) (word : String) (arguments : List TypeRef) :
      ReadFrom (.name (stem.push word arguments))
        (stem.opened ++ Segment.tokens ⟨word, arguments⟩)
  | type (type : TypeRef) : ReadFrom (.type type) type.tokens
  | rank (element : TypeRef) (commas : Nat) :
      ReadFrom (.rank element (commas + 1))
        (element.tokens ++ .mark '[' :: List.replicate commas (.mark ','))
  | field (offset : Nat) (field : TupleField) (items : List TupleField) :
      ReadFrom (.field offset (field :: items)) ((Frame.fields offset items).opened ++ field.tokens)

/-- The state was reached by these tokens: those of the open brackets, outermost first, and those
of the innermost type. -/
def State.ReadFrom (state : State) (tokens : List Token) : Prop :=
  ∃ own, state.stage.ReadFrom own ∧ tokens = state.frames.reverse.flatMap Frame.opened ++ own

theorem NameStem.opened_push (stem : NameStem) (word : String) (arguments : List TypeRef) :
    (stem.push word arguments).opened =
      stem.opened ++ (Segment.tokens ⟨word, arguments⟩ ++ [.mark '.']) := by
  simp [opened, push, ended]

theorem NameStem.tokens_toType_push (stem : NameStem) (word : String)
    (arguments : List TypeRef) :
    (stem.push word arguments).toType.tokens =
      stem.opened ++ Segment.tokens ⟨word, arguments⟩ := by
  obtain ⟨aliasName, closed⟩ := stem
  cases aliasName with
  | none =>
      simp only [push, toType, opened, TypeRef.tokens, QualName.tokens,
        Segment.tokensEach_eq_map, intercalate_reverse_cons, List.nil_append]
  | some word =>
      simp only [push, toType, opened, TypeRef.tokens, QualName.tokens,
        Segment.tokensEach_eq_map, intercalate_reverse_cons, List.append_assoc,
        List.cons_append, List.nil_append]

theorem tokens_segment_reverse (word : String) (type : TypeRef) (items : List TypeRef) :
    Segment.tokens ⟨word, (type :: items).reverse⟩ =
      Token.ofWord word ++ .mark '<' ::
        (ended (.mark ',') TypeRef.tokens items ++ (type.tokens ++ [.mark '>'])) := by
  obtain ⟨first, rest, cons⟩ :=
    List.exists_cons_of_ne_nil (List.reverse_ne_nil_iff.mpr (List.cons_ne_nil type items))
  rw [cons, Segment.tokens, TypeRef.tokensEach_eq_map, ← List.map_cons, ← cons,
    intercalate_reverse_cons, List.append_assoc]

theorem tokens_tuple_reverse (field : TupleField) (items : List TupleField) :
    (TypeRef.tuple (field :: items).reverse).tokens =
      .mark '(' ::
        (ended (.mark ',') TupleField.tokens items ++ (field.tokens ++ [.mark ')'])) := by
  rw [TypeRef.tokens, TupleField.tokensEach_eq_map, intercalate_reverse_cons, List.append_assoc]

theorem Completes.readFrom {stage : Stage} {type : TypeRef} (complete : Completes stage type)
    {own : List Token} (h : stage.ReadFrom own) : own = type.tokens := by
  cases complete with
  | word stem word =>
      cases h
      rw [NameStem.tokens_toType_push, Segment.tokens]
  | name stem =>
      cases h
      rw [NameStem.tokens_toType_push]
  | type type =>
      cases h
      rfl

theorem Move.readFrom {offset : Nat} {state next : State} {token : Token}
    (move : Move offset state token next) {tokens : List Token} (h : state.ReadFrom tokens) :
    next.ReadFrom (tokens ++ [token]) := by
  obtain ⟨own, stage, rfl⟩ := h
  cases move with
  | firstWord first rest frames =>
      cases stage
      refine ⟨_, .word _ _, ?_⟩
      rw [Grammar.ofWord_ofList, List.append_assoc]
      rfl
  | openTuple frames =>
      cases stage
      exact ⟨_, .start, by simp [Frame.opened, ended]⟩
  | nextWord stem first rest frames =>
      cases stage
      refine ⟨_, .word _ _, ?_⟩
      rw [Grammar.ofWord_ofList, List.append_assoc]
  | aliasName word frames =>
      cases stage
      exact ⟨_, .wordWanted _, by simp [NameStem.opened, ended]⟩
  | openArguments stem word frames =>
      cases stage
      exact ⟨_, .start, by simp [Frame.opened, ended]⟩
  | wordPoint stem word frames =>
      cases stage
      exact ⟨_, .wordWanted _, by simp [NameStem.opened_push, Segment.tokens]⟩
  | namePoint stem frames =>
      cases stage
      exact ⟨_, .wordWanted _, by simp [NameStem.opened_push]⟩
  | nullable complete frames | pointer complete frames =>
      cases complete.readFrom stage
      exact ⟨_, .type _, List.append_assoc ..⟩
  | openRank complete frames =>
      cases complete.readFrom stage
      exact ⟨_, .rank _ 0, List.append_assoc ..⟩
  | rankComma element rank frames =>
      cases stage
      exact ⟨_, .rank _ _, by simp [List.replicate_succ']⟩
  | closeRank element rank frames =>
      cases stage
      exact ⟨_, .type _, by simp [TypeRef.tokens]⟩
  | nextArgument complete stem word items frames =>
      cases complete.readFrom stage
      exact ⟨_, .start, by simp [Frame.opened, ended]⟩
  | closeArguments complete stem word items frames =>
      cases complete.readFrom stage
      refine ⟨_, .name _ _ _, ?_⟩
      rw [tokens_segment_reverse]
      simp [Frame.opened]
  | fieldName complete start items first rest frames =>
      cases complete.readFrom stage
      refine ⟨_, .field _ _ _, ?_⟩
      rw [TupleField.tokens, Grammar.ofWord_ofList]
      simp
  | nextField complete start items frames =>
      cases complete.readFrom stage
      exact ⟨_, .start, by simp [Frame.opened, ended, TupleField.tokens]⟩
  | closeTuple complete start item items frames =>
      cases complete.readFrom stage
      refine ⟨_, .type _, ?_⟩
      rw [tokens_tuple_reverse]
      simp [Frame.opened, TupleField.tokens]
  | nextAfterName start items frames =>
      cases stage
      exact ⟨_, .start, by simp [Frame.opened, ended]⟩
  | closeAfterName start last item items frames =>
      cases stage
      refine ⟨_, .type _, ?_⟩
      rw [tokens_tuple_reverse]
      simp [Frame.opened]

theorem Move.isAdmitted {offset : Nat} {state next : State} {token : Token}
    (move : Move offset state token next) : token.isAdmitted = true := by
  cases move <;> rfl

end Reader

theorem isAdmitted_of_parse {text : String} {type : TypeRef} (h : parse text = .ok type) :
    (Token.lex text.toList).all Token.isAdmitted = true := by
  obtain ⟨stage, complete, admitted⟩ := Reader.completes_of_parse
    (motive := fun read _ => read.all Token.isAdmitted = true)
    (fun move before => by simp [before, move.isAdmitted]) rfl h
  exact admitted

theorem lex_of_parse {text : String} {type : TypeRef} (h : parse text = .ok type) :
    Token.lex text.toList = type.tokens := by
  obtain ⟨stage, complete, own, read, all⟩ := Reader.completes_of_parse
    (motive := fun read state => state.ReadFrom read) (fun move before => move.readFrom before)
    ⟨[], .start, rfl⟩ h
  rw [complete.readFrom read] at all
  exact all

/-- The reader accepts a text exactly when its tokens are those of a well-formed type. -/
theorem parse_eq_ok_iff_lex {text : String} {type : TypeRef} :
    parse text = .ok type ↔ type.WellFormed ∧ Token.lex text.toList = type.tokens := by
  constructor
  · intro h
    exact ⟨wellFormed_of_parse h, lex_of_parse h⟩
  · rintro ⟨formed, tokens⟩
    exact parse_of_lex formed tokens

/-- The reader accepts exactly the texts that have tokens from which the grammar derives a type,
and gives that type. Two texts with the same tokens are read alike, however they are spaced. -/
theorem parse_eq_ok_iff_isType (text : String) (type : TypeRef) :
    (parse text = .ok type ↔
      ∃ tokens, Token.Tokenizes text.toList tokens ∧ Grammar.IsType tokens type) ∧
    ∀ (other : String) (tokens : List Token), Token.Tokenizes text.toList tokens →
      Token.Tokenizes other.toList tokens → (parse text = .ok type ↔ parse other = .ok type) := by
  refine ⟨⟨?_, ?_⟩, ?_⟩
  · intro h
    obtain ⟨formed, tokens⟩ := parse_eq_ok_iff_lex.mp h
    refine ⟨Token.lex text.toList, Token.tokenizes_lex text.toList (isAdmitted_of_parse h), ?_⟩
    rw [tokens]
    exact Grammar.isType_tokens formed
  · rintro ⟨tokens, tokenized, derived⟩
    have scanned := Token.lex_eq_of_tokenizes tokenized
    have lexical : Grammar.Lexical tokens := scanned ▸ Token.lexical_of_mem_lex text.toList
    obtain ⟨formed, written⟩ := derived.yields lexical
    exact parse_of_lex formed (scanned.trans written.symm)
  · intro other tokens here there
    rw [parse_eq_ok_iff_lex, parse_eq_ok_iff_lex, Token.lex_eq_of_tokenizes here,
      Token.lex_eq_of_tokenizes there]

/-- The written form of `aliasedLookup` with blanks wherever they can stand. -/
def spacedLookup : String :=
  " global\n:: Data . Lookup < int [ , ] ? ,\t( @byte * start , string ) > "

theorem parse_spacedLookup :
    ∃ tokens, Token.Tokenizes spacedLookup.toList tokens ∧
      Token.Tokenizes aliasedLookup.render.toList tokens ∧
      parse spacedLookup = .ok aliasedLookup ∧ Grammar.IsType tokens aliasedLookup := by
  have same : Token.lex aliasedLookup.render.toList = Token.lex spacedLookup.toList := by
    decide +kernel
  have spaced := Token.tokenizes_lex spacedLookup.toList (by decide +kernel)
  have tight := Token.tokenizes_lex aliasedLookup.render.toList (by decide +kernel)
  rw [same] at tight
  have read : parse spacedLookup = .ok aliasedLookup :=
    ((parse_eq_ok_iff_isType spacedLookup aliasedLookup).2 _ _ spaced tight).mpr
      (parse_render_of_wellFormed aliasedLookup_wellFormed)
  obtain ⟨tokens, tokenized, derived⟩ :=
    (parse_eq_ok_iff_isType spacedLookup aliasedLookup).1.mp read
  rw [← Token.lex_eq_of_tokenizes tokenized] at derived
  exact ⟨_, spaced, tight, read, derived⟩

end TypeRef
end InterfaceGen
