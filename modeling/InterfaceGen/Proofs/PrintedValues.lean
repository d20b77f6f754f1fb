import InterfaceGen.Proofs.EscapedText
import InterfaceGen.Proofs.PrintedLists

/-!
Printed argument values. How a value begins tells its form, and then what follows tells the rest: a
literal ends at its quote, a type where no type goes on, and an array with the list of its elements.
-/

namespace InterfaceGen
namespace ArgumentValue

/-- A value without number and verbatim text, made of well-formed types. -/
inductive WellFormed : ArgumentValue → Prop where
  | text (value : String) : WellFormed (.literal (.text value))
  | bool (value : Bool) : WellFormed (.literal (.bool value))
  | char (value : Char) : WellFormed (.literal (.char value))
  | null : WellFormed (.literal .null)
  | typeOf {type : TypeRef} (formed : type.WellFormed) : WellFormed (.typeOf type)
  | collection {items : List ArgumentValue} (each : ∀ item ∈ items, WellFormed item) :
      WellFormed (.collection items)
  | implicitArray {items : List ArgumentValue} (each : ∀ item ∈ items, WellFormed item) :
      WellFormed (.implicitArray items)
  | unfilledArray {type : TypeRef} (formed : type.WellFormed) : WellFormed (.newArray type none)
  | filledArray {type : TypeRef} (formed : type.WellFormed) {items : List ArgumentValue}
      (each : ∀ item ∈ items, WellFormed item) : WellFormed (.newArray type (some items))

/-- The forms of values that differ in how the printed value begins. -/
inductive Form where
  | text
  | char
  | bool (value : Bool)
  | null
  | typeOf
  | collection
  | implicitArray
  | newArray
  /-- The text stands as it is. -/
  | bare
  deriving DecidableEq

def Form.opening : Form → String
  | .text => "\""
  | .char => "\x27"
  | .bool true => "true"
  | .bool false => "false"
  | .null => "null"
  | .typeOf => "typeof("
  | .collection => "["
  | .implicitArray => "new[] "
  | .newArray => "new "
  | .bare => ""

def form : ArgumentValue → Form
  | .literal (.text _) => .text
  | .literal (.char _) => .char
  | .literal (.bool value) => .bool value
  | .literal .null => .null
  | .typeOf _ => .typeOf
  | .collection _ => .collection
  | .implicitArray _ => .implicitArray
  | .newArray _ _ => .newArray
  | .literal (.number _) | .other _ => .bare

/-- The part of a printed value after its opening. -/
def body : ArgumentValue → String
  | .literal (.text value) => Text.joined (value.toList.map Literal.escapeInText) ++ "\""
  | .literal (.char value) => Literal.escapeInChar value ++ "\x27"
  | .literal (.bool _) | .literal .null => ""
  | .typeOf type => type.render ++ ")"
  | .collection items => Text.commaSeparated (items.map render) ++ "]"
  | .implicitArray items => initializer (items.map render)
  | .newArray type none => type.render
  | .newArray type (some items) => type.render ++ " " ++ initializer (items.map render)
  | .literal (.number text) | .other text => text

theorem render_eq_opening_append (value : ArgumentValue) :
    value.render = value.form.opening ++ value.body := by
  cases value with
  | literal literal =>
      cases literal with
      | bool value => cases value <;> rfl
      | null => rfl
      | text value | char value | number digits =>
          simp [render, Literal.render, form, Form.opening, body, String.append_assoc]
  | newArray type items =>
      cases items <;> simp [render, form, Form.opening, body, String.append_assoc]
  | typeOf type | collection items | implicitArray items | other text =>
      simp [render, form, Form.opening, body, String.append_assoc]

/-- All forms with an opening of their own. -/
def Form.opened : List Form :=
  [.text, .char, .bool true, .bool false, .null, .typeOf, .collection, .implicitArray, .newArray]

theorem WellFormed.form_mem_opened {value : ArgumentValue} (formed : value.WellFormed) :
    value.form ∈ Form.opened := by
  cases formed with
  | bool value => cases value <;> simp [form, Form.opened]
  | _ => simp [form, Form.opened]

theorem Form.eq_of_opening_prefix : ∀ first ∈ opened, ∀ second ∈ opened,
    first.opening.toList <+: second.opening.toList → first = second := by
  decide +kernel

/-- Values that are printed alike have one form, and are alike after the opening. -/
theorem form_append_inj {value other : ArgumentValue} (formed : value.WellFormed)
    (otherFormed : other.WellFormed) {rest more : List Char}
    (same : value.render.toList ++ rest = other.render.toList ++ more) :
    value.form = other.form ∧ value.body.toList ++ rest = other.body.toList ++ more := by
  simp only [render_eq_opening_append, String.toList_append, List.append_assoc] at same
  have forms : value.form = other.form := by
    have starts := List.prefix_append value.form.opening.toList (value.body.toList ++ rest)
    have otherStarts := List.prefix_append other.form.opening.toList (other.body.toList ++ more)
    rw [← same] at otherStarts
    cases List.prefix_or_prefix_of_prefix starts otherStarts with
    | inl h =>
        exact Form.eq_of_opening_prefix _ formed.form_mem_opened _ otherFormed.form_mem_opened h
    | inr h =>
        symm
        exact Form.eq_of_opening_prefix _ otherFormed.form_mem_opened _ formed.form_mem_opened h
  rw [forms] at same
  exact ⟨forms, List.append_cancel_left same⟩

theorem beginsWith_render {value : ArgumentValue} (formed : value.WellFormed) :
    Text.beginsWith Text.startsItem value.render.toList = true := by
  have openings : ∀ form ∈ Form.opened,
      Text.beginsWith Text.startsItem form.opening.toList = true := by decide +kernel
  rw [render_eq_opening_append, String.toList_append]
  exact Text.beginsWith_append (openings _ formed.form_mem_opened) _

theorem toList_initializer_nil (rest : List Char) :
    (initializer []).toList ++ rest = '\x7b' :: ' ' :: '\x7d' :: rest := rfl

theorem toList_initializer_cons (item : String) (items : List String) (rest : List Char) :
    (initializer (item :: items)).toList ++ rest = '\x7b' :: ' ' ::
      ((Text.commaSeparated (item :: items)).toList ++ ' ' :: '\x7d' :: rest) := by
  simp [initializer]

theorem exists_toList_initializer (items : List String) (rest : List Char) :
    ∃ inner, (initializer items).toList ++ rest = '\x7b' :: ' ' :: inner := by
  cases items with
  | nil => exact ⟨_, toList_initializer_nil rest⟩
  | cons item items => exact ⟨_, toList_initializer_cons item items rest⟩

theorem endsBefore_initializer (items : List String) (rest : List Char) :
    TypeRef.EndsBefore (' ' :: ((initializer items).toList ++ rest)) := by
  obtain ⟨inner, text⟩ := exists_toList_initializer items rest
  rw [text]
  exact (TypeRef.endsBefore_mark (by decide) _).afterSpace

theorem not_followsItem_initializer (items : List String) (rest : List Char) :
    ¬ Text.FollowsItem (' ' :: ((initializer items).toList ++ rest)) := by
  obtain ⟨inner, text⟩ := exists_toList_initializer items rest
  rw [text]
  intro follows
  cases follows with
  | close closes => cases closes

theorem determines_text (text : String) :
    Text.Determines render WellFormed (.literal (.text text)) := by
  intro other otherFormed rest more _ _ same
  obtain ⟨forms, bodies⟩ := form_append_inj (.text text) otherFormed same
  cases otherFormed with
  | text other =>
      simp only [body, String.toList_append, Literal.toList_joined_escapeInText,
        List.append_assoc] at bodies
      obtain ⟨chars, after⟩ := Literal.isCode_textEscapes.quoted_inj (by decide) (by decide) bodies
      exact ⟨by rw [String.toList_injective chars], after⟩
  | _ => cases forms

theorem determines_char (c : Char) : Text.Determines render WellFormed (.literal (.char c)) := by
  intro other otherFormed rest more _ _ same
  obtain ⟨forms, bodies⟩ := form_append_inj (.char c) otherFormed same
  cases otherFormed with
  | char other =>
      simp only [body, String.toList_append, Literal.toList_escapeInChar,
        List.append_assoc] at bodies
      obtain ⟨rfl, after⟩ := Literal.isCode_charEscapes.append_inj bodies
      exact ⟨rfl, List.append_cancel_left after⟩
  | _ => cases forms

theorem determines_bool (flag : Bool) :
    Text.Determines render WellFormed (.literal (.bool flag)) := by
  intro other otherFormed rest more _ _ same
  obtain ⟨forms, bodies⟩ := form_append_inj (.bool flag) otherFormed same
  cases otherFormed with
  | bool other =>
      cases forms
      exact ⟨rfl, bodies⟩
  | _ => cases forms

theorem determines_null : Text.Determines render WellFormed (.literal .null) := by
  intro other otherFormed rest more _ _ same
  obtain ⟨forms, bodies⟩ := form_append_inj .null otherFormed same
  cases otherFormed with
  | null => exact ⟨rfl, bodies⟩
  | _ => cases forms

theorem determines_typeOf {type : TypeRef} (formed : type.WellFormed) :
    Text.Determines render WellFormed (.typeOf type) := by
  intro other otherFormed rest more _ _ same
  obtain ⟨forms, bodies⟩ := form_append_inj (.typeOf formed) otherFormed same
  cases otherFormed with
  | typeOf otherFormed =>
      simp only [body, String.toList_append, List.append_assoc] at bodies
      obtain ⟨rfl, after⟩ := TypeRef.render_append_inj formed otherFormed
        (TypeRef.endsBefore_mark (by decide) rest) (TypeRef.endsBefore_mark (by decide) more) bodies
      exact ⟨rfl, (List.cons.inj after).2⟩
  | _ => cases forms

section Items

variable {items : List ArgumentValue} (formed : ∀ item ∈ items, WellFormed item)
  (each : ∀ item ∈ items, Text.Determines render WellFormed item)
include formed each

theorem determines_collection : Text.Determines render WellFormed (.collection items) := by
  intro other otherFormed rest more _ _ same
  obtain ⟨forms, bodies⟩ := form_append_inj (.collection formed) otherFormed same
  cases otherFormed with
  | collection otherFormed =>
      simp only [body, String.toList_append, List.append_assoc] at bodies
      obtain ⟨rfl, after⟩ := Text.commaSeparated_append_inj (fun _ => beginsWith_render) each
        formed otherFormed (.square rest) (.square more) bodies
      exact ⟨rfl, (List.cons.inj after).2⟩
  | _ => cases forms

theorem initializer_append_inj {others : List ArgumentValue}
    (othersFormed : ∀ item ∈ others, WellFormed item) {rest more : List Char}
    (same : (initializer (items.map render)).toList ++ rest =
      (initializer (others.map render)).toList ++ more) :
    items = others ∧ rest = more := by
  cases items with
  | nil =>
      cases others with
      | nil => exact ⟨rfl, List.append_cancel_left same⟩
      | cons other others =>
          have starts := beginsWith_render (othersFormed other List.mem_cons_self)
          rw [List.map_nil, List.map_cons, toList_initializer_nil, toList_initializer_cons,
            List.cons.injEq, List.cons.injEq] at same
          exact absurd same.2.2.symm
            (Text.ne_of_beginsWith (Text.beginsWith_commaSeparated starts _ _) (by rfl))
  | cons item items =>
      cases others with
      | nil =>
          have starts := beginsWith_render (formed item List.mem_cons_self)
          rw [List.map_nil, List.map_cons, toList_initializer_nil, toList_initializer_cons,
            List.cons.injEq, List.cons.injEq] at same
          exact absurd same.2.2
            (Text.ne_of_beginsWith (Text.beginsWith_commaSeparated starts _ _) (by rfl))
      | cons other others =>
          rw [List.map_cons, List.map_cons, toList_initializer_cons, toList_initializer_cons,
            List.cons.injEq, List.cons.injEq, ← List.map_cons, ← List.map_cons] at same
          obtain ⟨lists, after⟩ := Text.commaSeparated_append_inj (fun _ => beginsWith_render)
            each formed othersFormed (.curly rest) (.curly more) same.2.2
          exact ⟨lists, (List.cons.inj (List.cons.inj after).2).2⟩

theorem determines_implicitArray : Text.Determines render WellFormed (.implicitArray items) := by
  intro other otherFormed rest more _ _ same
  obtain ⟨forms, bodies⟩ := form_append_inj (.implicitArray formed) otherFormed same
  cases otherFormed with
  | implicitArray otherFormed =>
      obtain ⟨rfl, after⟩ := initializer_append_inj formed each otherFormed bodies
      exact ⟨rfl, after⟩
  | _ => cases forms

end Items

/-- An array creation ends with its type or with an initializer, and the text tells which. -/
theorem unfilledArray_ne_filledArray {type other : TypeRef} (formed : type.WellFormed)
    (otherFormed : other.WellFormed) (items : List String) {rest more : List Char}
    (follows : Text.FollowsItem rest) :
    type.render.toList ++ rest ≠
      other.render.toList ++ ' ' :: ((initializer items).toList ++ more) := by
  intro same
  have after := (TypeRef.render_append_inj formed otherFormed follows.endsBefore
    (endsBefore_initializer items more) same).2
  rw [after] at follows
  exact not_followsItem_initializer items more follows

theorem determines_unfilledArray {type : TypeRef} (formed : type.WellFormed) :
    Text.Determines render WellFormed (.newArray type none) := by
  intro other otherFormed rest more follows otherFollows same
  obtain ⟨forms, bodies⟩ := form_append_inj (.unfilledArray formed) otherFormed same
  cases otherFormed with
  | unfilledArray otherFormed =>
      obtain ⟨rfl, after⟩ := TypeRef.render_append_inj formed otherFormed follows.endsBefore
        otherFollows.endsBefore bodies
      exact ⟨rfl, after⟩
  | filledArray otherFormed otherEach =>
      simp only [body, String.toList_append, List.append_assoc] at bodies
      exact absurd bodies (unfilledArray_ne_filledArray formed otherFormed _ follows)
  | _ => cases forms

theorem determines_filledArray {type : TypeRef} (formed : type.WellFormed)
    {items : List ArgumentValue} (itemsFormed : ∀ item ∈ items, WellFormed item)
    (each : ∀ item ∈ items, Text.Determines render WellFormed item) :
    Text.Determines render WellFormed (.newArray type (some items)) := by
  intro other otherFormed rest more follows otherFollows same
  obtain ⟨forms, bodies⟩ := form_append_inj (.filledArray formed itemsFormed) otherFormed same
  cases otherFormed with
  | unfilledArray otherFormed =>
      simp only [body, String.toList_append, List.append_assoc] at bodies
      exact absurd bodies.symm (unfilledArray_ne_filledArray otherFormed formed _ otherFollows)
  | filledArray otherFormed otherEach =>
      simp only [body, String.toList_append, List.append_assoc] at bodies
      obtain ⟨rfl, after⟩ := TypeRef.render_append_inj formed otherFormed
        (endsBefore_initializer _ rest) (endsBefore_initializer _ more) bodies
      obtain ⟨rfl, last⟩ := initializer_append_inj itemsFormed each otherEach
        (List.cons.inj after).2
      exact ⟨rfl, last⟩
  | _ => cases forms

theorem determines {value : ArgumentValue} (formed : value.WellFormed) :
    Text.Determines render WellFormed value := by
  induction formed with
  | text value => exact determines_text value
  | bool value => exact determines_bool value
  | char value => exact determines_char value
  | null => exact determines_null
  | typeOf formed => exact determines_typeOf formed
  | collection formed ih => exact determines_collection formed ih
  | implicitArray formed ih => exact determines_implicitArray formed ih
  | unfilledArray formed => exact determines_unfilledArray formed
  | filledArray formed itemsFormed ih => exact determines_filledArray formed itemsFormed ih

theorem mark_ne_named {opening : String} {mark : Char} (begins : opening.toList = [mark])
    (outside : Text.startsWord mark = false) {name : String}
    (identifier : Text.isWord name = true) (rest more : List Char) :
    opening.toList ++ rest ≠ name.toList ++ more := by
  have starts := Text.beginsWith_append (Text.beginsWith_of_isWord identifier) more
  rw [begins]
  refine (Text.ne_of_beginsWith starts ?_).symm
  exact outside

theorem keyword_ne_named {opening word : String} {mark rest : List Char}
    (begins : opening.toList = word.toList ++ mark) (keyword : Text.isWord word = true)
    (stops : TypeRef.Token.Stops (mark ++ rest)) (apart : (mark ++ rest).take 2 ≠ [' ', '='])
    {name : String} (identifier : Text.isWord name = true) (more : List Char) :
    opening.toList ++ rest ≠ name.toList ++ ' ' :: '=' :: more := by
  rw [begins, List.append_assoc]
  intro same
  have after := (TypeRef.word_append_inj keyword identifier stops
    (TypeRef.Token.stops_cons (by decide) _) same).2
  rw [after] at apart
  exact apart rfl

theorem take_two_of_follows {rest : List Char} (follows : Text.FollowsItem rest) :
    rest.take 2 ≠ [' ', '='] := by
  cases follows with
  | comma rest => simp
  | close closes => cases closes <;> simp

theorem take_two_of_type {type : TypeRef} (formed : type.WellFormed) (rest : List Char) :
    (' ' :: (type.render.toList ++ rest)).take 2 ≠ [' ', '='] := by
  have starts := Text.beginsWith_append (TypeRef.beginsWith_render formed) rest
  have outside : TypeRef.startsType '=' = false := by decide +kernel
  cases text : type.render.toList ++ rest with
  | nil => simp
  | cons first later =>
      rw [text] at starts
      intro same
      have sign : first = '=' := by simpa using same
      rw [sign, Text.beginsWith_cons, outside] at starts
      cases starts

/-- The value cannot be read as a name and another value. A keyword may be the name of an argument,
but an equals sign follows a name, and none of the keywords of values. -/
theorem render_append_ne_named {value : ArgumentValue} (formed : value.WellFormed) {name : String}
    (identifier : Text.isWord name = true) {rest : List Char} (follows : Text.FollowsItem rest)
    (more : List Char) :
    value.render.toList ++ rest ≠ name.toList ++ ' ' :: '=' :: more := by
  rw [render_eq_opening_append, String.toList_append, List.append_assoc]
  cases formed with
  | text value =>
      have opens : Form.text.opening.toList = ['\x22'] := by decide
      exact mark_ne_named opens (by decide) identifier _ _
  | char value =>
      have opens : Form.char.opening.toList = ['\x27'] := by decide
      exact mark_ne_named opens (by decide) identifier _ _
  | collection each =>
      have opens : Form.collection.opening.toList = ['['] := by decide
      exact mark_ne_named opens (by decide) identifier _ _
  | bool flag =>
      have keyword : Text.isWord (Form.bool flag).opening = true := by
        cases flag <;> decide
      exact keyword_ne_named (List.append_nil _).symm keyword follows.endsBefore.stops
        (take_two_of_follows follows) identifier more
  | null =>
      exact keyword_ne_named (List.append_nil _).symm (by decide) follows.endsBefore.stops
        (take_two_of_follows follows) identifier more
  | typeOf formed =>
      have opens : Form.typeOf.opening.toList = "typeof".toList ++ ['('] := by decide
      exact keyword_ne_named opens (by decide) (TypeRef.Token.stops_cons (by decide) _) (by simp)
        identifier more
  | implicitArray each =>
      have opens : Form.implicitArray.opening.toList = "new".toList ++ ['[', ']', ' '] := by decide
      exact keyword_ne_named opens (by decide) (TypeRef.Token.stops_cons (by decide) _) (by simp)
        identifier more
  | unfilledArray formed =>
      have opens : Form.newArray.opening.toList = "new".toList ++ [' '] := by decide
      exact keyword_ne_named opens (by decide) (TypeRef.Token.stops_cons (by decide) _)
        (take_two_of_type formed _) identifier more
  | filledArray formed each =>
      have opens : Form.newArray.opening.toList = "new".toList ++ [' '] := by decide
      rw [body, String.append_assoc, String.toList_append, List.append_assoc]
      exact keyword_ne_named opens (by decide) (TypeRef.Token.stops_cons (by decide) _)
        (take_two_of_type formed _) identifier more

end ArgumentValue
end InterfaceGen
