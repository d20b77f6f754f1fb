import InterfaceGen.Proofs.DisplayedTypes
import InterfaceGen.Proofs.PrintedValues

/-!
A printed section of attributes has one reading. An argument is told by its value and by the equals
sign after its name, an attribute by its name and by the parentheses after it, and a section by the
colon after its target.
-/

namespace InterfaceGen

/-- The name, if there is one, is an identifier, and the value is well formed. -/
structure Argument.WellFormed (argument : Argument) : Prop where
  name : ∀ word ∈ argument.name, Text.isWord word = true
  value : argument.value.WellFormed

structure Attribute.WellFormed (attr : Attribute) : Prop where
  name : (TypeRef.named attr.name).WellFormed
  arguments : ∀ arguments ∈ attr.arguments, ∀ argument ∈ arguments, argument.WellFormed

structure AttributeSection.WellFormed (attributes : AttributeSection) : Prop where
  target : ∀ word ∈ attributes.target, Text.isWord word = true
  attributes : ∀ attr ∈ attributes.attributes, attr.WellFormed

namespace Argument

theorem toList_render_named (name : String) (value : ArgumentValue) (rest : List Char) :
    (render ⟨some name, value⟩).toList ++ rest =
      name.toList ++ ' ' :: '=' :: ' ' :: (value.render.toList ++ rest) := by
  simp [render]

theorem beginsWith_render {argument : Argument} (formed : argument.WellFormed) :
    Text.beginsWith Text.startsItem argument.render.toList = true := by
  obtain ⟨name, value⟩ := argument
  cases name with
  | none => exact ArgumentValue.beginsWith_render formed.value
  | some name =>
      have text := toList_render_named name value []
      rw [List.append_nil] at text
      rw [text]
      apply Text.beginsWith_append
      exact Text.beginsWith_mono (TypeRef.beginsWith_word (formed.name name rfl))
        fun _ => Text.startsItem_of_startsType

theorem determines {argument : Argument} (formed : argument.WellFormed) :
    Text.Determines render WellFormed argument := by
  intro other otherFormed rest more follows otherFollows same
  obtain ⟨name, value⟩ := argument
  obtain ⟨otherName, otherValue⟩ := other
  cases name with
  | none =>
      cases otherName with
      | none =>
          obtain ⟨rfl, after⟩ := ArgumentValue.determines formed.value otherValue otherFormed.value
            rest more follows otherFollows same
          exact ⟨rfl, after⟩
      | some otherName =>
          rw [toList_render_named] at same
          exact absurd same (ArgumentValue.render_append_ne_named formed.value
            (otherFormed.name otherName rfl) follows _)
  | some name =>
      rw [toList_render_named] at same
      cases otherName with
      | none =>
          exact absurd same.symm (ArgumentValue.render_append_ne_named otherFormed.value
            (formed.name name rfl) otherFollows _)
      | some otherName =>
          rw [toList_render_named] at same
          obtain ⟨rfl, left⟩ := TypeRef.word_append_inj (formed.name name rfl)
            (otherFormed.name otherName rfl) (TypeRef.Token.stops_cons (by decide) _)
            (TypeRef.Token.stops_cons (by decide) _) same
          simp only [List.cons.injEq, true_and] at left
          obtain ⟨rfl, after⟩ := ArgumentValue.determines formed.value otherValue otherFormed.value
            rest more follows otherFollows left
          exact ⟨rfl, after⟩

end Argument

namespace Attribute

/-- The argument list as written, with its parentheses. -/
def argumentText (attr : Attribute) : String :=
  match attr.arguments with
  | none => ""
  | some arguments => "(" ++ Text.commaSeparated (arguments.map Argument.render) ++ ")"

theorem render_eq_append (attr : Attribute) :
    attr.render = (TypeRef.named attr.name).render ++ attr.argumentText := by
  obtain ⟨name, arguments⟩ := attr
  cases arguments <;> simp [render, argumentText, TypeRef.render, String.append_assoc]

theorem argumentText_append (arguments : List Argument) (name : QualName) (rest : List Char) :
    (argumentText ⟨name, some arguments⟩).toList ++ rest =
      '(' :: ((Text.commaSeparated (arguments.map Argument.render)).toList ++ ')' :: rest) := by
  simp [argumentText]

theorem beginsWith_render {attr : Attribute} (formed : attr.WellFormed) :
    Text.beginsWith Text.startsItem attr.render.toList = true := by
  rw [render_eq_append, String.toList_append]
  apply Text.beginsWith_append
  exact Text.beginsWith_mono (TypeRef.beginsWith_render formed.name)
    fun _ => Text.startsItem_of_startsType

theorem endsBefore_argumentText (attr : Attribute) {rest : List Char}
    (follows : Text.FollowsItem rest) :
    TypeRef.EndsBefore (attr.argumentText.toList ++ rest) := by
  obtain ⟨name, arguments⟩ := attr
  cases arguments with
  | none => exact follows.endsBefore
  | some arguments =>
      rw [argumentText_append]
      exact TypeRef.endsBefore_mark (by decide) _

theorem argumentText_ne_colon (attr : Attribute) {rest : List Char}
    (follows : Text.FollowsItem rest) (more : List Char) :
    attr.argumentText.toList ++ rest ≠ ':' :: more := by
  obtain ⟨name, arguments⟩ := attr
  cases arguments with
  | none => exact follows.ne_cons (by decide) more
  | some arguments =>
      rw [argumentText_append]
      simp

theorem determines {attr : Attribute} (formed : attr.WellFormed) :
    Text.Determines render WellFormed attr := by
  intro other otherFormed rest more follows otherFollows same
  rw [render_eq_append, render_eq_append, String.toList_append, String.toList_append,
    List.append_assoc, List.append_assoc] at same
  obtain ⟨names, left⟩ := TypeRef.render_append_inj formed.name otherFormed.name
    (attr.endsBefore_argumentText follows) (other.endsBefore_argumentText otherFollows) same
  obtain ⟨name, arguments⟩ := attr
  obtain ⟨otherName, otherArguments⟩ := other
  cases names
  cases arguments with
  | none =>
      cases otherArguments with
      | none => exact ⟨rfl, left⟩
      | some others =>
          rw [argumentText_append] at left
          exact absurd left (follows.ne_cons (by decide) _)
  | some arguments =>
      rw [argumentText_append] at left
      cases otherArguments with
      | none => exact absurd left.symm (otherFollows.ne_cons (by decide) _)
      | some others =>
          rw [argumentText_append, List.cons.injEq] at left
          have each := formed.arguments arguments rfl
          obtain ⟨rfl, after⟩ := Text.commaSeparated_append_inj
            (fun _ => Argument.beginsWith_render)
            (fun argument member => Argument.determines (each argument member)) each
            (otherFormed.arguments others rfl) (.round rest) (.round more) left.2
          exact ⟨rfl, (List.cons.inj after).2⟩

end Attribute

namespace AttributeSection

/-- The attributes as written, with the bracket that closes the section. -/
def itemText (attributes : List Attribute) : List Char :=
  (Text.commaSeparated (attributes.map Attribute.render)).toList ++ [']']

theorem itemText_inj {attributes others : List Attribute}
    (formed : ∀ attr ∈ attributes, attr.WellFormed)
    (othersFormed : ∀ attr ∈ others, attr.WellFormed)
    (same : itemText attributes = itemText others) : attributes = others :=
  (Text.commaSeparated_append_inj (fun _ => Attribute.beginsWith_render)
    (fun attr member => Attribute.determines (formed attr member)) formed othersFormed
    (.square []) (.square []) same).1

theorem itemText_ne_target {attributes : List Attribute}
    (formed : ∀ attr ∈ attributes, attr.WellFormed) {target : String}
    (identifier : Text.isWord target = true) (more : List Char) :
    itemText attributes ≠ target.toList ++ ':' :: ' ' :: more := by
  intro same
  cases attributes with
  | nil =>
      have starts := Text.beginsWith_append (Text.beginsWith_of_isWord identifier)
        (':' :: ' ' :: more)
      exact absurd same.symm (Text.ne_of_beginsWith starts (by rfl))
  | cons attr attributes =>
      rw [itemText, List.map_cons, Text.commaSeparated_cons, String.toList_append,
        List.append_assoc, Attribute.render_eq_append, String.toList_append,
        List.append_assoc] at same
      -- the target is a type as well, so the first name ends where the target does
      have simple : target = (TypeRef.simple target).render := (QualName.render_simple target).symm
      rw [simple] at same
      have follows := Text.followsItem_following (attributes.map Attribute.render) (.square [])
      obtain ⟨-, left⟩ := TypeRef.render_append_inj (formed attr List.mem_cons_self).name
        (TypeRef.wellFormed_simple identifier) (attr.endsBefore_argumentText follows)
        (TypeRef.endsBefore_colon more) same
      exact attr.argumentText_ne_colon follows _ left

theorem toList_render_none (attributes : List Attribute) :
    (render ⟨none, attributes⟩).toList = '[' :: itemText attributes := by
  simp [render, itemText]

theorem toList_render_some (target : String) (attributes : List Attribute) :
    (render ⟨some target, attributes⟩).toList =
      '[' :: (target.toList ++ ':' :: ' ' :: itemText attributes) := by
  simp [render, itemText]

/-- Well-formed sections of attributes are printed alike only if they are equal. -/
theorem render_eq_iff {attributes others : AttributeSection} (formed : attributes.WellFormed)
    (othersFormed : others.WellFormed) :
    attributes.render = others.render ↔ attributes = others := by
  refine ⟨?_, congrArg render⟩
  intro texts
  have same := congrArg String.toList texts
  obtain ⟨target, attributes⟩ := attributes
  obtain ⟨otherTarget, others⟩ := others
  cases target with
  | none =>
      cases otherTarget with
      | none =>
          rw [toList_render_none, toList_render_none, List.cons.injEq] at same
          cases itemText_inj formed.attributes othersFormed.attributes same.2
          rfl
      | some other =>
          rw [toList_render_none, toList_render_some, List.cons.injEq] at same
          exact absurd same.2
            (itemText_ne_target formed.attributes (othersFormed.target other rfl) _)
  | some target =>
      cases otherTarget with
      | none =>
          rw [toList_render_none, toList_render_some, List.cons.injEq] at same
          exact absurd same.2.symm
            (itemText_ne_target othersFormed.attributes (formed.target target rfl) _)
      | some other =>
          rw [toList_render_some, toList_render_some, List.cons.injEq] at same
          obtain ⟨rfl, left⟩ := TypeRef.word_append_inj (formed.target target rfl)
            (othersFormed.target other rfl) (TypeRef.endsBefore_colon _).stops
            (TypeRef.endsBefore_colon _).stops same.2
          rw [List.cons.injEq, List.cons.injEq] at left
          cases itemText_inj formed.attributes othersFormed.attributes left.2.2
          rfl

def namesArgument (values : List String) : Argument :=
  ⟨some "Names", .newArray (.array (.simple "string") 1) (some (values.map (.literal ∘ .text)))⟩

/-- A section with the values in one array argument. -/
def tagged (values : List String) : AttributeSection :=
  ⟨some "return", [⟨.simple "Tags", some [namesArgument values]⟩]⟩

theorem wellFormed_namesArgument (values : List String) : (namesArgument values).WellFormed := by
  have texts : ∀ item ∈ values.map (ArgumentValue.literal ∘ .text), item.WellFormed := by
    intro item member
    obtain ⟨value, -, rfl⟩ := List.mem_map.mp member
    exact .text value
  refine ⟨?_, .filledArray (.array (TypeRef.wellFormed_simple (by decide)) (by decide)) texts⟩
  intro word name
  cases name
  decide

theorem wellFormed_tagged (values : List String) : (tagged values).WellFormed := by
  have attr : Attribute.WellFormed ⟨.simple "Tags", some [namesArgument values]⟩ := by
    refine ⟨TypeRef.wellFormed_simple (by decide), ?_⟩
    simpa using wellFormed_namesArgument values
  refine ⟨?_, by simpa [tagged] using attr⟩
  intro word target
  cases target
  decide

theorem render_tagged_ne :
    (tagged ["a\", \"b"]).render =
        "[return: Tags(Names = new string[] \x7b \"a\\\", \\\"b\" \x7d)]" ∧
      (tagged ["a\", \"b"]).render ≠ (tagged ["a", "b"]).render := by
  refine ⟨by decide +kernel, ?_⟩
  apply mt (render_eq_iff (wellFormed_tagged _) (wellFormed_tagged _)).mp
  simp [tagged, namesArgument]

end AttributeSection
end InterfaceGen
