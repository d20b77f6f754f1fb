import InterfaceGen.Attribute.Basic
import InterfaceGen.TypeRef.Printer

/-!
The written form of attributes. A string literal escapes the quote, the backslash, the line feed,
the carriage return, the tab and the null character; a character literal escapes the apostrophe
and the backslash and nothing else.
-/

namespace InterfaceGen

namespace Literal

/-- A character inside a string literal. -/
def escapeInText (c : Char) : String :=
  if c = '\x22' then "\\\""
  else if c = '\\' then "\\\\"
  else if c = '\n' then "\\n"
  else if c = '\r' then "\\r"
  else if c = '\t' then "\\t"
  else if c = '\x00' then "\\0"
  else c.toString

/-- A character inside a character literal. -/
def escapeInChar (c : Char) : String :=
  if c = '\x27' then "\\\x27"
  else if c = '\\' then "\\\\"
  else c.toString

def render : Literal → String
  | .text value => "\"" ++ Text.joined (value.toList.map escapeInText) ++ "\""
  | .bool true => "true"
  | .bool false => "false"
  | .number digits => digits
  | .char value => "\x27" ++ escapeInChar value ++ "\x27"
  | .null => "null"

end Literal

/-- An array initializer; braces hold a single blank when there are no items. -/
def ArgumentValue.initializer (items : List String) : String :=
  match items with
  | [] => "\x7b \x7d"
  | items => "\x7b " ++ Text.commaSeparated items ++ " \x7d"

mutual

def ArgumentValue.render : ArgumentValue → String
  | .literal value => value.render
  | .typeOf type => "typeof(" ++ type.render ++ ")"
  | .collection items => "[" ++ Text.commaSeparated (ArgumentValue.renderEach items) ++ "]"
  | .implicitArray items => "new[] " ++ ArgumentValue.initializer (ArgumentValue.renderEach items)
  | .newArray type none => "new " ++ type.render
  | .newArray type (some items) =>
      "new " ++ type.render ++ " " ++ ArgumentValue.initializer (ArgumentValue.renderEach items)
  | .other text => text

def ArgumentValue.renderEach : List ArgumentValue → List String
  | [] => []
  | value :: rest => value.render :: ArgumentValue.renderEach rest

end

@[simp] theorem ArgumentValue.renderEach_eq_map (values : List ArgumentValue) :
    ArgumentValue.renderEach values = values.map ArgumentValue.render := by
  induction values with
  | nil => rfl
  | cons value rest ih => simp [ArgumentValue.renderEach, ih]

def Argument.render (argument : Argument) : String :=
  match argument.name with
  | none => argument.value.render
  | some name => name ++ " = " ++ argument.value.render

def Attribute.render (attr : Attribute) : String :=
  match attr.arguments with
  | none => attr.name.render
  | some arguments =>
      attr.name.render ++ "(" ++ Text.commaSeparated (arguments.map Argument.render) ++ ")"

def AttributeSection.render (attributes : AttributeSection) : String :=
  let items := Text.commaSeparated (attributes.attributes.map Attribute.render)
  match attributes.target with
  | none => "[" ++ items ++ "]"
  | some target => "[" ++ target ++ ": " ++ items ++ "]"

end InterfaceGen
