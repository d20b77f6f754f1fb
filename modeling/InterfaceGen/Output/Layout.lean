import InterfaceGen.Output.Draft
import InterfaceGen.Projection

/-!
The layout of a generated source: the preamble, the using directives, the namespace, and the
interface with its members inside the types around it.
-/

namespace InterfaceGen

structure Layout where
  preamble : String
  /-- The using directives, one list for each scope, innermost first. -/
  usings : List (List Using)
  namespaceName : String
  /-- The headers of the types around the interface, outermost first. -/
  containers : List String
  docs : Option DocComment
  header : String
  members : List InterfaceMember

namespace Layout

/-- The header of an interface. Modifiers that are all blank are left out. -/
def interfaceHeader (modifiers name : String) (typeParameters bases : List String) : String :=
  let modifiers := Text.trim modifiers
  (if modifiers = "" then "" else modifiers ++ " ") ++ "interface " ++ name ++
    Text.angleList typeParameters ++
    if bases.isEmpty then "" else " : " ++ Text.commaSeparated bases

def writeDocs (draft : Draft) : Option DocComment → Draft
  | none => draft
  | some comment => draft.docs comment

/-- Writes a preamble, ended by a line feed if it is not empty, and two blank lines. -/
def writePreamble (draft : Draft) (preamble : String) : Draft :=
  let written := draft.raw preamble
  let ended :=
    if preamble ≠ "" ∧ preamble.toList.getLast? ≠ some '\n' then written.blank else written
  ended.blank.blank

/-- Writes the using directives, and a blank line after them if there are any. -/
def writeUsings (draft : Draft) (usings : List Using) : Draft :=
  match usings with
  | [] => draft
  | usings => (usings.foldl (fun draft directive => draft.line directive.render) draft).blank

def writeNamespace (draft : Draft) (name : String) : Draft :=
  if name = "" then draft else (draft.line ("namespace " ++ name ++ ";")).blank

/-- Writes a member with its documentation and its attributes, and a blank line after it. -/
def writeMember (draft : Draft) (member : InterfaceMember) : Draft :=
  let documented := writeDocs draft member.docs
  let marked :=
    member.sections.foldl (fun draft attributes => draft.line attributes.render) documented
  (marked.line member.declaration).blank

def write (layout : Layout) (draft : Draft) : Draft :=
  let started := writePreamble draft layout.preamble
  let imported := writeUsings started layout.usings.flatten
  let placed := writeNamespace imported layout.namespaceName
  let nested := layout.containers.foldl Draft.openBlock placed
  let headed := (writeDocs nested layout.docs).openBlock layout.header
  let filled := layout.members.foldl writeMember headed
  filled.closeBlock.closeBlocks layout.containers.length

end Layout
end InterfaceGen
