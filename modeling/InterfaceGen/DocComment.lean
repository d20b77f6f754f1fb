import InterfaceGen.Text.Basic

/-!
Documentation comments: the lines that start with `///`. A line is held without that mark, so that
` <summary>` keeps its leading blank and is written back as `/// <summary>`.
-/

namespace InterfaceGen

structure DocComment where
  lines : List String
  deriving DecidableEq

namespace DocComment

def mark : String := "///"

/-- The documentation on one source line: what follows the mark, without blanks at its end. -/
def lineText? (line : String) : Option String :=
  (Text.afterStart mark.toList (Text.dropBlanks line.toList)).map fun rest =>
    Text.trimEnd (String.ofList rest)

/-- The documentation among the lines before a declaration; other lines are dropped. -/
def parse (trivia : String) : Option DocComment :=
  match (Text.lines trivia).filterMap lineText? with
  | [] => none
  | lines => some ⟨lines⟩

def rendered (docs : DocComment) : List String :=
  docs.lines.map (mark ++ ·)

end DocComment
end InterfaceGen
