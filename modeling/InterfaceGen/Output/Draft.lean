import InterfaceGen.DocComment
import InterfaceGen.Output.Buffer

/-!
Drafts: text written line by line at a depth. Opening a block writes its header and a brace;
closing it drops the blank lines at its end, and a block without lines is closed on the line of its
header.
-/

namespace InterfaceGen

structure Draft where
  indent : String
  depth : Nat
  buffer : Buffer

namespace Draft

def start (buffer : Buffer) (indent : String) : Draft :=
  ⟨indent, 0, buffer⟩

/-- Writes text as it is, without indentation or line end. -/
def raw (draft : Draft) (text : String) : Draft :=
  { draft with buffer := draft.buffer.push text }

def line (draft : Draft) (text : String) : Draft :=
  draft.raw (Text.repeated draft.indent draft.depth ++ text ++ "\n")

def blank (draft : Draft) : Draft :=
  draft.raw "\n"

def docs (draft : Draft) (comment : DocComment) : Draft :=
  comment.rendered.foldl line draft

/-- Opens a block: its header and a brace, and all that follows one level deeper. -/
def openBlock (draft : Draft) (header : String) : Draft :=
  let written := draft.line (header ++ " \x7b")
  { written with depth := written.depth + 1 }

/-- Drops line feeds from the end of a reversed text while another one precedes them. -/
def dropBlankLines : List Char → List Char
  | [] => []
  | c :: rest => if c = '\n' ∧ rest.head? = some '\n' then dropBlankLines rest else c :: rest

/-- Closes the innermost block. With no block open nothing happens. -/
def closeBlock (draft : Draft) : Draft :=
  match draft.depth with
  | 0 => draft
  | depth + 1 =>
      match dropBlankLines draft.buffer.reversed with
      | '\n' :: '\x7b' :: rest => { draft with depth, buffer := ⟨'\n' :: '\x7d' :: '\x7b' :: rest⟩ }
      | reversed => line { draft with depth, buffer := ⟨reversed⟩ } "\x7d"

def closeBlocks (draft : Draft) : Nat → Draft
  | 0 => draft
  | count + 1 => draft.closeBlock.closeBlocks count

/-- Closes all open blocks and gives the buffer with the finished text. -/
def finish (draft : Draft) : Buffer :=
  (draft.closeBlocks draft.depth).buffer

end Draft
end InterfaceGen
