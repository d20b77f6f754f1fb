import InterfaceGen.Text.CharClass

/-!
The tokens of a type text: maximal words, the alias mark `::`, and single characters. Blanks
separate tokens and are skipped. Each token knows the byte offset of its first character in the
UTF-8 text.
-/

namespace InterfaceGen
namespace TypeRef

inductive Token where
  | word (first : Char) (rest : List Char)
  | aliasMark
  | mark (c : Char)
  deriving DecidableEq

structure PlacedToken where
  offset : Nat
  token : Token
  deriving DecidableEq

namespace Token

def first : Token → Char
  | .word first _ => first
  | .aliasMark => ':'
  | .mark c => c

/-- The tokens of `text`, which starts at byte `offset`; its first `skip` characters belong to a
token that has been emitted already. -/
def scanFrom : (skip offset : Nat) → (text : List Char) → List PlacedToken
  | _, _, [] => []
  | skip + 1, offset, c :: rest => scanFrom skip (offset + c.utf8Size) rest
  | 0, offset, c :: rest =>
      let next := offset + c.utf8Size
      if Text.isBlank c then scanFrom 0 next rest
      else if Text.startsWord c then
        let tail := rest.takeWhile Text.continuesWord
        ⟨offset, .word c tail⟩ :: scanFrom tail.length next rest
      else if c = ':' ∧ rest.head? = some ':' then ⟨offset, .aliasMark⟩ :: scanFrom 1 next rest
      else ⟨offset, .mark c⟩ :: scanFrom 0 next rest

def scan (text : String) : List PlacedToken :=
  scanFrom 0 0 text.toList

end Token
end TypeRef
end InterfaceGen
