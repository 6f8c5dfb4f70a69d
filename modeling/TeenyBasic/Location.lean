import TeenyBasic.Text.Offset

/-!
Lines and columns. An offset beyond the text is taken for its end, and an offset inside a
character for the start of that character.
-/

set_option autoImplicit false

namespace TeenyBasic

/-- A place in a text as people count it, from one, with the line it is in. -/
structure Location where
  line : Nat
  column : Nat
  content : String
  deriving DecidableEq, Repr

namespace Location

def lastLine (text : List Char) : List Char :=
  (text.reverse.takeWhile (· != '\n')).reverse

/-- The place of a byte offset. Only line feeds end a line. -/
def ofOffset (text : List Char) (offset : Nat) : Location :=
  let (before, after) := Text.splitAtByte text offset
  let front := lastLine before
  { line := before.count '\n' + 1
    column := front.length + 1
    content := String.ofList (front ++ after.takeWhile (· != '\n')) }

end Location

end TeenyBasic
