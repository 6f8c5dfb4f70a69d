/-!
Text for a terminal, in pieces that may be painted, so that the same text serves with and without
colours.
-/

set_option autoImplicit false

namespace TeenyBasic.Terminal

/-- A stretch of text and how a terminal shows it: the numbers of its colour and of its effects. -/
structure Piece where
  text : String
  effects : List String := []
  deriving DecidableEq, Repr

def switchOn (effect : String) : String :=
  "\x1b[" ++ effect ++ "m"

def switchOff : String := "\x1b[0m"

namespace Piece

def bare (text : String) : Piece :=
  { text := text }

def painted (piece : Piece) : String :=
  if piece.effects.isEmpty then piece.text
  else String.join (piece.effects.map switchOn) ++ piece.text ++ switchOff

def render (color : Bool) (piece : Piece) : String :=
  if color then piece.painted else piece.text

end Piece

def render (color : Bool) (pieces : List Piece) : String :=
  String.join (pieces.map (Piece.render color))

end TeenyBasic.Terminal
