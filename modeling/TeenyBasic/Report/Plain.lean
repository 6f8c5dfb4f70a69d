import TeenyBasic.Diagnostic
import TeenyBasic.Location

/-!
The plain report: the message, the place, the line in question with carets under it, and the hint.
-/

set_option autoImplicit false

namespace TeenyBasic

def unnamedFile : String := "<input>"

namespace Report

def repeated (count : Nat) (c : Char) : String :=
  String.ofList (List.replicate count c)

/-- Number of carets under a stretch that starts at the given place. It is the length of the stretch
in bytes, as far as the bytes of the line exceed the characters before the place, and one at least. -/
def caretCount (place : Location) (span : Span) : Nat :=
  max 1 (min span.length (Text.byteLength place.content.toList - (place.column - 1)))

def plainLines (diagnostic : Diagnostic) (source : String) (file : Option String) : List String :=
  let place := Location.ofOffset source.toList diagnostic.span.start
  let line := toString place.line
  let margin := repeated line.length ' ' ++ " |"
  [ "error[" ++ diagnostic.code.number ++ "]: " ++ diagnostic.message,
    "  --> " ++ file.getD unnamedFile ++ ":" ++ line ++ ":" ++ toString place.column,
    margin,
    line ++ " | " ++ place.content,
    margin ++ " " ++ repeated (place.column - 1) ' ' ++ repeated (caretCount place diagnostic.span) '^' ] ++
  match diagnostic.hint with
  | some hint => [repeated line.length ' ' ++ " = hint: " ++ hint]
  | none => []

def plain (diagnostic : Diagnostic) (source : String) (file : Option String) : String :=
  String.join ((plainLines diagnostic source file).map (· ++ "\n"))

end Report

end TeenyBasic
