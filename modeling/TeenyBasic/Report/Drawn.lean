import TeenyBasic.Report.Plain
import TeenyBasic.Terminal.Piece
import TeenyBasic.Text.Width

/-!
The drawn report: the line in question in a frame, with the faulty stretch underlined and the
message at the end of an arrow.
-/

set_option autoImplicit false

namespace TeenyBasic.Report

open Terminal (Piece)

/-- The stretch a drawn report marks: the span cut down to character boundaries of the text. Where
nothing is left, the next character is taken, or at the end of the text the last one. -/
def labelRange (text : List Char) (span : Span) : Span :=
  let start := Text.floorBoundary text span.start
  let stop := max start (Text.floorBoundary text span.stop)
  if start < stop then { start := start, stop := stop }
  else
    let (before, after) := Text.splitAtByte text span.start
    match after.head?, before.getLast? with
    | some next, _ => { start := start, stop := start + next.utf8Size }
    | none, some last => { start := start - last.utf8Size, stop := start }
    | none, none => { start := start, stop := stop }

/-- A marked stretch within one line. Columns count characters from zero. -/
structure Label where
  line : Nat
  first : Nat
  stop : Nat
  /-- The line without the blanks at its end. -/
  content : List Char
  deriving DecidableEq, Repr

namespace Label

/-- The number of the line that holds the given character, counted on from `number`, the column of
the character, and the line. -/
def lineAt : List (List Char) → Nat → Nat → Nat × Nat × List Char
  | [], index, number => (number, index, [])
  | line :: others, index, number =>
    if index < line.length then (number, index, line)
    else lineAt others (index - line.length) (number + 1)

def ofRange (text : List Char) (range : Span) : Label :=
  let before := (Text.splitAtByte text range.start).1.length
  let through := (Text.splitAtByte text range.stop).1.length
  let (number, column, line) := lineAt (Text.lines text) before 1
  { line := number
    first := column
    stop := column + (through - before)
    content := Text.trimEnd line }

def marks (label : Label) (column : Nat) : Bool :=
  label.first ≤ column && column < label.stop

/-- The column the arrow starts from. -/
def middle (label : Label) : Nat :=
  (label.first + label.stop) / 2

/-- How wide a column is: as wide as its character, and one past the end of the line. -/
def width (label : Label) (column : Nat) : Nat :=
  match label.content[column]? with
  | some c => Text.cellWidth column c
  | none => 1

end Label

inductive Paint where
  | fault
  | frame
  /-- The line in question, where nothing is wrong. -/
  | context
  /-- The part of the frame beside the arrow. -/
  | margin
  | help
  deriving DecidableEq, Repr

def Paint.number : Paint → String
  | fault => "31"
  | frame => "38;5;246"
  | context => "38;5;249"
  | margin => "38;5;240"
  | help => "38;5;115"

def bare (text : String) : Piece :=
  .bare text

def painted (paint : Paint) (text : String) : Piece :=
  { text := text, effects := [paint.number] }

/-- A character that belongs to the arrow or the underline; blanks stay unpainted. -/
def stroke (c : Char) : Piece :=
  if c = ' ' then bare " " else painted .fault c.toString

/-- A row of cells up to one column past the end of the label. A cell is drawn with one character
and filled up to its width with another. -/
def cells (label : Label) (drawing : Nat → Char × Char) : List Piece :=
  (List.range (label.stop + 2)).flatMap fun column =>
    let (first, filling) := drawing column
    stroke first :: List.replicate (label.width column - 1) (stroke filling)

def underline (label : Label) : List Piece :=
  cells label fun column =>
    if column = label.middle then ('┬', '─')
    else if label.marks column then ('─', '─')
    else (' ', ' ')

def arrow (label : Label) : List Piece :=
  cells label fun column =>
    if column = label.middle then ('╰', '─')
    else if label.middle < column then ('─', '─')
    else (' ', ' ')

/-- The line in question, character by character. Blanks are drawn as spaces. -/
def contentPieces (label : Label) : List Piece :=
  label.content.zipIdx.flatMap fun (c, column) =>
    let paint := if label.marks column then Paint.fault else Paint.context
    if Text.isBlank c then List.replicate (Text.cellWidth column c) (painted paint " ")
    else [painted paint c.toString]

def headline (diagnostic : Diagnostic) : List Piece :=
  [painted .fault ("[" ++ diagnostic.code.number ++ "] Error:"), bare (" " ++ diagnostic.message)]

def frameLines (diagnostic : Diagnostic) (label : Label) (file : Option String) :
    List (List Piece) :=
  let number := toString label.line
  let place := file.getD unnamedFile ++ ":" ++ number ++ ":" ++ toString (label.first + 1)
  let indent := bare (repeated (number.length + 2) ' ')
  let margin :=
    [bare " ", painted .margin (repeated (number.length + 1) ' ' ++ "│"), bare " "]
  [ [indent, painted .frame "╭", painted .frame "─", painted .frame "[", bare place,
      painted .frame "]"],
    [indent, painted .frame "│"],
    [bare " ", painted .frame (number ++ " │"), bare " "] ++ contentPieces label,
    margin ++ underline label,
    margin ++ arrow label ++ [bare (" " ++ diagnostic.message)] ] ++
  (match diagnostic.hint with
    | some hint => [margin, margin ++ [painted .help "Help", bare (": " ++ hint)]]
    | none => []) ++
  [[painted .frame (repeated (number.length + 2) '─' ++ "╯")]]

/-- The lines of a drawn report. An empty text has no line to show. -/
def drawnLines (diagnostic : Diagnostic) (source : String) (file : Option String) :
    List (List Piece) :=
  let text := source.toList
  if text.isEmpty then [headline diagnostic]
  else
    headline diagnostic ::
      frameLines diagnostic (Label.ofRange text (labelRange text diagnostic.span)) file

def drawn (diagnostic : Diagnostic) (source : String) (file : Option String) (color : Bool) :
    String :=
  String.join ((drawnLines diagnostic source file).map fun line =>
    Terminal.render color line ++ "\n")

end TeenyBasic.Report
