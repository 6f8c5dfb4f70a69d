import TeenyBasic.Text.Pieces

/-!
What can be wrong with a pattern, where, and how that is shown: the pattern with the faulty stretch
underlined, and a message below it.
-/

set_option autoImplicit false

namespace TeenyBasic.Pattern

/-- A place in a pattern. Lines and columns count from one. -/
structure Place where
  line : Nat := 1
  column : Nat := 1
  deriving DecidableEq, Repr

namespace Place

def after (place : Place) (c : Char) : Place :=
  if c = '\n' then { line := place.line + 1, column := 1 }
  else { place with column := place.column + 1 }

def isBefore (first second : Place) : Bool :=
  first.line < second.line || (first.line = second.line && first.column < second.column)

end Place

structure Stretch where
  start : Place := {}
  stop : Place := {}
  deriving DecidableEq, Repr

namespace Stretch

def point (place : Place) : Stretch :=
  { start := place, stop := place }

def isWithinLine (stretch : Stretch) : Bool :=
  stretch.start.line = stretch.stop.line

def isBefore (first second : Stretch) : Bool :=
  first.start.isBefore second.start ||
    (first.start = second.start && first.stop.isBefore second.stop)

end Stretch

inductive Fault where
  | escapeInSet
  | reversedRange
  | boundNotCharacter
  | openSet
  | emptyNumber
  | hugeNumber
  | emptyCode
  | noCharacter
  | noHexDigit
  | cutEscape
  | unknownEscape
  | danglingNegation
  | repeatedFlag
  | repeatedNegation
  | cutFlags
  | unknownFlag
  | repeatedName
  | emptyName
  | noNameCharacter
  | openName
  | openGroup
  | unopenedGroup
  | reversedCount
  | emptyCount
  | openCount
  | nothingToRepeat
  | openBoundary
  | unknownBoundary
  | openBoundaryOrCount
  | noProperty
  | backreference
  | lookAround
  | wideCharacter
  | invalidText
  | unknownProperty
  | unknownPropertyValue
  | unknownClass
  | noCaseFolding
  deriving DecidableEq, Repr

def Fault.message : Fault → String
  | escapeInSet => "invalid escape sequence found in character class"
  | reversedRange => "invalid character class range, the start must be <= the end"
  | boundNotCharacter => "invalid range boundary, must be a literal"
  | openSet => "unclosed character class"
  | emptyNumber => "decimal literal empty"
  | hugeNumber => "decimal literal invalid"
  | emptyCode => "hexadecimal literal empty"
  | noCharacter => "hexadecimal literal is not a Unicode scalar value"
  | noHexDigit => "invalid hexadecimal digit"
  | cutEscape => "incomplete escape sequence, reached end of pattern prematurely"
  | unknownEscape => "unrecognized escape sequence"
  | danglingNegation => "dangling flag negation operator"
  | repeatedFlag => "duplicate flag"
  | repeatedNegation => "flag negation operator repeated"
  | cutFlags => "expected flag but got end of regex"
  | unknownFlag => "unrecognized flag"
  | repeatedName => "duplicate capture group name"
  | emptyName => "empty capture group name"
  | noNameCharacter => "invalid capture group character"
  | openName => "unclosed capture group name"
  | openGroup => "unclosed group"
  | unopenedGroup => "unopened group"
  | reversedCount => "invalid repetition count range, the start must be <= the end"
  | emptyCount => "repetition quantifier expects a valid decimal"
  | openCount => "unclosed counted repetition"
  | nothingToRepeat => "repetition operator missing expression"
  | openBoundary =>
    "special word boundary assertion is either unclosed or contains an invalid character"
  | unknownBoundary =>
    "unrecognized special word boundary assertion, valid choices are: start, end, start-half " ++
      "or end-half"
  | openBoundaryOrCount =>
    "found either the beginning of a special word boundary or a bounded repetition on a \\b with " ++
      "an opening brace, but no closing brace"
  | noProperty => "invalid Unicode character class"
  | backreference => "backreferences are not supported"
  | lookAround => "look-around, including look-ahead and look-behind, is not supported"
  | wideCharacter => "Unicode not allowed here"
  | invalidText => "pattern can match invalid UTF-8"
  | unknownProperty => "Unicode property not found"
  | unknownPropertyValue => "Unicode property value not found"
  | unknownClass =>
    "Unicode-aware Perl class not found (make sure the unicode-perl feature is enabled)"
  | noCaseFolding =>
    "Unicode-aware case insensitivity matching is not available (make sure the unicode-case " ++
      "feature is enabled)"

structure FaultAt where
  fault : Fault
  stretch : Stretch
  /-- What the faulty stretch repeats. -/
  earlier : Option Stretch := none
  deriving DecidableEq, Repr

namespace FaultAt

def stretches (fault : FaultAt) : List Stretch :=
  match fault.earlier with
  | none => [fault.stretch]
  | some earlier =>
    if fault.stretch.isBefore earlier then [fault.stretch, earlier] else [earlier, fault.stretch]

def copies (count : Nat) (c : Char) : List Char :=
  List.replicate count c

def underlining (stretches : List Stretch) : List Char :=
  stretches.foldl
    (fun line stretch =>
      line ++ copies (stretch.start.column - 1 - line.length) ' ' ++
        copies (max 1 (stretch.stop.column - stretch.start.column)) '^')
    []

def linesOf (pattern : List Char) : List (List Char) :=
  let pieces := Text.pieces '\n' pattern
  let complete := if pieces.getLast? == some [] then pieces.dropLast else pieces
  complete.map fun line => if line.getLast? == some '\r' then line.dropLast else line

/-- How many characters the number of a line takes; none if there is one line only. -/
def numberWidth (pattern : List Char) : Nat :=
  let count := (linesOf pattern).length + if pattern.getLast? == some '\n' then 1 else 0
  if count ≤ 1 then 0 else (toString count).length

/-- A line of the pattern, and the line below it if there is something to underline. -/
def shownLine (fault : FaultAt) (width : Nat) (line : List Char) (number : Nat) : List Char :=
  let digits := (toString number).toList
  let front :=
    if width = 0 then copies 4 ' '
    else copies (width - digits.length) ' ' ++ digits ++ [':', ' ']
  let marked := fault.stretches.filter fun stretch =>
    stretch.isWithinLine && stretch.start.line == number
  let below :=
    if marked.isEmpty then []
    else copies front.length ' ' ++ underlining marked ++ ['\n']
  front ++ line ++ ['\n'] ++ below

def shownPattern (fault : FaultAt) (pattern : List Char) : List Char :=
  let width := numberWidth pattern
  ((linesOf pattern).zipIdx 1).flatMap fun (line, number) => fault.shownLine width line number

def note (stretch : Stretch) : String :=
  "on line " ++ toString stretch.start.line ++ " (column " ++ toString stretch.start.column ++
    ") through line " ++ toString stretch.stop.line ++ " (column " ++
    toString (stretch.stop.column - 1) ++ ")\n"

def divider : String :=
  String.ofList (copies 79 '~') ++ "\n"

def text (fault : FaultAt) (pattern : String) : String :=
  let shown := String.ofList (fault.shownPattern pattern.toList)
  let notes := (fault.stretches.filter fun stretch => !stretch.isWithinLine).map note
  let middle :=
    if pattern.toList.contains '\n' then divider ++ shown ++ divider ++ String.join notes else shown
  "regex parse error:\n" ++ middle ++ "error: " ++ fault.fault.message

end FaultAt

end TeenyBasic.Pattern
