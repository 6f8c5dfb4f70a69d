import TeenyBasic.Pass.State
import TeenyBasic.Pattern
import TeenyBasic.Terminal.Piece
import TeenyBasic.Terminal.Strip
import TeenyBasic.Text.Escape
import TeenyBasic.Text.Pieces

/-!
The log. Each entry has a level and comes from a part of the program; a filter says up to which level
the entries of which parts are shown, and may name a pattern that their messages have to contain.
-/

set_option autoImplicit false

namespace TeenyBasic.Log

inductive Level where
  | error | warn | info | debug | trace
  deriving DecidableEq, Repr

namespace Level

def all : List Level :=
  [error, warn, info, debug, trace]

def title : Level → String
  | error => "ERROR"
  | warn => "WARN"
  | info => "INFO"
  | debug => "DEBUG"
  | trace => "TRACE"

/-- Position among the levels, from one; zero is left for showing nothing. -/
def rank : Level → Nat
  | error => 1
  | warn => 2
  | info => 3
  | debug => 4
  | trace => 5

def effects : Level → List String
  | error => ["1", "31"]
  | warn => ["33"]
  | info => ["32"]
  | debug => ["34"]
  | trace => ["36"]

end Level

/-- Capital letters stand for small ones. -/
def sameLetters (first second : String) : Bool :=
  first.toList.map Char.toLower == second.toList.map Char.toLower

/-- The rank a word asks for: the name of a level in any letters, or `off`. -/
def rankOfWord? (word : String) : Option Nat :=
  if sameLetters word "off" then some 0
  else (Level.all.find? fun level => sameLetters word level.title).map Level.rank

/-- Shows entries up to a rank, of one part of the program or of all. -/
structure Directive where
  part : Option String
  rank : Nat
  deriving DecidableEq, Repr

/-- Which entries are shown. Of the directives that apply to a part, the longest decides. -/
structure Filter where
  directives : List Directive
  pattern : Option Pattern := none
  deriving DecidableEq, Repr

namespace Filter

inductive Complaint where
  | unreadable (text : String)
  | severalPatterns (text : String)
  | refusedPattern (reason : Pattern.Refusal)
  deriving DecidableEq, Repr

def Complaint.line : Complaint → String
  | unreadable text => "warning: invalid logging spec '" ++ text ++ "', ignoring it\n"
  | severalPatterns text =>
    "warning: invalid logging spec '" ++ text ++ "' (too many '/'s), ignoring it\n"
  | refusedPattern reason =>
    "warning: invalid regex filter - " ++ reason.message ++ ", ignoring it\n"

def trim (text : List Char) : List Char :=
  let front := text.dropWhile Text.isBlank
  (front.reverse.dropWhile Text.isBlank).reverse

/-- A directive as it is written: a level, a part of the program, or a part with its level. A part
alone is shown in full. -/
def directive (text : List Char) : Except Complaint Directive :=
  match Text.pieces '=' text with
  | [word] =>
    let word := String.ofList word
    match rankOfWord? word with
    | some rank => .ok { part := none, rank := rank }
    | none => .ok { part := some word, rank := Level.trace.rank }
  | [part, word] =>
    let part := String.ofList part
    let word := String.ofList (trim word)
    match word, rankOfWord? word with
    | "", _ => .ok { part := some part, rank := Level.trace.rank }
    | _, some rank => .ok { part := some part, rank := rank }
    | _, none => .error (.unreadable word)
  | _ => .error (.unreadable (String.ofList text))

/-- Puts a directive in, in place of an earlier one for the same part. -/
def insert (directives : List Directive) (directive : Directive) : List Directive :=
  if directives.any fun known => known.part == directive.part then
    directives.map fun known => if known.part == directive.part then directive else known
  else
    directives ++ [directive]

def directivesOf (text : List Char) : List Directive × List Complaint :=
  let pieces := ((Text.pieces ',' text).map trim).filter fun piece => !piece.isEmpty
  let readings := pieces.map directive
  (readings.foldl
      (fun directives reading =>
        match reading with
        | .ok directive => insert directives directive
        | .error _ => directives)
      [],
    readings.filterMap fun reading =>
      match reading with
      | .ok _ => none
      | .error complaint => some complaint)

def patternOf : Option (List Char) → Option Pattern × List Complaint
  | none => (none, [])
  | some text =>
    match Pattern.ofText (String.ofList text) with
    | .ok pattern => (some pattern, [])
    | .error reason => (none, [.refusedPattern reason])

/-- The directives of a filter. Without any, only errors are shown. -/
def orErrors : List Directive → List Directive
  | [] => [{ part := none, rank := Level.error.rank }]
  | directives => directives

/-- Reads a filter: directives, and a pattern after a slash. -/
def ofText (text : String) : Filter × List Complaint :=
  let read (directives : List Char) (pattern : Option (List Char)) : Filter × List Complaint :=
    let (directives, unread) := directivesOf directives
    let (pattern, refused) := patternOf pattern
    ({ directives := orErrors directives, pattern := pattern }, unread ++ refused)
  match Text.pieces '/' text.toList with
  | [directives] => read directives none
  | [directives, pattern] => read directives (some pattern)
  | _ => ({ directives := orErrors [] }, [.severalPatterns text])

def applies (part : String) (directive : Directive) : Bool :=
  match directive.part with
  | none => true
  | some front => front.toList.isPrefixOf part.toList

def specificity (directive : Directive) : Nat :=
  match directive.part with
  | none => 0
  | some front => front.utf8ByteSize

/-- The most specific of the directives; of equals, the last. -/
def mostSpecific? (directives : List Directive) : Option Directive :=
  directives.foldl
    (fun best directive =>
      match best with
      | none => some directive
      | some known => if specificity known ≤ specificity directive then some directive else best)
    none

def allows (filter : Filter) (part : String) (level : Level) : Bool :=
  match mostSpecific? (filter.directives.filter (applies part)) with
  | some directive => level.rank ≤ directive.rank
  | none => false

end Filter

structure Entry where
  level : Level
  part : String
  message : String
  deriving DecidableEq, Repr

def Filter.shows (filter : Filter) (entry : Entry) : Bool :=
  filter.allows entry.part entry.level && filter.pattern.all fun pattern =>
    pattern.isIn entry.message

namespace Entry

open Terminal (Piece)

def bracket (text : String) : Piece :=
  { text := text, effects := ["90"] }

def indented (message : String) : String :=
  String.ofList (message.toList.flatMap fun c =>
    if c = '\n' then ['\n', ' ', ' ', ' ', ' '] else [c])

def pieces (entry : Entry) : List Piece :=
  let title := entry.level.title
  let filling := String.ofList (List.replicate (5 - title.length) ' ')
  [bracket "[", { text := title ++ filling, effects := entry.level.effects },
   .bare (" " ++ entry.part), bracket "]", .bare (" " ++ indented entry.message ++ "\n")]

/-- The entry as a line. Without colours all control sequences are taken out, also those that are in
the message. -/
def line (entry : Entry) (color : Bool) : String :=
  if color then Terminal.render true entry.pieces
  else Terminal.strip (Terminal.render false entry.pieces)

def ofNote : Note → Entry
  | .token located =>
    { level := .trace
      part := "teenytiny::lexer"
      message := "token " ++ located.kind.title ++ " " ++ Text.quoted located.token.text ++ " at " ++
        toString located.span.start ++ ".." ++ toString located.span.stop }
  | .statement line kind =>
    { level := .debug
      part := "teenytiny::parser::statements"
      message := "line " ++ toString line ++ ": " ++ kind.title ++ " statement" }
  | .newVariable name =>
    { level := .debug
      part := "teenytiny::parser::statements"
      message := "declared variable " ++ name }
  | .newLabel name =>
    { level := .debug
      part := "teenytiny::parser::statements"
      message := "declared label " ++ name }

end Entry

end TeenyBasic.Log
