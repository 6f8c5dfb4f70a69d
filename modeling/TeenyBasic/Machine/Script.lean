/-!
Shell scripts, as far as programs of the machine are written in them: simple commands with quoted
words, parameters and redirections, one after the other or linked by success and failure.
-/

set_option autoImplicit false

namespace TeenyBasic.Machine.Script

/-- A part of a word. Quoted parts are never split. -/
inductive Piece where
  | text (chars : List Char) (quoted : Bool)
  | parameter (name : String) (quoted : Bool)
  deriving DecidableEq, Repr

abbrev Word := List Piece

inductive Redirection where
  | overwrite (descriptor : Nat) (file : Word)
  | extend (descriptor : Nat) (file : Word)
  | input (file : Word)
  | same (descriptor source : Nat)
  deriving DecidableEq, Repr

/-- When a command runs, by how the one before it ended. -/
inductive Link where
  | always | onSuccess | onFailure
  deriving DecidableEq, Repr

structure Command where
  link : Link := .always
  words : List Word := []
  redirections : List Redirection := []
  deriving DecidableEq, Repr

/-- What a script is made of before it is cut into commands. -/
inductive Item where
  | word (word : Word)
  | link (link : Link)
  | overwrite (descriptor : Nat)
  | extend (descriptor : Nat)
  | input
  | same (descriptor source : Nat)
  deriving DecidableEq, Repr

inductive Mode where
  | plain
  | comment
  | singleQuoted
  | doubleQuoted
  | escape (quoted : Bool)
  | dollar (quoted : Bool)
  /-- Inside the name of a parameter; its characters backwards. -/
  | name (chars : List Char) (braced quoted : Bool)
  /-- After the first characters of an operator, backwards; the stream it is about. -/
  | operator (chars : List Char) (descriptor : Nat)
  deriving DecidableEq, Repr

structure Reading where
  /-- The items, backwards. -/
  items : List Item := []
  /-- The word being read, backwards, if one has been started. -/
  word : Option Word := none
  mode : Mode := .plain
  deriving DecidableEq, Repr

namespace Reading

def addPiece (reading : Reading) (piece : Piece) : Reading :=
  { reading with word := some (piece :: reading.word.getD []) }

def addChar (reading : Reading) (c : Char) (quoted : Bool) : Reading :=
  match reading.word with
  | some (.text chars known :: others) =>
    if known = quoted then
      { reading with word := some (.text (chars ++ [c]) quoted :: others) }
    else
      reading.addPiece (.text [c] quoted)
  | _ => reading.addPiece (.text [c] quoted)

def endWord (reading : Reading) : Reading :=
  match reading.word with
  | some pieces => { reading with items := .word pieces.reverse :: reading.items, word := none }
  | none => reading

def addItem (reading : Reading) (item : Item) : Reading :=
  { reading.endWord with items := item :: reading.endWord.items, mode := .plain }

/-- The stream named by the word being read, if an operator follows a lone digit. -/
def descriptor? (reading : Reading) : Option Nat :=
  match reading.word with
  | some [.text [digit] false] => if digit.isDigit then some (digit.toNat - '0'.toNat) else none
  | _ => none

/-- Starts a redirection; the digit before it names the stream. -/
def startRedirection (reading : Reading) (c : Char) (usual : Nat) : Reading :=
  match reading.descriptor? with
  | some descriptor => { reading with word := none, mode := .operator [c] descriptor }
  | none => { reading.endWord with mode := .operator [c] usual }

def addPlain (reading : Reading) (c : Char) : Reading :=
  let reading := { reading with mode := .plain }
  match c with
  | ' ' => reading.endWord
  | '\t' => reading.endWord
  | '\n' => reading.addItem (.link .always)
  | ';' => reading.addItem (.link .always)
  | '\'' => { reading.addPiece (.text [] true) with mode := .singleQuoted }
  | '"' => { reading.addPiece (.text [] true) with mode := .doubleQuoted }
  | '\\' => { reading with mode := .escape false }
  | '$' => { reading with mode := .dollar false }
  | '>' => reading.startRedirection c 1
  | '<' => reading.startRedirection c 0
  | '&' => { reading.endWord with mode := .operator [c] 1 }
  | '|' => { reading.endWord with mode := .operator [c] 1 }
  | '#' =>
    if reading.word.isNone then { reading with mode := .comment } else reading.addChar c false
  | c => reading.addChar c false

def addDoubleQuoted (reading : Reading) (c : Char) : Reading :=
  let reading := { reading with mode := .doubleQuoted }
  match c with
  | '"' => { reading with mode := .plain }
  | '\\' => { reading with mode := .escape true }
  | '$' => { reading with mode := .dollar true }
  | c => reading.addChar c true

def addText (reading : Reading) (c : Char) (quoted : Bool) : Reading :=
  if quoted then reading.addDoubleQuoted c else reading.addPlain c

def resume (reading : Reading) (quoted : Bool) : Reading :=
  { reading with mode := if quoted then .doubleQuoted else .plain }

def isNameChar (c : Char) : Bool :=
  c.isAlphanum || c = '_'

def addDollar (reading : Reading) (c : Char) (quoted : Bool) : Reading :=
  if c.isAlpha || c = '_' then { reading with mode := .name [c] false quoted }
  else if c = '\x7b' then { reading with mode := .name [] true quoted }
  else if c.isDigit || ['@', '*', '#', '?', '$'].contains c then
    (reading.addPiece (.parameter c.toString quoted)).resume quoted
  else (reading.addChar '$' quoted).addText c quoted

def addName (reading : Reading) (chars : List Char) (braced quoted : Bool) (c : Char) : Reading :=
  let named := reading.addPiece (.parameter (String.ofList chars.reverse) quoted)
  if braced then
    if c = '\x7d' then named.resume quoted
    else { reading with mode := .name (c :: chars) braced quoted }
  else if isNameChar c then { reading with mode := .name (c :: chars) braced quoted }
  else named.addText c quoted

/-- Takes a character after a backslash. Between double quotes the backslash stays, unless it takes
away a meaning. -/
def addEscaped (reading : Reading) (c : Char) (quoted : Bool) : Reading :=
  if c = '\n' then reading.resume quoted
  else if quoted && !(['"', '\\', '$', '\x60'].contains c) then
    ((reading.addChar '\\' quoted).addChar c quoted).resume quoted
  else (reading.addChar c true).resume quoted

def addOperator (reading : Reading) (chars : List Char) (descriptor : Nat) (c : Char) : Reading :=
  match chars, c with
  | ['>'], '>' => reading.addItem (.extend descriptor)
  | ['>'], '&' => { reading with mode := .operator ['&', '>'] descriptor }
  | ['>'], c => (reading.addItem (.overwrite descriptor)).addPlain c
  | ['&', '>'], c =>
    reading.addItem (.same descriptor (c.toNat - '0'.toNat))
  | ['<'], c => (reading.addItem .input).addPlain c
  | ['&'], '&' => reading.addItem (.link .onSuccess)
  | ['|'], '|' => reading.addItem (.link .onFailure)
  | _, c => (reading.addItem (.link .always)).addPlain c

def add (reading : Reading) (c : Char) : Reading :=
  match reading.mode with
  | .plain => reading.addPlain c
  | .comment => if c = '\n' then reading.addPlain c else reading
  | .singleQuoted =>
    if c = '\'' then { reading with mode := .plain } else reading.addChar c true
  | .doubleQuoted => reading.addDoubleQuoted c
  | .escape quoted => reading.addEscaped c quoted
  | .dollar quoted => reading.addDollar c quoted
  | .name chars braced quoted => reading.addName chars braced quoted c
  | .operator chars descriptor => reading.addOperator chars descriptor c

end Reading

def items (text : List Char) : List Item :=
  ((text ++ ['\n']).foldl Reading.add {}).items.reverse

/-- The commands of a script, given by its items; `command` is the one being put together. -/
def commandsOf (command : Command) : List Item → List Command
  | [] => [command]
  | .word word :: rest => commandsOf { command with words := command.words ++ [word] } rest
  | .link link :: rest => command :: commandsOf { link := link } rest
  | .overwrite descriptor :: .word file :: rest =>
    commandsOf
      { command with redirections := command.redirections ++ [.overwrite descriptor file] } rest
  | .extend descriptor :: .word file :: rest =>
    commandsOf
      { command with redirections := command.redirections ++ [.extend descriptor file] } rest
  | .input :: .word file :: rest =>
    commandsOf { command with redirections := command.redirections ++ [.input file] } rest
  | .same descriptor source :: rest =>
    commandsOf
      { command with redirections := command.redirections ++ [.same descriptor source] } rest
  | _ :: rest => commandsOf command rest

def commands (text : List Char) : List Command :=
  (commandsOf {} (items text)).filter fun command =>
    !(command.words.isEmpty && command.redirections.isEmpty)

end TeenyBasic.Machine.Script
