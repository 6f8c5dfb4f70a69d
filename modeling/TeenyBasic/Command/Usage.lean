import TeenyBasic.Command.Flag
import TeenyBasic.Terminal.Piece
import TeenyBasic.Terminal.Strip
import TeenyBasic.Text.Similarity

/-!
What can be wrong with the arguments of the command line, and what is said about it.
-/

set_option autoImplicit false

namespace TeenyBasic.Command

open Terminal (Piece)

inductive Emphasis where
  | error
  | invalid
  | valid
  | literal
  | heading
  deriving DecidableEq, Repr

def Emphasis.effects : Emphasis → List String
  | error => ["1", "31"]
  | invalid => ["33"]
  | valid => ["32"]
  | literal => ["1"]
  | heading => ["1", "4"]

def Emphasis.piece (emphasis : Emphasis) (text : String) : Piece :=
  { text := text, effects := emphasis.effects }

def usageTitle : List Piece :=
  [Emphasis.heading.piece "Usage:", .bare " ", Emphasis.literal.piece commandName]

def usageFlag (flag : Flag) : List Piece :=
  [.bare " ", Emphasis.literal.piece flag.dashed, .bare flag.valueDisplay]

def generalUsage : List Piece :=
  usageTitle ++ [.bare (" [OPTIONS] " ++ Item.source.display)]

def usageWith (flags : List Flag) : List Piece :=
  usageTitle ++ flags.eraseDups.flatMap usageFlag ++ [.bare (" " ++ Item.source.display)]

/-- The line that shows how the command is used with one of the working items, after a flag that is
none of them. -/
def usageWithAny (flag : Flag) : List Piece :=
  let name (item : Item) : String :=
    match item with
    | .source => "SOURCE"
    | .flag named => named.display
  usageTitle ++ (if flag.asks then usageFlag flag else []) ++
    [.bare (" <" ++ "|".intercalate (Item.working.map name) ++ ">")]

inductive UsageError where
  /-- There is no source file; the flags that are there. -/
  | missingSource (given : List Flag)
  | extraFile (argument : String)
  | unknownLetter (letter : Char)
  /-- A flag that does not exist, by its long name; the items before it. -/
  | unknownName (name : String) (given : List Item)
  | missingValue (item : Item)
  /-- A value for a flag that takes none, and whether there are items before it. -/
  | extraValue (value : String) (flag : Flag) (afterOthers : Bool)
  | repeated (item : Item)
  deriving DecidableEq, Repr

namespace UsageError

def meant? : UsageError → Option Flag
  | unknownName name _ => Text.mostSimilar? Flag.longName name Flag.all
  | _ => none

def message : UsageError → List Piece
  | missingSource _ =>
    [.bare "the following required arguments were not provided:\n  ",
     Emphasis.valid.piece Item.source.display]
  | extraFile argument =>
    [.bare "unexpected argument '", Emphasis.invalid.piece argument, .bare "' found"]
  | unknownLetter letter =>
    [.bare "unexpected argument '", Emphasis.invalid.piece ("-" ++ letter.toString), .bare "' found"]
  | unknownName name _ =>
    [.bare "unexpected argument '", Emphasis.invalid.piece ("--" ++ name), .bare "' found"]
  | missingValue item =>
    [.bare "a value is required for '", Emphasis.invalid.piece item.display,
     .bare "' but none was supplied"]
  | extraValue value flag _ =>
    [.bare "unexpected value '", Emphasis.invalid.piece value, .bare "' for '",
     Emphasis.literal.piece flag.display, .bare "' found; no more were expected"]
  | repeated item =>
    [.bare "the argument '", Emphasis.invalid.piece item.display,
     .bare "' cannot be used multiple times"]

def tipTitle : List Piece :=
  [.bare "  ", Emphasis.valid.piece "tip:", .bare " "]

/-- How to pass something that looks like a flag. -/
def valueTip (argument : String) : List Piece :=
  tipTitle ++
    [.bare "to pass '", Emphasis.invalid.piece argument, .bare "' as a value, use '",
     Emphasis.valid.piece ("-- " ++ argument), .bare "'"]

def meantTip (flag : Flag) : List Piece :=
  tipTitle ++
    [.bare "a similar argument exists: '", Emphasis.valid.piece flag.dashed, .bare "'"]

def tip? (error : UsageError) : Option (List Piece) :=
  match error, error.meant? with
  | _, some flag => some (meantTip flag)
  | unknownLetter letter, none => some (valueTip ("-" ++ letter.toString))
  | unknownName name _, none => some (valueTip ("--" ++ name))
  | _, none => none

def flagsOf (items : List Item) : List Flag :=
  items.filterMap fun
    | .source => none
    | .flag flag => some flag

def usage? (error : UsageError) : Option (List Piece) :=
  match error with
  | missingSource given => some (usageWith given)
  | extraFile _ => some generalUsage
  | unknownLetter _ => some generalUsage
  | unknownName _ given =>
    match given, error.meant? with
    | [], none => some generalUsage
    | _, meant => some (usageWith (flagsOf given ++ meant.toList))
  | missingValue _ => none
  | extraValue _ flag afterOthers =>
    some (if afterOthers then usageWithAny flag else usageWith [flag])
  | repeated _ => some generalUsage

def closing : List Piece :=
  [.bare "For more information, try '", Emphasis.literal.piece "--help", .bare "'.\n"]

def paragraphs (error : UsageError) : List (List Piece) :=
  [[Emphasis.error.piece "error:", .bare " "] ++ error.message] ++ error.tip?.toList ++
    error.usage?.toList ++ [closing]

/-- The whole text. Without colours all control sequences are taken out, also those that come from
the arguments. -/
def text (error : UsageError) (color : Bool) : String :=
  let painted := Terminal.render true ([Piece.bare "\n\n"].intercalate error.paragraphs)
  if color then painted else Terminal.strip painted

end UsageError

end TeenyBasic.Command
