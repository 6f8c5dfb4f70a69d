import TeenyBasic.Pattern.Fault

/-!
Patterns as they are written: what they are made of, before their flags are taken into account.
-/

set_option autoImplicit false

namespace TeenyBasic.Pattern

inductive Mode where
  | ignoreCase
  | manyLines
  | dotAll
  | lazyFirst
  | unicode
  | carriageReturn
  | ignoreBlanks
  deriving DecidableEq, Repr

def Mode.ofLetter? : Char → Option Mode
  | 'i' => some ignoreCase
  | 'm' => some manyLines
  | 's' => some dotAll
  | 'U' => some lazyFirst
  | 'u' => some unicode
  | 'R' => some carriageReturn
  | 'x' => some ignoreBlanks
  | _ => none

abbrev Switches := List (Mode × Bool)

def Switches.get? (switches : Switches) (mode : Mode) : Option Bool :=
  (switches.find? fun entry => entry.1 == mode).map Prod.snd

inductive NamedSet where
  | alnum | alpha | ascii | blank | cntrl | digit | graph | lower | print | punct | space | upper
  | word | xdigit
  deriving DecidableEq, Repr

def NamedSet.ofName? : String → Option NamedSet
  | "alnum" => some alnum
  | "alpha" => some alpha
  | "ascii" => some ascii
  | "blank" => some blank
  | "cntrl" => some cntrl
  | "digit" => some digit
  | "graph" => some graph
  | "lower" => some lower
  | "print" => some print
  | "punct" => some punct
  | "space" => some space
  | "upper" => some upper
  | "word" => some word
  | "xdigit" => some xdigit
  | _ => none

structure Literal where
  char : Char
  /-- Whether it was given as a byte, by two digits. -/
  isByte : Bool := false
  stretch : Stretch
  deriving DecidableEq, Repr

inductive SetOperation where
  | intersection | difference | symmetricDifference
  deriving DecidableEq, Repr

inductive SetTree where
  | empty
  | literal (literal : Literal)
  | range (low high : Literal)
  | named (set : NamedSet) (negated : Bool) (stretch : Stretch)
  /-- A set with a letter of its own, such as the digits. -/
  | lettered (set : NamedSet) (negated : Bool) (stretch : Stretch)
  | property (name : String) (stretch : Stretch)
  | bracket (negated : Bool) (inner : SetTree) (stretch : Stretch)
  | union (first second : SetTree)
  | combine (operation : SetOperation) (first second : SetTree)
      (firstStretch secondStretch : Stretch)
  deriving DecidableEq, Repr

inductive Condition where
  | lineStart
  | lineEnd
  | textStart
  | textEnd
  | wordBoundary
  | noWordBoundary
  | wordStart
  | wordEnd
  | wordStartHalf
  | wordEndHalf
  deriving DecidableEq, Repr

inductive Tree where
  | empty
  /-- Switches modes for the rest of the group. -/
  | switch (switches : Switches)
  | literal (literal : Literal)
  | anyCharacter (stretch : Stretch)
  | condition (condition : Condition)
  | set (set : SetTree)
  | repeated (tree : Tree) (least : Nat) (most : Option Nat)
  | group (switches : Switches) (tree : Tree)
  | sequence (first second : Tree)
  | either (first second : Tree)
  deriving DecidableEq, Repr

namespace Tree

def isRepeatable : Tree → Bool
  | empty => false
  | switch _ => false
  | _ => true

def ofSequence : List Tree → Tree
  | [] => empty
  | [tree] => tree
  | tree :: others => sequence tree (ofSequence others)

def ofChoice : List Tree → Tree
  | [] => empty
  | [tree] => tree
  | tree :: others => either tree (ofChoice others)

end Tree

end TeenyBasic.Pattern
