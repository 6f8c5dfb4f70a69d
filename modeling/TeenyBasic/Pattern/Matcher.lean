import TeenyBasic.Pattern.CharSet

/-!
Matching. A pattern takes the places of a text from which it starts to the places it can lead to; it
matches a text if it leads anywhere at all.
-/

set_option autoImplicit false

namespace TeenyBasic.Pattern

/-- What a matcher can ask of a place, by the characters beside it. -/
inductive Demand where
  | textStart
  | textEnd
  | lineStart
  | lineEnd
  /-- As `lineStart`, where a line may also end in a carriage return. -/
  | lineStartReturn
  /-- As `lineEnd`, where a line may also end in a carriage return. -/
  | lineEndReturn
  | wordBoundary
  | noWordBoundary
  | wordStart
  | wordEnd
  | wordStartHalf
  | wordEndHalf
  deriving DecidableEq, Repr

def isWordSide (side : Option Char) : Bool :=
  side.any fun c => NamedSet.word.has c.toNat

def Demand.holds (demand : Demand) (before after : Option Char) : Bool :=
  match demand with
  | textStart => before.isNone
  | textEnd => after.isNone
  | lineStart => before.all (· == '\n')
  | lineEnd => after.all (· == '\n')
  | lineStartReturn =>
    before.all fun c => c == '\n' || (c == '\r' && after != some '\n')
  | lineEndReturn =>
    after.all fun c => c == '\r' || (c == '\n' && before != some '\r')
  | wordBoundary => isWordSide before != isWordSide after
  | noWordBoundary => isWordSide before == isWordSide after
  | wordStart => !isWordSide before && isWordSide after
  | wordEnd => isWordSide before && !isWordSide after
  | wordStartHalf => !isWordSide before
  | wordEndHalf => !isWordSide after

inductive Matcher where
  | empty
  | one (set : CharSet)
  /-- A demand on a place; `wide` tells whether all letters belong to words. -/
  | place (demand : Demand) (wide : Bool)
  | repeated (matcher : Matcher) (least : Nat) (most : Option Nat)
  | sequence (first second : Matcher)
  | either (first second : Matcher)
  deriving DecidableEq, Repr

/-- The places of a text, from the one before its first character on, each marked or not. -/
abbrev Marks := List Bool

namespace Marks

def isAny (marks : Marks) : Bool :=
  marks.any id

def union (first second : Marks) : Marks :=
  List.zipWith or first second

/-- Goes so many steps, as long as a place is left. -/
def steps (step : Marks → Marks) : Nat → Marks → Marks
  | 0, marks => marks
  | count + 1, marks => if marks.isAny then steps step count (step marks) else marks

/-- Goes at most so many steps, and keeps the places passed through, until there are no new ones. -/
def spread (step : Marks → Marks) : Nat → Marks → Marks
  | 0, marks => marks
  | count + 1, marks =>
    let wider := marks.union (step marks)
    if wider = marks then marks else spread step count wider

end Marks

namespace Matcher

def sides (text : List Char) : List (Option Char × Option Char) :=
  (none :: text.map some).zip (text.map some ++ [none])

def stepOver (set : CharSet) (text : List Char) (marks : Marks) : Marks :=
  false :: List.zipWith (fun marked c => marked && set.has c.toNat) marks text

/-- The places that the matcher leads to from the marked ones. No repetition leads to more places
than a text has, so that bounds its rounds. -/
def reach (text : List Char) : Matcher → Marks → Marks
  | empty, marks => marks
  | one set, marks => stepOver set text marks
  | place demand _, marks =>
    List.zipWith (fun marked (before, after) => marked && demand.holds before after) marks
      (sides text)
  | repeated matcher least most, marks =>
    let further := match most with
      | some most => min (most - least) (text.length + 1)
      | none => text.length + 1
    Marks.spread (reach text matcher) further (Marks.steps (reach text matcher) least marks)
  | sequence first second, marks =>
    let between := reach text first marks
    if between.isAny then reach text second between else between
  | either first second, marks => (reach text first marks).union (reach text second marks)

def isMatch (matcher : Matcher) (text : String) : Bool :=
  let characters := text.toList
  (reach characters matcher (List.replicate (characters.length + 1) true)).isAny

/-- Whether the matcher asks for words of all letters anywhere it can get to. -/
def needsWideWords : Matcher → Bool
  | empty => false
  | one _ => false
  | place demand wide =>
    wide &&
      match demand with
      | .wordBoundary | .noWordBoundary | .wordStart | .wordEnd | .wordStartHalf | .wordEndHalf =>
        true
      | _ => false
  | repeated matcher _ most => most != some 0 && matcher.needsWideWords
  | sequence first second => first.needsWideWords || second.needsWideWords
  | either first second => first.needsWideWords || second.needsWideWords

/-- About how many states an automaton for the matcher has. -/
def size : Matcher → Nat
  | empty => 1
  | one _ => 1
  | place _ _ => 1
  | repeated matcher least most =>
    match most with
    | some most => matcher.size * most + (most - least)
    | none => matcher.size * max least 1 + 1
  | sequence first second => first.size + second.size
  | either first second => first.size + second.size + 1

def sizeLimit : Nat := 10485760 / 32

end Matcher

end TeenyBasic.Pattern
