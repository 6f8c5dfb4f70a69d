import TeenyBasic.Pattern.Tree
import TeenyBasic.Text.Blank

/-!
Reading patterns. A pattern is read from left to right; the first fault found ends the reading. Loops
are bounded by the length of what is left to read, since every round reads at least one character.
-/

set_option autoImplicit false

namespace TeenyBasic.Pattern

structure Cursor where
  rest : List Char
  place : Place := {}
  ignoreBlanks : Bool := false
  /-- The names of groups, and where they were given. -/
  names : List (String × Stretch) := []
  deriving DecidableEq, Repr

abbrev Read := EStateM FaultAt Cursor

namespace Read

def refuse {α : Type} (fault : Fault) (stretch : Stretch) (earlier : Option Stretch) : Read α :=
  throw { fault := fault, stretch := stretch, earlier := earlier }

def fail {α : Type} (fault : Fault) (stretch : Stretch) : Read α :=
  refuse fault stretch none

def place : Read Place :=
  return (← get).place

def next? : Read (Option Char) :=
  return (← get).rest.head?

def second? : Read (Option Char) :=
  return (← get).rest[1]?

def atEnd : Read Bool :=
  return (← get).rest.isEmpty

def rounds : Read Nat :=
  return (← get).rest.length + 1

def here : Read Stretch :=
  return .point (← place)

def stretchFrom (start : Place) : Read Stretch :=
  return { start := start, stop := ← place }

def nextStretch : Read Stretch := do
  let start ← place
  match ← next? with
  | some c => return { start := start, stop := start.after c }
  | none => return .point start

def skip (count : Nat) : Read Unit :=
  modify fun cursor =>
    { cursor with
      rest := cursor.rest.drop count
      place := (cursor.rest.take count).foldl Place.after cursor.place }

/-- Passes over one character, and tells whether there is another one. -/
def bump : Read Bool := do
  skip 1
  return !(← atEnd)

/-- How many characters blanks and comments take up; a comment goes on to the end of its line. -/
def blankLength (inComment : Bool) : List Char → Nat
  | [] => 0
  | c :: rest =>
    if inComment then blankLength (c != '\n') rest + 1
    else if Text.isBlank c then blankLength false rest + 1
    else if c = '#' then blankLength true rest + 1
    else 0

def skipBlanks : Read Unit := do
  let cursor ← get
  if cursor.ignoreBlanks then skip (blankLength false cursor.rest)

/-- Passes over one character and the blanks after it, and tells whether there is another one. -/
def bumpOver : Read Bool := do
  skip 1
  skipBlanks
  return !(← atEnd)

def secondOver? : Read (Option Char) := do
  let cursor ← get
  let rest := cursor.rest.drop 1
  return (if cursor.ignoreBlanks then rest.drop (blankLength false rest) else rest).head?

def bumpIf (expected : String) : Read Bool := do
  if expected.toList.isPrefixOf (← get).rest then
    skip expected.length
    return true
  else
    return false

/-- Reads characters of a kind, and the blanks after each of them, at most so many. -/
def many (kind : Char → Bool) : Nat → Read (List Char)
  | 0 => return []
  | rounds + 1 => do
    match ← next? with
    | some c =>
      if kind c then
        let _ ← bumpOver
        return c :: (← many kind rounds)
      else
        return []
    | none => return []

def numberOf (base : Nat) (digits : List Char) : Nat :=
  digits.foldl (fun value c =>
    let digit :=
      if c.isDigit then c.toNat - '0'.toNat
      else c.toLower.toNat - 'a'.toNat + 10
    value * base + digit) 0

/-- Passes over blanks, also where they are not ignored. -/
def skipAllBlanks : Read Unit := do
  let cursor ← get
  skip (cursor.rest.takeWhile Text.isBlank).length

/-- Reads a decimal number. What is wrong with it is given as a value, since it may turn out not to
matter. -/
def decimal : Read (Except FaultAt Nat) := do
  skipAllBlanks
  let start ← place
  let digits ← many Char.isDigit (← rounds)
  let stretch ← stretchFrom start
  let _ ← many Text.isBlank (← rounds)
  if digits.isEmpty then
    return .error { fault := .emptyCount, stretch := stretch }
  else if numberOf 10 digits < UInt32.size then
    return .ok (numberOf 10 digits)
  else
    return .error { fault := .hugeNumber, stretch := stretch }

def require {α : Type} : Except FaultAt α → Read α
  | .ok value => return value
  | .error fault => throw fault

def isHexDigit (c : Char) : Bool :=
  c.isDigit || ('a' ≤ c && c ≤ 'f') || ('A' ≤ c && c ≤ 'F')

def charOfCode (digits : List Char) (stretch : Stretch) : Read Char :=
  let code := numberOf 16 digits
  if code.isValidChar then return Char.ofNat code
  else fail .noCharacter stretch

/-- Reads so many hexadecimal digits; `first` tells whether none has been read yet. -/
def hexDigits (first : Bool) : Nat → Read (List Char)
  | 0 => return []
  | count + 1 => do
    if !first then
      if !(← bumpOver) then
        fail .cutEscape (← here)
    match ← next? with
    | some c =>
      if isHexDigit c then
        return c :: (← hexDigits false count)
      else
        fail .noHexDigit (← nextStretch)
    | none => fail .cutEscape (← here)

def hexUpToBrace : Nat → Read (List Char)
  | 0 => return []
  | rounds + 1 => do
    if ← bumpOver then
      match ← next? with
      | some c =>
        if c = '}' then return []
        else if isHexDigit c then return c :: (← hexUpToBrace rounds)
        else fail .noHexDigit (← nextStretch)
      | none => return []
    else
      return []

def bracedCode : Read Char := do
  let brace ← place
  let start := (← nextStretch).stop
  let digits ← hexUpToBrace (← rounds)
  if ← atEnd then
    fail .cutEscape (← stretchFrom brace)
  let stop ← place
  let _ ← bumpOver
  if digits.isEmpty then
    fail .emptyCode (← stretchFrom brace)
  charOfCode digits { start := start, stop := stop }

/-- Reads a character given by its code, after the letter that says how long it is. -/
def codeCharacter (start : Place) (letter : Char) : Read Literal := do
  if !(← bumpOver) then
    fail .cutEscape (← here)
  if (← next?) = some '{' then
    let c ← bracedCode
    return { char := c, stretch := ← stretchFrom start }
  else
    let length := if letter = 'x' then 2 else if letter = 'u' then 4 else 8
    let first ← place
    let digits ← hexDigits true length
    let _ ← bumpOver
    let c ← charOfCode digits (← stretchFrom first)
    return { char := c, isByte := letter = 'x', stretch := ← stretchFrom start }

def upToBrace : Nat → Read (List Char)
  | 0 => return []
  | rounds + 1 => do
    if ← bumpOver then
      match ← next? with
      | some c => if c = '}' then return [] else return c :: (← upToBrace rounds)
      | none => return []
    else
      return []

def property (start : Place) : Read SetTree := do
  if !(← bumpOver) then
    fail .cutEscape (← here)
  match ← next? with
  | some '{' =>
    let name ← upToBrace (← rounds)
    if ← atEnd then
      fail .cutEscape (← here)
    let _ ← bump
    return .property (String.ofList name) (← stretchFrom start)
  | some '\\' => fail .noProperty (← nextStretch)
  | some c =>
    let _ ← bumpOver
    return .property c.toString (← stretchFrom start)
  | none => fail .cutEscape (← here)

/-- What an escape sequence or a single character can stand for. -/
inductive Primitive where
  | literal (literal : Literal)
  | set (set : SetTree) (stretch : Stretch)
  | anyCharacter (stretch : Stretch)
  | condition (condition : Condition) (stretch : Stretch)
  deriving DecidableEq, Repr

namespace Primitive

def stretch : Primitive → Stretch
  | .literal character => character.stretch
  | .set _ stretch => stretch
  | .anyCharacter stretch => stretch
  | .condition _ stretch => stretch

def tree : Primitive → Tree
  | .literal character => .literal character
  | .set members _ => .set members
  | .anyCharacter stretch => .anyCharacter stretch
  | .condition demand _ => .condition demand

def member : Primitive → Except FaultAt SetTree
  | .literal character => .ok (.literal character)
  | .set members _ => .ok members
  | other => .error { fault := .escapeInSet, stretch := other.stretch }

def bound : Primitive → Except FaultAt Literal
  | .literal character => .ok character
  | other => .error { fault := .boundNotCharacter, stretch := other.stretch }

end Primitive

/-- Whether a character stands for itself after a backslash. -/
def isEscapable (c : Char) : Bool :=
  c.toNat < 0x80 && !c.isAlphanum && c != '<' && c != '>'

def escaped? : Char → Option Char
  | 'a' => some '\x07'
  | 'f' => some '\x0c'
  | 't' => some '\t'
  | 'n' => some '\n'
  | 'r' => some '\r'
  | 'v' => some '\x0b'
  | _ => none

def condition? : Char → Option Condition
  | 'A' => some .textStart
  | 'z' => some .textEnd
  | 'b' => some .wordBoundary
  | 'B' => some .noWordBoundary
  | '<' => some .wordStart
  | '>' => some .wordEnd
  | _ => none

def lettered? (c : Char) : Option NamedSet :=
  match c.toLower with
  | 'd' => some .digit
  | 's' => some .space
  | 'w' => some .word
  | _ => none

def bracedCondition? : String → Option Condition
  | "start" => some .wordStart
  | "end" => some .wordEnd
  | "start-half" => some .wordStartHalf
  | "end-half" => some .wordEndHalf
  | _ => none

/-- Reads what stands in braces after a word boundary, unless that is a count. -/
def bracedCondition (start : Place) : Read (Option Condition) := do
  let before ← get
  if !(← bumpOver) then
    fail .openBoundaryOrCount (← stretchFrom start)
  let contents ← place
  let isPart (c : Char) : Bool := c.isAlpha || c = '-'
  match ← next? with
  | some c =>
    if isPart c then
      let word ← many isPart (← rounds)
      if (← next?) ≠ some '}' then
        fail .openBoundary (← stretchFrom before.place)
      let stretch ← stretchFrom contents
      let _ ← bump
      match bracedCondition? (String.ofList word) with
      | some condition => return some condition
      | none => fail .unknownBoundary stretch
    else
      set before
      return none
  | none => return none

def simpleEscape (start : Place) (c : Char) : Read Primitive := do
  let stretch ← stretchFrom start
  if isEscapable c then
    return .literal { char := c, stretch := stretch }
  match escaped? c, condition? c with
  | some char, _ => return .literal { char := char, stretch := stretch }
  | none, some condition =>
    if c = 'b' ∧ (← next?) = some '{' then
      match ← bracedCondition start with
      | some braced => return .condition braced (← stretchFrom start)
      | none => return .condition condition stretch
    else
      return .condition condition stretch
  | none, none => fail .unknownEscape stretch

def escape : Read Primitive := do
  let start ← place
  if !(← bump) then
    fail .cutEscape (← stretchFrom start)
  match ← next? with
  | none => fail .cutEscape (← stretchFrom start)
  | some c =>
    if c.isDigit then
      fail .backreference { start := start, stop := (← nextStretch).stop }
    else if c = 'x' || c = 'u' || c = 'U' then
      return .literal (← codeCharacter start c)
    else if c = 'p' || c = 'P' then
      let set ← property start
      return .set set (← stretchFrom start)
    else
      let _ ← bump
      match lettered? c with
      | some set =>
        let stretch ← stretchFrom start
        return .set (.lettered set c.isUpper stretch) stretch
      | none => simpleEscape start c

/-- Reads one thing that is neither a group nor a set in brackets. -/
def primitive : Read Primitive := do
  let stretch ← nextStretch
  match ← next? with
  | some '\\' => escape
  | some c =>
    let _ ← bump
    match c with
    | '.' => return .anyCharacter stretch
    | '^' => return .condition .lineStart stretch
    | '$' => return .condition .lineEnd stretch
    | _ => return .literal { char := c, stretch := stretch }
  | none => fail .cutEscape stretch

/-- Members of a set with their places, the last one first. -/
abbrev Members := List (SetTree × Stretch)

def unionOf (empty : Stretch) : Members → SetTree × Stretch
  | [] => (.empty, empty)
  | [(set, stretch)] => (set, stretch)
  | (set, stretch) :: before =>
    let (others, first) := unionOf empty before
    (.union others set, { start := first.start, stop := stretch.stop })

structure OpenSet where
  negated : Bool
  /-- The opening, with what always belongs to it. -/
  stretch : Stretch
  /-- The members read since the opening or the last operation. -/
  members : Members := []
  since : Stretch
  /-- The operation that waits for its second set. -/
  operation : Option (SetOperation × SetTree × Stretch) := none
  deriving DecidableEq, Repr

namespace OpenSet

def add (frame : OpenSet) (set : SetTree) (stretch : Stretch) : OpenSet :=
  { frame with members := (set, stretch) :: frame.members }

def contents (frame : OpenSet) : SetTree × Stretch :=
  let (set, stretch) := unionOf frame.since frame.members
  match frame.operation with
  | none => (set, stretch)
  | some (operation, first, firstStretch) =>
    (.combine operation first set firstStretch stretch,
      { start := firstStretch.start, stop := stretch.stop })

/-- What has been read becomes the first set of an operation. -/
def operate (frame : OpenSet) (operation : SetOperation) (since : Stretch) : OpenSet :=
  let (set, stretch) := frame.contents
  { frame with members := [], since := since, operation := some (operation, set, stretch) }

end OpenSet

def openingDashes (start : Place) (frame : OpenSet) : Nat → Read OpenSet
  | 0 => return frame
  | rounds + 1 => do
    if (← next?) = some '-' then
      let stretch ← nextStretch
      if !(← bumpOver) then
        fail .openSet (.point start)
      openingDashes start (frame.add (.literal { char := '-', stretch := stretch }) stretch) rounds
    else
      return frame

/-- Reads the opening of a set. A bracket right after it belongs to the set, and so do dashes. -/
def openSet : Read OpenSet := do
  let start ← place
  if !(← bumpOver) then
    fail .openSet (← stretchFrom start)
  let negated := (← next?) = some '^'
  if negated then
    if !(← bumpOver) then
      fail .openSet (← stretchFrom start)
  let frame : OpenSet := { negated := negated, stretch := .point start, since := ← here }
  let frame ← openingDashes start frame (← rounds)
  if frame.members.isEmpty && (← next?) = some ']' then
    let stretch ← nextStretch
    if !(← bumpOver) then
      fail .openSet (← stretchFrom start)
    return { frame.add (.literal { char := ']', stretch := stretch }) stretch with
      stretch := ← stretchFrom start }
  else
    return { frame with stretch := ← stretchFrom start }

/-- Reads a set given by its name in brackets and colons, if one comes next. -/
def namedSet? : Read (Option (SetTree × Stretch)) := do
  let start ← place
  match (← get).rest with
  | '[' :: ':' :: after =>
    let negated := after.head? == some '^'
    let body := if negated then after.drop 1 else after
    let name := body.takeWhile (· != ':')
    match body.dropWhile (· != ':'), NamedSet.ofName? (String.ofList name) with
    | ':' :: ']' :: _, some set =>
      skip (2 + (if negated then 1 else 0) + name.length + 2)
      let stretch ← stretchFrom start
      return some (.named set negated stretch, stretch)
    | _, _ => return none
  | _ => return none

def setPrimitive : Read Primitive := do
  match ← next? with
  | some '\\' => escape
  | some c =>
    let stretch ← nextStretch
    let _ ← bump
    return .literal { char := c, stretch := stretch }
  | none => fail .openSet (← here)

/-- Reads a member of a set, which may be a range. `opening` is the opening of the set. -/
def setMember (opening : Stretch) : Read (SetTree × Stretch) := do
  let low ← setPrimitive
  skipBlanks
  if ← atEnd then
    fail .openSet opening
  let after ← secondOver?
  if (← next?) ≠ some '-' || after = some ']' || after = some '-' then
    return (← require low.member, low.stretch)
  else
    if !(← bumpOver) then
      fail .openSet opening
    let high ← setPrimitive
    let stretch : Stretch := { start := low.stretch.start, stop := high.stretch.stop }
    let first ← require low.bound
    let last ← require high.bound
    if first.char ≤ last.char then
      return (.range first last, stretch)
    else
      fail .reversedRange stretch

def operation? : Read (Option SetOperation) := do
  match ← next?, ← second? with
  | some '&', some '&' => return some .intersection
  | some '-', some '-' => return some .difference
  | some '~', some '~' => return some .symmetricDifference
  | _, _ => return none

/-- Reads the rest of a set in brackets; `outer` are the sets around it. -/
def setRest (frame : OpenSet) (outer : List OpenSet) : Nat → Read SetTree
  | 0 => fail .openSet frame.stretch
  | rounds + 1 => do
    skipBlanks
    match ← next? with
    | none => fail .openSet frame.stretch
    | some '[' =>
      match ← namedSet? with
      | some (set, stretch) => setRest (frame.add set stretch) outer rounds
      | none => setRest (← openSet) (frame :: outer) rounds
    | some ']' =>
      let _ ← bump
      let stretch ← stretchFrom frame.stretch.start
      let set := SetTree.bracket frame.negated frame.contents.1 stretch
      match outer with
      | [] => return set
      | around :: others => setRest (around.add set stretch) others rounds
    | some _ =>
      match ← operation? with
      | some operation =>
        skip 2
        setRest (frame.operate operation (← here)) outer rounds
      | none =>
        let (set, stretch) ← setMember frame.stretch
        setRest (frame.add set stretch) outer rounds

def bracketSet : Read SetTree := do
  let frame ← openSet
  setRest frame [] (← rounds)

/-- The flags of a group as they are read: each letter's mode, or a negation, with its place. -/
abbrev FlagItems := List (Option Mode × Stretch)

/-- What flags switch: those after a negation off, the others on. -/
def switchesOf (on : Bool) : FlagItems → Switches
  | [] => []
  | (none, _) :: rest => switchesOf false rest
  | (some mode, _) :: rest => (mode, on) :: switchesOf on rest

def addFlag (items : FlagItems) (flag : Option Mode) (stretch : Stretch) : Read FlagItems :=
  match items.find? fun item => item.1 == flag with
  | some (_, earlier) =>
    refuse (if flag.isNone then .repeatedNegation else .repeatedFlag) stretch (some earlier)
  | none => return items ++ [(flag, stretch)]

def flagItems (items : FlagItems) : Nat → Read FlagItems
  | 0 => return items
  | rounds + 1 => do
    let stretch ← nextStretch
    match ← next? with
    | none => fail .cutFlags (← here)
    | some c =>
      if c = ':' || c = ')' then
        match items.getLast? with
        | some (none, stretch) => fail .danglingNegation stretch
        | _ => return items
      else
        let flag ← match c, Mode.ofLetter? c with
          | '-', _ => pure none
          | _, some mode => pure (some mode)
          | _, none => fail .unknownFlag stretch
        let items ← addFlag items flag stretch
        if !(← bump) then
          fail .cutFlags (← here)
        flagItems items rounds

def isNameCharacter (first : Bool) (c : Char) : Bool :=
  c = '_' || c.isAlpha || c.toNat ≥ 0x80 ||
    (!first && (c.isDigit || c = '.' || c = '[' || c = ']'))

def nameCharacters (first : Bool) : Nat → Read (List Char)
  | 0 => return []
  | rounds + 1 => do
    match ← next? with
    | none => fail .openName (← here)
    | some '>' => return []
    | some c =>
      if isNameCharacter first c then
        let _ ← bump
        return c :: (← nameCharacters false rounds)
      else
        fail .noNameCharacter (← nextStretch)

def groupName : Read Unit := do
  let start ← place
  let name := String.ofList (← nameCharacters true (← rounds))
  let stretch ← stretchFrom start
  let _ ← bump
  if name.isEmpty then
    fail .emptyName (.point start)
  match (← get).names.find? fun known => known.1 == name with
  | some (_, earlier) => refuse .repeatedName stretch (some earlier)
  | none => modify fun cursor => { cursor with names := (name, stretch) :: cursor.names }

/-- What an opening parenthesis begins: modes for the rest of the group, or a group. -/
inductive Opening where
  | switches (switches : Switches)
  | group (switches : Switches)
  deriving DecidableEq, Repr

/-- Whether a look at what lies before or after begins here. -/
def looksAround : Read Bool := do
  if ← bumpIf "?=" then return true
  if ← bumpIf "?!" then return true
  if ← bumpIf "?<=" then return true
  bumpIf "?<!"

def opensNamed : Read Bool := do
  if ← bumpIf "?P<" then return true
  bumpIf "?<"

/-- Reads what an opening parenthesis begins; `parenthesis` is its place. -/
def opening (parenthesis : Stretch) : Read Opening := do
  let _ ← bump
  skipBlanks
  if ← looksAround then
    fail .lookAround (← stretchFrom parenthesis.start)
  let inner ← here
  if ← opensNamed then
    groupName
    return .group []
  else if ← bumpIf "?" then
    if ← atEnd then
      fail .openGroup parenthesis
    let items ← flagItems [] (← rounds)
    let ends ← next?
    let _ ← bump
    if ends = some ')' then
      if items.isEmpty then
        fail .nothingToRepeat inner
      return .switches (switchesOf true items)
    else
      return .group (switchesOf true items)
  else
    return .group []

/-- A level of a pattern that is being read: its branches and the items of the last one, both
backwards. -/
structure Level where
  branches : List Tree := []
  items : List Tree := []
  deriving DecidableEq, Repr

namespace Level

def add (level : Level) (tree : Tree) : Level :=
  { level with items := tree :: level.items }

def branch (level : Level) : Level :=
  { branches := .ofSequence level.items.reverse :: level.branches }

def tree (level : Level) : Tree :=
  .ofChoice level.branch.branches.reverse

end Level

structure OpenGroup where
  outer : Level
  switches : Switches
  parenthesis : Stretch
  /-- Whether blanks are skipped after it. -/
  ignoreBlanks : Bool
  deriving DecidableEq, Repr

def repeatable (level : Level) : Read (Tree × Level) := do
  match level.items with
  | tree :: before =>
    if tree.isRepeatable then
      return (tree, { level with items := before })
    else
      fail .nothingToRepeat (← here)
  | [] => fail .nothingToRepeat (← here)

def repetition (level : Level) (least : Nat) (most : Option Nat) : Read Level := do
  let (tree, level) ← repeatable level
  if ← bump then
    let _ ← bumpIf "?"
  return level.add (.repeated tree least most)

/-- Reads the numbers of a counted repetition, after the opening brace at `start`. -/
def counts (start : Place) : Read (Nat × Option Nat) := do
  let least ← decimal
  if ← atEnd then
    fail .openCount (← stretchFrom start)
  if (← next?) = some ',' then
    if !(← bumpOver) then
      fail .openCount (← stretchFrom start)
    if (← next?) = some '}' then
      return (← require least, none)
    else
      let least ← require least
      let most ← require (← decimal)
      return (least, some most)
  else
    let count ← require least
    return (count, some count)

def countedRepetition (level : Level) : Read Level := do
  let start ← place
  let (tree, level) ← repeatable level
  if !(← bumpOver) then
    fail .openCount (← stretchFrom start)
  let (least, most) ← counts start
  if (← next?) ≠ some '}' then
    fail .openCount (← stretchFrom start)
  if ← bumpOver then
    let _ ← bumpIf "?"
  if most.any (· < least) then
    fail .reversedCount (← stretchFrom start)
  return level.add (.repeated tree least most)

def setIgnoreBlanks (ignoreBlanks : Bool) : Read Unit :=
  modify fun cursor => { cursor with ignoreBlanks := ignoreBlanks }

/-- Reads one more part of a pattern into its level; `groups` are the open groups around it. -/
def part (level : Level) (groups : List OpenGroup) (c : Char) : Read (Level × List OpenGroup) := do
  match c with
  | '(' =>
    let parenthesis ← nextStretch
    let ignoring := (← get).ignoreBlanks
    match ← opening parenthesis with
    | .switches switches =>
      setIgnoreBlanks ((switches.get? .ignoreBlanks).getD ignoring)
      return (level.add (.switch switches), groups)
    | .group switches =>
      setIgnoreBlanks ((switches.get? .ignoreBlanks).getD ignoring)
      let group : OpenGroup :=
        { outer := level
          switches := switches
          parenthesis := parenthesis
          ignoreBlanks := ignoring }
      return ({}, group :: groups)
  | ')' =>
    match groups with
    | [] => fail .unopenedGroup (← nextStretch)
    | group :: others =>
      setIgnoreBlanks group.ignoreBlanks
      let _ ← bump
      return (group.outer.add (.group group.switches level.tree), others)
  | '|' =>
    let _ ← bump
    return (level.branch, groups)
  | '[' => return (level.add (.set (← bracketSet)), groups)
  | '?' => return (← repetition level 0 (some 1), groups)
  | '*' => return (← repetition level 0 none, groups)
  | '+' => return (← repetition level 1 none, groups)
  | '{' => return (← countedRepetition level, groups)
  | _ => return (level.add (← primitive).tree, groups)

def parts (level : Level) (groups : List OpenGroup) : Nat → Read Tree
  | 0 => return level.tree
  | rounds + 1 => do
    skipBlanks
    match ← next? with
    | none =>
      match groups with
      | [] => return level.tree
      | group :: _ => fail .openGroup group.parenthesis
    | some c =>
      let (level, groups) ← part level groups c
      parts level groups rounds

end Read

def Tree.ofText (text : String) : Except FaultAt Tree :=
  let characters := text.toList
  match Read.parts {} [] (characters.length + 1) |>.run { rest := characters } with
  | .ok tree _ => .ok tree
  | .error fault _ => .error fault

end TeenyBasic.Pattern
