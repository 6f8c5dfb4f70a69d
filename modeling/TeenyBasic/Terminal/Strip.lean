/-!
Taking the control sequences of a terminal out of a text. What a terminal would print stays, and so do
line ends and blanks; what it would obey goes.
-/

set_option autoImplicit false

namespace TeenyBasic.Terminal

/-- What a terminal is in the middle of. -/
inductive Phase where
  | ground
  | escape
  | escapeMiddle
  | control
  | controlParameter
  | controlMiddle
  | controlIgnored
  | device
  | deviceParameter
  | deviceMiddle
  | deviceIgnored
  | deviceData
  /-- In a command to the operating system. -/
  | command
  /-- In a string that is neither of these. -/
  | otherString
  deriving DecidableEq, Repr

namespace Phase

def isFinal (code : Nat) : Bool :=
  0x40 ≤ code && code ≤ 0x7e

def isMiddle (code : Nat) : Bool :=
  0x20 ≤ code && code ≤ 0x2f

def isParameter (code : Nat) : Bool :=
  0x30 ≤ code && code ≤ 0x3b

def isPrivate (code : Nat) : Bool :=
  0x3c ≤ code && code ≤ 0x3f

def afterEscape (code : Nat) : Phase :=
  if isMiddle code then escapeMiddle
  else if code = 0x50 then device
  else if code = 0x5b then control
  else if code = 0x5d then command
  else if code = 0x58 ∨ code = 0x5e ∨ code = 0x5f then otherString
  else if 0x30 ≤ code ∧ code ≤ 0x7e then ground
  else escape

/-- What follows a printable character, given by its code, that is part of a sequence. -/
def afterPrintable (phase : Phase) (code : Nat) : Phase :=
  match phase with
  | ground => ground
  | escape => afterEscape code
  | escapeMiddle => if 0x30 ≤ code ∧ code ≤ 0x7e then ground else escapeMiddle
  | control =>
    if isMiddle code then controlMiddle
    else if isParameter code || isPrivate code then controlParameter
    else if isFinal code then ground
    else control
  | controlParameter =>
    if isMiddle code then controlMiddle
    else if isPrivate code then controlIgnored
    else if isFinal code then ground
    else controlParameter
  | controlMiddle =>
    if isParameter code || isPrivate code then controlIgnored
    else if isFinal code then ground
    else controlMiddle
  | controlIgnored => if isFinal code then ground else controlIgnored
  | device =>
    if isMiddle code then deviceMiddle
    else if isParameter code || isPrivate code then deviceParameter
    else if isFinal code then deviceData
    else device
  | deviceParameter =>
    if isMiddle code then deviceMiddle
    else if isPrivate code then deviceIgnored
    else if isFinal code then deviceData
    else deviceParameter
  | deviceMiddle =>
    if isParameter code || isPrivate code then deviceIgnored
    else if isFinal code then deviceData
    else deviceMiddle
  | deviceIgnored => deviceIgnored
  | deviceData => deviceData
  | command => command
  | otherString => otherString

/-- Whether a terminal obeys control characters in the middle of what it reads. -/
def obeys : Phase → Bool
  | ground | escape | escapeMiddle | control | controlParameter | controlMiddle | controlIgnored => true
  | _ => false

/-- Whether a text that a terminal reads without printing is ended by a byte of its own. -/
def endsByByte : Phase → Bool
  | deviceIgnored | deviceData | otherString => true
  | _ => false

def endByte : UInt8 := 0x9c

def isSpacing (c : Char) : Bool :=
  c = '\t' || c = '\n' || c = '\x0c' || c = '\r'

/-- What follows a character, and whether the character itself is shown. -/
def meet (phase : Phase) (c : Char) : Phase × Bool :=
  if c = '\x1b' then (escape, false)
  else if c = '\x18' ∨ c = '\x1a' then (ground, false)
  else if c.toNat < 0x20 then
    if phase = command ∧ c = '\x07' then (ground, false)
    else (phase, phase.obeys && isSpacing c)
  else if c.toNat = 0x7f then (phase, false)
  else if c.toNat < 0x80 then (phase.afterPrintable c.toNat, phase = ground)
  else if phase = ground then (ground, true)
  else if phase.endsByByte && c.toString.toUTF8.data.contains endByte then (ground, false)
  else (phase, false)

end Phase

/-- The part of a text that is shown, read from a phase on; `shown` tells whether the character
before it was shown. A character that ends a shown stretch is read again as the start of what
follows it. -/
def stripFrom (phase : Phase) (shown : Bool) : List Char → List Char
  | [] => []
  | c :: rest =>
    let (next, visible) := phase.meet c
    if visible then c :: stripFrom next true rest
    else if shown then
      let (again, visible) := next.meet c
      if visible then c :: stripFrom again true rest else stripFrom again false rest
    else stripFrom next false rest

def strip (text : String) : String :=
  String.ofList (stripFrom .ground false text.toList)

end TeenyBasic.Terminal
