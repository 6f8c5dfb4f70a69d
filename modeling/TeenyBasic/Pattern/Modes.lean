import TeenyBasic.Pattern.Matcher

/-!
The modes of a pattern, and what a pattern means under them. What a mode cannot do is a fault of the
pattern as well.
-/

set_option autoImplicit false

namespace TeenyBasic.Pattern

/-- The modes in force. The modes about reading are not among them. -/
structure Modes where
  ignoreCase : Bool := false
  manyLines : Bool := false
  dotAll : Bool := false
  unicode : Bool := true
  carriageReturn : Bool := false
  deriving DecidableEq, Repr

namespace Modes

def switch (modes : Modes) (switches : Switches) : Modes where
  ignoreCase := (switches.get? .ignoreCase).getD modes.ignoreCase
  manyLines := (switches.get? .manyLines).getD modes.manyLines
  dotAll := (switches.get? .dotAll).getD modes.dotAll
  unicode := (switches.get? .unicode).getD modes.unicode
  carriageReturn := (switches.get? .carriageReturn).getD modes.carriageReturn

def fault {α : Type} (fault : Fault) (stretch : Stretch) : Except FaultAt α :=
  .error { fault := fault, stretch := stretch }

def firstWideCode : Nat := 0x80

/-- Refuses sets that hold single bytes which are no characters. -/
def narrow (set : CharSet) (stretch : Stretch) : Except FaultAt CharSet :=
  if set.has firstWideCode then fault .invalidText stretch else .ok set

def checkByte (modes : Modes) (literal : Literal) : Except FaultAt Unit :=
  if !modes.unicode && literal.isByte && literal.char.toNat ≥ firstWideCode then
    fault .invalidText literal.stretch
  else
    .ok ()

/-- A character as a set of its own, where only the old alphabet is known in sets. -/
def memberCode (modes : Modes) (literal : Literal) : Except FaultAt Nat := do
  modes.checkByte literal
  if !modes.unicode && literal.char.toNat ≥ firstWideCode then
    fault .wideCharacter literal.stretch
  else
    return literal.char.toNat

/-- A character of a pattern. Where case is ignored only the letters of the old alphabet are known. -/
def literal (modes : Modes) (literal : Literal) : Except FaultAt Matcher := do
  modes.checkByte literal
  if modes.ignoreCase && modes.unicode then
    fault .noCaseFolding literal.stretch
  else
    return .one (.foldedIf modes.ignoreCase (.single literal.char))

/-- A name of a property, without what may be left out of it. -/
def plainName (name : String) : String :=
  let kept := (name.toList.filter fun c => c != ' ' && c != '_' && c != '-').map Char.toLower
  String.ofList (if ['i', 's'].isPrefixOf kept then kept.drop 2 else kept)

def valueNames : List String := ["cf", "sc", "lc"]

def propertyFault (modes : Modes) (name : String) : Fault :=
  if !modes.unicode then .wideCharacter
  else if valueNames.contains (plainName name) then .unknownPropertyValue
  else .unknownProperty

def isVoid : SetTree → Bool
  | .empty => true
  | .bracket negated inner _ => !negated && isVoid inner
  | .union first second => isVoid first && isVoid second
  | .combine _ first second _ _ => isVoid first && isVoid second
  | _ => false

def folded (modes : Modes) (set : CharSet) (void : Bool) (stretch : Stretch) :
    Except FaultAt CharSet :=
  if modes.ignoreCase && modes.unicode && !void then fault .noCaseFolding stretch
  else .ok (.foldedIf modes.ignoreCase set)

def foldedAndNegated (modes : Modes) (negated : Bool) (set : CharSet) (void : Bool)
    (stretch : Stretch) : Except FaultAt CharSet := do
  let complete := CharSet.negatedIf negated (← modes.folded set void stretch)
  if modes.unicode then return complete else narrow complete stretch

def set (modes : Modes) : SetTree → Except FaultAt CharSet
  | .empty => .ok .empty
  | .literal literal => do
    let code ← modes.memberCode literal
    return .range code code
  | .range low high => do
    let first ← modes.memberCode low
    let last ← modes.memberCode high
    return .range first last
  | .named set negated stretch => modes.foldedAndNegated negated (.named set) false stretch
  | .lettered set negated stretch =>
    if modes.unicode then fault .unknownClass stretch
    else narrow (.negatedIf negated (.named set)) stretch
  | .property name stretch => fault (modes.propertyFault name) stretch
  | .bracket negated inner stretch => do
    modes.foldedAndNegated negated (← modes.set inner) (isVoid inner) stretch
  | .union first second => do
    return .union (← modes.set first) (← modes.set second)
  | .combine operation first second firstStretch secondStretch => do
    let left ← modes.set first
    let right ← modes.set second
    let right ← modes.folded right (isVoid second) secondStretch
    let left ← modes.folded left (isVoid first) firstStretch
    return .combine operation left right

def anyCharacter (modes : Modes) (stretch : Stretch) : Except FaultAt Matcher :=
  if !modes.unicode then fault .invalidText stretch
  else
    let lineEnds : CharSet :=
      if modes.dotAll then .empty
      else if modes.carriageReturn then .union (.single '\n') (.single '\r')
      else .single '\n'
    .ok (.one (.complement lineEnds))

def demand (modes : Modes) : Condition → Demand
  | .lineStart =>
    if !modes.manyLines then .textStart
    else if modes.carriageReturn then .lineStartReturn
    else .lineStart
  | .lineEnd =>
    if !modes.manyLines then .textEnd
    else if modes.carriageReturn then .lineEndReturn
    else .lineEnd
  | .textStart => .textStart
  | .textEnd => .textEnd
  | .wordBoundary => .wordBoundary
  | .noWordBoundary => .noWordBoundary
  | .wordStart => .wordStart
  | .wordEnd => .wordEnd
  | .wordStartHalf => .wordStartHalf
  | .wordEndHalf => .wordEndHalf

/-- The meaning of a pattern, and the modes in force after it. -/
def matcher (modes : Modes) : Tree → Except FaultAt (Matcher × Modes)
  | .empty => .ok (.empty, modes)
  | .switch switches => .ok (.empty, modes.switch switches)
  | .literal literal => do return (← modes.literal literal, modes)
  | .anyCharacter stretch => do return (← modes.anyCharacter stretch, modes)
  | .condition condition => .ok (.place (modes.demand condition) modes.unicode, modes)
  | .set set => do return (.one (← modes.set set), modes)
  | .repeated tree least most => do
    let (inner, after) ← modes.matcher tree
    return (.repeated inner least most, after)
  | .group switches tree => do
    let (inner, _) ← (modes.switch switches).matcher tree
    return (inner, modes)
  | .sequence first second => do
    let (left, between) ← modes.matcher first
    let (right, after) ← between.matcher second
    return (.sequence left right, after)
  | .either first second => do
    let (left, between) ← modes.matcher first
    let (right, after) ← between.matcher second
    return (.either left right, after)

end Modes

end TeenyBasic.Pattern
