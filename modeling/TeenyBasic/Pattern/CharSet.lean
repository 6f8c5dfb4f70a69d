import TeenyBasic.Pattern.Tree

/-!
Sets of characters, by their codes.
-/

set_option autoImplicit false

namespace TeenyBasic.Pattern

def NamedSet.has (set : NamedSet) (code : Nat) : Bool :=
  let within (low high : Char) : Bool := low.toNat ≤ code && code ≤ high.toNat
  let digit := within '0' '9'
  let lower := within 'a' 'z'
  let upper := within 'A' 'Z'
  match set with
  | .alnum => digit || lower || upper
  | .alpha => lower || upper
  | .ascii => code < 0x80
  | .blank => code = 0x09 || code = 0x20
  | .cntrl => code < 0x20 || code = 0x7f
  | .digit => digit
  | .graph => within '!' '~'
  | .lower => lower
  | .print => within ' ' '~'
  | .punct => within '!' '/' || within ':' '@' || within '[' '\x60' || within '\x7b' '~'
  | .space => (0x09 ≤ code && code ≤ 0x0d) || code = 0x20
  | .upper => upper
  | .word => digit || lower || upper || code = '_'.toNat
  | .xdigit => digit || within 'a' 'f' || within 'A' 'F'

inductive CharSet where
  | empty
  | range (low high : Nat)
  | named (set : NamedSet)
  | complement (set : CharSet)
  /-- With each letter, also the other form of it. -/
  | folded (set : CharSet)
  | union (first second : CharSet)
  | combine (operation : SetOperation) (first second : CharSet)
  deriving DecidableEq, Repr

/-- The code of the other form of a letter, small or capital. -/
def otherCase (code : Nat) : Nat :=
  if NamedSet.lower.has code then code - 0x20
  else if NamedSet.upper.has code then code + 0x20
  else code

def SetOperation.has (operation : SetOperation) (first second : Bool) : Bool :=
  match operation with
  | .intersection => first && second
  | .difference => first && !second
  | .symmetricDifference => first != second

namespace CharSet

def has : CharSet → Nat → Bool
  | empty, _ => false
  | range low high, code => low ≤ code && code ≤ high
  | named set, code => set.has code
  | complement set, code => !set.has code
  | folded set, code => set.has code || set.has (otherCase code)
  | union first second, code => first.has code || second.has code
  | combine operation first second, code => operation.has (first.has code) (second.has code)

def single (c : Char) : CharSet :=
  range c.toNat c.toNat

def negatedIf (negated : Bool) (set : CharSet) : CharSet :=
  if negated then complement set else set

def foldedIf (ignoreCase : Bool) (set : CharSet) : CharSet :=
  if ignoreCase then folded set else set

end CharSet

end TeenyBasic.Pattern
