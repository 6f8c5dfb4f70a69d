/-!
Stretches of a text, given by the byte offsets of their two ends.
-/

set_option autoImplicit false

namespace TeenyBasic

/-- The bytes from `start` up to, and without, `stop`. -/
structure Span where
  start : Nat
  stop : Nat
  deriving DecidableEq, Repr, Inhabited

namespace Span

def length (span : Span) : Nat :=
  span.stop - span.start

def isEmpty (span : Span) : Bool :=
  span.start == span.stop

end Span

end TeenyBasic
