import TeenyBasic.Failure
import TeenyBasic.Names
import TeenyBasic.Sink

/-!
The state of the one pass over a program, and its elementary steps. The pass sees the token it
stands at and the one after it; moving on draws a further token, so a fault in a token shows two
tokens early. A step that fails leaves the state as it found it.

`remaining` counts the tokens still to be used up. Every loop of the pass goes through
`repeatWhile`, which asks for a proof that each round uses up at least one.
-/

set_option autoImplicit false

namespace TeenyBasic

inductive Block where
  | conditional
  | loop
  deriving DecidableEq, Repr

namespace Block

def opener : Block → Keyword
  | conditional => .if_
  | loop => .while_

/-- What stands between the condition and the first statement. -/
def separator : Block → Keyword
  | conditional => .then_
  | loop => .repeat_

def terminator : Block → Keyword
  | conditional => .endIf
  | loop => .endWhile

def head : Block → String
  | conditional => "if("
  | loop => "while("

end Block

inductive Note where
  | token (located : Located)
  | statement (line : Nat) (kind : Kind)
  | newVariable (name : String)
  | newLabel (name : String)
  deriving DecidableEq, Repr

structure State (σ : Type) where
  current : Located
  upcoming : Located
  feed : Feed
  line : Nat := 1
  sink : σ
  declared : Variables := {}
  labels : Labels := {}
  /-- The blocks around the place where the pass stands, the innermost first. -/
  openBlocks : List Block := []
  notes : Array Note := #[]

/-- A step of the pass: it changes the state and may fail. -/
abbrev Pass (σ α : Type) := EStateM Failure (State σ) α

namespace State

variable {σ : Type}

/-- A pass at the start of a feed. Two tokens are drawn at once; if that fails, the notes taken so
far are given with the failure. -/
def start (sink : σ) (feed : Feed) : Except (Failure × Array Note) (State σ) :=
  match feed.draw with
  | .error error => .error (error.failure, #[])
  | .ok (first, afterFirst) =>
    match afterFirst.draw with
    | .error error => .error (error.failure, #[.token first])
    | .ok (second, afterSecond) =>
      .ok
        { current := first
          upcoming := second
          feed := afterSecond
          sink := sink
          notes := #[.token first, .token second] }

/-- One for a token, and zero for the end of input, which is never used up. -/
def weight (located : Located) : Nat :=
  if located.token = .endOfInput then 0 else 1

def remaining (state : State σ) : Nat :=
  weight state.current + weight state.upcoming + state.feed.tokens.length

def finished (state : State σ) : Bool :=
  state.openBlocks.isEmpty && state.current.token == .endOfInput

end State

namespace Pass

variable {σ : Type}

def current : Pass σ Located := fun state => .ok state.current state

def standsAt (test : Kind → Bool) (state : State σ) : Bool :=
  test state.current.kind

/-- Refuses the program because of the token the pass stands at. -/
def refuse {α : Type} (refusal : Refusal) : Pass σ α := fun state =>
  .error { cause := .refused refusal state.line, span := state.current.span } state

def note (entry : Note) : Pass σ Unit := fun state =>
  .ok () { state with notes := state.notes.push entry }

/-- Moves on by one token and gives the token moved over. -/
def advance : Pass σ Located := fun state =>
  match state.feed.draw with
  | .error error => .error error.failure state
  | .ok (drawn, feed) =>
    .ok state.current
      { state with
        current := state.upcoming
        upcoming := drawn
        feed := feed
        notes := state.notes.push (.token drawn) }

/-- Moves on over a token of the wanted kind, and refuses any other. -/
def expect (wanted : Kind) : Pass σ Located := do
  let here ← current
  if here.kind = wanted then advance else refuse (.unexpectedToken wanted here.kind)

def nextLine : Pass σ Unit := fun state => .ok () { state with line := state.line + 1 }

section Writing

variable [Sink σ]

def emit (text : String) : Pass σ Unit := fun state =>
  .ok () { state with sink := Sink.emit state.sink text }

def emitLine (text : String) : Pass σ Unit := fun state =>
  .ok () { state with sink := Sink.emitLine state.sink text }

def headerLine (text : String) : Pass σ Unit := fun state =>
  .ok () { state with sink := Sink.headerLine state.sink text }

def copyToken : Pass σ Unit := do
  let here ← advance
  emit here.token.text

end Writing

/-- Success of `step` never leaves more tokens than there were. -/
def Keeps {α : Type} (step : Pass σ α) : Prop :=
  ∀ state result after, step state = .ok result after → after.remaining ≤ state.remaining

/-- From a state with the property, success of `step` uses up at least one token. -/
def Uses {α : Type} (holds : State σ → Prop) (step : Pass σ α) : Prop :=
  ∀ state result after, holds state → step state = .ok result after →
    after.remaining < state.remaining

/-- Repeats `round` as long as `more` holds before it. -/
def repeatWhile (more : State σ → Bool) (round : Pass σ Unit)
    (uses : Uses (fun state => more state = true) round) : Pass σ Unit := fun state =>
  if _goOn : more state then
    match _result : round state with
    | .ok () after => repeatWhile more round uses after
    | .error failure after => .error failure after
  else
    .ok () state
termination_by state => state.remaining
decreasing_by exact uses _ () _ _goOn _result

end Pass

end TeenyBasic
