import TeenyBasic.Pass.Statement

/-!
Compiling a whole program. `run` passes once over a source text and writes to any sink; `compile` is
the run that puts the C text together.
-/

set_option autoImplicit false

namespace TeenyBasic

namespace Pass

variable {σ : Type}

/-- Refuses the program if a jump leads nowhere. -/
def resolveJumps : Pass σ Unit := fun state =>
  match state.labels.firstUnresolved with
  | none => .ok () state
  | some jump =>
    .error
      { cause := .refused (.undefinedLabel jump.label) jump.line, span := jump.span } state

/-- A whole program, from its first line to the end of the input. -/
def program [Sink σ] : Pass σ Unit := do
  CLines.prologue.forM headerLine
  blankLines
  repeatWhile (fun state => !state.finished) turn (uses_turn.mono fun _ _ => trivial)
  CLines.epilogue.forM emitLine
  resolveJumps

end Pass

inductive Run (σ : Type) where
  /-- The first two tokens could not be drawn. -/
  | unstarted (failure : Failure) (notes : Array Note)
  | halted (failure : Failure) (state : State σ)
  | completed (state : State σ)

namespace Run

variable {σ : Type}

def notes : Run σ → Array Note
  | unstarted _ notes => notes
  | halted _ state => state.notes
  | completed state => state.notes

def state? : Run σ → Option (State σ)
  | unstarted _ _ => none
  | halted _ state => some state
  | completed state => some state

/-- What was written if the program was accepted, and why it was refused otherwise. -/
def outcome : Run σ → Except Failure σ
  | unstarted failure _ => .error failure
  | halted failure _ => .error failure
  | completed state => .ok state.sink

end Run

def runFeed {σ : Type} [Sink σ] (sink : σ) (feed : Feed) : Run σ :=
  match State.start sink feed with
  | .error (failure, notes) => .unstarted failure notes
  | .ok state =>
    match Pass.program state with
    | .ok () after => .completed after
    | .error failure after => .halted failure after

def run {σ : Type} [Sink σ] (sink : σ) (source : String) : Run σ :=
  runFeed sink (feedOf source)

def emission (source : String) : Run Emitter :=
  run {} source

/-- The C text of a program, or why the program is refused. -/
def compile (source : String) : Except Failure String :=
  (emission source).outcome.map Emitter.finish

end TeenyBasic
