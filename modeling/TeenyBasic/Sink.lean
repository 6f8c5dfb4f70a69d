/-!
Where the C text goes. The compiler writes to anything that takes three kinds of calls: text within
a line of the body, text that ends a line of the body, and a line of the header. The header gathers
declarations while the body is being written, so it stands first in the finished text although the
calls come mixed.
-/

set_option autoImplicit false

namespace TeenyBasic

class Sink (σ : Type) where
  /-- Writes within a line of the body. -/
  emit : σ → String → σ
  /-- Writes to the body and ends the line. -/
  emitLine : σ → String → σ
  headerLine : σ → String → σ

inductive Call where
  | emit (text : String)
  | line (text : String)
  | header (text : String)
  deriving DecidableEq, Repr

namespace Sink

def perform {σ : Type} [Sink σ] (sink : σ) : Call → σ
  | .emit text => emit sink text
  | .line text => emitLine sink text
  | .header text => headerLine sink text

def replay {σ : Type} [Sink σ] (sink : σ) (calls : List Call) : σ :=
  calls.foldl perform sink

theorem replay_concat {σ : Type} [Sink σ] (sink : σ) (calls : List Call) (call : Call) :
    replay sink (calls ++ [call]) = perform (replay sink calls) call := by
  simp [replay]

end Sink

structure Transcript where
  calls : Array Call := #[]
  deriving DecidableEq, Repr

instance : Sink Transcript where
  emit transcript text := { calls := transcript.calls.push (.emit text) }
  emitLine transcript text := { calls := transcript.calls.push (.line text) }
  headerLine transcript text := { calls := transcript.calls.push (.header text) }

theorem Transcript.calls_perform (transcript : Transcript) (call : Call) :
    (Sink.perform transcript call).calls.toList = transcript.calls.toList ++ [call] := by
  cases call <;> simp [Sink.perform, Sink.emit, Sink.emitLine, Sink.headerLine]

/-- A sink that puts the C text together. Finished lines end in a line feed; `pending` is the line
being written. -/
structure Emitter where
  header : Array String := #[]
  body : Array String := #[]
  pending : String := ""
  deriving DecidableEq, Repr

namespace Emitter

def emit (emitter : Emitter) (text : String) : Emitter :=
  { emitter with pending := emitter.pending ++ text }

def emitLine (emitter : Emitter) (text : String) : Emitter :=
  { emitter with body := emitter.body.push (emitter.pending ++ text ++ "\n"), pending := "" }

def headerLine (emitter : Emitter) (text : String) : Emitter :=
  { emitter with header := emitter.header.push (text ++ "\n") }

def headerText (emitter : Emitter) : String :=
  String.join emitter.header.toList

/-- The body so far, with the line being written. -/
def bodyText (emitter : Emitter) : String :=
  String.join emitter.body.toList ++ emitter.pending

def finish (emitter : Emitter) : String :=
  emitter.headerText ++ emitter.bodyText

end Emitter

instance : Sink Emitter where
  emit := Emitter.emit
  emitLine := Emitter.emitLine
  headerLine := Emitter.headerLine

end TeenyBasic
