import TeenyBasic.Command.Session

/-!
Runs of the command against answers fixed beforehand. An oracle answers every call of the host, and each
answer may depend on all calls before. The calls are recorded with their answers; what is printed and
what is asked of the environment is only talk, and the other calls are the deeds of a run.

`Brings` says what an action does and returns. It is closed under sequencing (`Brings.bind`), and talk
can be passed over (`Silent.bind`).
-/

set_option autoImplicit false

namespace TeenyBasic.Command

/-- A call of the host, with the answer it got. -/
inductive Event where
  | printed (text : String)
  | complained (text : String)
  | asked (name : String) (answer : Option String)
  | read (path : Path) (answer : Except SystemError String)
  | wrote (path : Path) (text : String) (answer : Except SystemError Unit)
  | inspected (path : Path) (isFile : Bool)
  | searched (name : Path) (answer : Option Path)
  | compiled (compiler source target : Path) (answer : Except SystemError Completion)
  | ran (program : Path) (answer : Except SystemError ExitStatus)
  | resolved (path : Path) (answer : Except SystemError Path)

/-- Whether a call is more than talk. -/
def Event.isDeed : Event → Bool
  | printed _ | complained _ | asked _ _ => false
  | _ => true

/-- The calls that are more than talk, in order. -/
def deeds (events : List Event) : List Event :=
  events.filter Event.isDeed

/-- The answers to the calls, each from the calls before. -/
structure Oracle where
  environmentValue : List Event → String → Option String
  readText : List Event → Path → Except SystemError String
  writeText : List Event → Path → String → Except SystemError Unit
  isFile : List Event → Path → Bool
  search : List Event → Path → Option Path
  startCompiler : List Event → (compiler source target : Path) → Except SystemError Completion
  startProgram : List Event → Path → Except SystemError ExitStatus
  canonical : List Event → Path → Except SystemError Path

/-- An action that is answered by the oracle: from the calls before, its value and all calls. -/
def Recorded (_oracle : Oracle) (α : Type) : Type :=
  List Event → α × List Event

variable {oracle : Oracle} {α β : Type}

instance : Monad (Recorded oracle) where
  pure value := fun history => (value, history)
  bind action next := fun history => next (action history).1 (action history).2

/-- Records a call with its answer. -/
def Recorded.call (event : α → Event) (answer : List Event → α) : Recorded oracle α :=
  fun history => (answer history, history ++ [event (answer history)])

instance : Host (Recorded oracle) where
  print text := .call (fun _ => .printed text) fun _ => ()
  complain text := .call (fun _ => .complained text) fun _ => ()
  environmentValue name := .call (.asked name) (oracle.environmentValue · name)
  readText path := .call (.read path) (oracle.readText · path)
  writeText path text := .call (.wrote path text) (oracle.writeText · path text)
  isFile path := .call (.inspected path) (oracle.isFile · path)
  search name := .call (.searched name) (oracle.search · name)
  startCompiler compiler source target :=
    .call (.compiled compiler source target) (oracle.startCompiler · compiler source target)
  startProgram program := .call (.ran program) (oracle.startProgram · program)
  canonical path := .call (.resolved path) (oracle.canonical · path)

/-- Whatever was called before, the action adds calls, and the deeds among them and the value are as
said. -/
def Brings (action : Recorded oracle α) (post : List Event → α → Prop) : Prop :=
  ∀ history, ∃ events value, action history = (value, history ++ events) ∧ post (deeds events) value

/-- The action is only talk. -/
def Silent (action : Recorded oracle α) : Prop :=
  Brings action fun done _ => done = []

namespace Brings

variable {action : Recorded oracle α} {post : List Event → α → Prop}

theorem pure {value : α} (holds : post [] value) :
    Brings (Pure.pure value : Recorded oracle α) post :=
  fun history => ⟨[], value, by rw [List.append_nil]; rfl, holds⟩

theorem mono {weaker : List Event → α → Prop} (brings : Brings action post)
    (implies : ∀ done value, post done value → weaker done value) : Brings action weaker := by
  intro history
  obtain ⟨events, value, same, holds⟩ := brings history
  exact ⟨events, value, same, implies _ _ holds⟩

theorem bind {next : α → Recorded oracle β} {after : List Event → β → Prop}
    (brings : Brings action post)
    (goesOn : ∀ done value, post done value →
      Brings (next value) fun more result => after (done ++ more) result) :
    Brings (action >>= next) after := by
  intro history
  obtain ⟨events, value, same, holds⟩ := brings history
  obtain ⟨more, result, sameNext, atEnd⟩ := goesOn _ _ holds (history ++ events)
  refine ⟨events ++ more, result, ?_, ?_⟩
  · change next (action history).1 (action history).2 = _
    rw [same, sameNext, List.append_assoc]
  · rwa [deeds, List.filter_append]

theorem call {event : α → Event} {answer : List Event → α}
    (isDeed : ∀ value, (event value).isDeed = true) :
    Brings (.call event answer : Recorded oracle α) fun done value => done = [event value] :=
  fun history => ⟨[event (answer history)], answer history, rfl, by simp [deeds, isDeed]⟩

end Brings

namespace Silent

theorem bind {action : Recorded oracle α} {next : α → Recorded oracle β} {after : List Event → β → Prop}
    (silent : Silent action) (goesOn : ∀ value, Brings (next value) after) :
    Brings (action >>= next) after := by
  refine Brings.bind silent fun done value nothing => ?_
  subst nothing
  exact goesOn value

theorem pure (value : α) : Silent (Pure.pure value : Recorded oracle α) :=
  Brings.pure rfl

theorem call {event : α → Event} {answer : List Event → α}
    (talk : ∀ value, (event value).isDeed = false) :
    Silent (.call event answer : Recorded oracle α) :=
  fun history => ⟨[event (answer history)], answer history, rfl, by simp [deeds, talk]⟩

theorem print (text : String) : Silent (Host.print text : Recorded oracle Unit) :=
  call fun _ => rfl

theorem complain (text : String) : Silent (Host.complain text : Recorded oracle Unit) :=
  call fun _ => rfl

theorem environmentValue (name : String) :
    Silent (Host.environmentValue name : Recorded oracle (Option String)) :=
  call fun _ => rfl

theorem forM {items : List α} {action : α → Recorded oracle PUnit}
    (each : ∀ item, Silent (action item)) : Silent (items.forM action) := by
  induction items with
  | nil => exact pure _
  | cons item items ih => exact (each item).bind fun _ => ih

end Silent

/-! ## Talk of the command -/

namespace Session

theorem silent_log (session : Session) (entry : Log.Entry) :
    Silent (session.log entry : Recorded oracle Unit) := by
  rw [log]
  split
  · exact .complain _
  · exact .pure _

theorem silent_logAll (session : Session) (entries : List Log.Entry) :
    Silent (session.logAll entries : Recorded oracle Unit) :=
  .forM session.silent_log

theorem silent_mention (session : Session) (line : String) :
    Silent (session.mention line : Recorded oracle Unit) := by
  rw [mention]
  split
  · exact .print _
  · exact .pure _

end Session

private theorem silent_paints : Silent (paints : Recorded oracle Bool) :=
  (Silent.environmentValue _).bind fun _ => (Silent.environmentValue _).bind fun _ => Silent.pure _

theorem silent_paintsLog : Silent (paintsLog : Recorded oracle Bool) := by
  refine (Silent.environmentValue _).bind fun style => ?_
  split
  · exact Silent.pure _
  · exact Silent.pure _
  · exact silent_paints

theorem silent_logFilter (verbose : Bool) : Silent (logFilter verbose : Recorded oracle Log.Filter) :=
  (Silent.environmentValue _).bind fun _ =>
    (Silent.forM fun _ => .complain _).bind fun _ => Silent.pure _

end TeenyBasic.Command
