import Mathlib.Data.List.Forall2
import TeenyBasic.Proofs.Pass.Program

/-!
Two passes side by side. The passes read different inputs and may write to different sinks; a
`Pairing` says which places of the two inputs, which spans, lines and sinks belong together.
`InStep` says that a step of the one pass and a step of the other, started abreast, end abreast: both
succeed with the same value or both refuse for the same reason. There are two ways out, both on the
first pass: it meets a lexical fault, or it parts, that is, it goes on to a place that is not compared
any more and from which there is no way back.

The property passes through sequencing, looking at the current token and loops, so it holds of the
whole pass as soon as it holds of moving over one token and over one line end (`Pairing.Lawful`).
-/

set_option autoImplicit false

namespace TeenyBasic

open Grammar Pass

variable {σ τ α β : Type}

/-- Where a pass stands in its input, and on which line. -/
structure Place where
  current : Located
  upcoming : Located
  feed : Feed
  line : Nat

/-- The place one token further. -/
def Place.move (place : Place) : Except LexicalError Place :=
  match place.feed.draw with
  | .error error => .error error
  | .ok (drawn, feed) =>
    .ok { current := place.upcoming, upcoming := drawn, feed := feed, line := place.line }

def State.place (state : State σ) : Place where
  current := state.current
  upcoming := state.upcoming
  feed := state.feed
  line := state.line

namespace Pass

/-- The state that a step leaves behind, whether it succeeds or not. -/
def stateOf : EStateM.Result Failure (State σ) α → State σ
  | .ok _ state => state
  | .error _ state => state

theorem advance_of_move {state : State σ} {place : Place} (moved : state.place.move = .ok place) :
    advance state = .ok state.current
      { state with
        current := place.current
        upcoming := place.upcoming
        feed := place.feed
        line := place.line
        notes := state.notes.push (.token place.upcoming) } := by
  unfold Place.move at moved
  unfold advance
  change (match state.feed.draw with | .error error => _ | .ok (drawn, feed) => _) = _ at moved
  cases drew : state.feed.draw with
  | error error => simp [drew] at moved
  | ok pair =>
    simp only [drew, Except.ok.injEq] at moved
    subst moved
    rfl

theorem advance_of_fault {state : State σ} {error : LexicalError}
    (stuck : state.place.move = .error error) : advance state = .error error.failure state := by
  unfold Place.move at stuck
  unfold advance
  change (match state.feed.draw with | .error error => _ | .ok (drawn, feed) => _) = _ at stuck
  cases drew : state.feed.draw with
  | error found =>
    simp only [drew, Except.error.injEq] at stuck
    rw [stuck]
  | ok pair => simp [drew] at stuck

/-- A jump, told apart by the token after `GOTO`. -/
theorem gotoStatement_eq [Sink σ] (state : State σ) :
    gotoStatement state =
      match state.current.token with
      | .name name =>
        if isReserved name then refuse (.reservedName name) state
        else
          (do
            let _ ← advance
            addJump name state.current.span
            emitLine (CLines.jump name) : Pass σ Unit) state
      | other => refuse (.unexpectedToken .name other.kind) state := by
  change EStateM.bind freshName _ state = _
  unfold EStateM.bind
  rw [freshName_eq]
  cases state.current.token with
  | name name =>
    cases reserved : isReserved name with
    | true => simp [reserved, refuse]
    | false =>
      simp only [reserved, Bool.false_eq_true, if_false]
      change ((advance >>= fun _ => pure name) >>= fun name => addJump name _ >>= _ : Pass σ Unit) state = _
      simp only [bind_assoc, pure_bind]
  | _ => rfl

/-- A line end with all empty lines after it. -/
def lineBreak : Pass σ Unit := do
  let _ ← advance
  nextLine
  blankLines

/-- Wherever the pass stands when the step is over, the property of its place still holds. -/
def Stays (holds : Place → Prop) (step : Pass σ α) : Prop :=
  ∀ state, holds state.place → holds (stateOf (step state)).place

namespace Stays

variable {holds : Place → Prop}

theorem bind {step : Pass σ α} {next : α → Pass σ β} (first : Stays holds step)
    (second : ∀ value, Stays holds (next value)) : Stays holds (step >>= next) := by
  intro state held
  have still := first state held
  change holds (stateOf (EStateM.bind step next state)).place
  unfold EStateM.bind
  generalize step state = result at still ⊢
  cases result with
  | ok value between => exact second value between still
  | error failure after => exact still

theorem repeatWhile {more : State σ → Bool} {round : Pass σ Unit}
    (uses : Uses (fun state => more state = true) round) (once : Stays holds round) :
    Stays holds (Pass.repeatWhile more round uses) := by
  intro state held
  fun_induction Pass.repeatWhile more round uses state with
  | case1 state goesOn between ran ih =>
    have still := once state held
    rw [ran] at still
    exact ih still
  | case2 state goesOn failure after ran =>
    have still := once state held
    rw [ran] at still
    exact still
  | case3 => exact held

theorem advance (moves : ∀ {place after}, holds place → place.move = .ok after → holds after) :
    Stays holds (Pass.advance : Pass σ Located) := by
  intro state held
  cases moved : state.place.move with
  | error error =>
    rw [advance_of_fault moved]
    exact held
  | ok place =>
    rw [advance_of_move moved]
    exact moves held moved

end Stays

end Pass

/-- What belongs together in two passes. -/
structure Pairing (σ τ : Type) where
  places : Place → Place → Prop
  /-- The first pass has gone on to where it is not compared any more. -/
  parted : Place → Prop
  /-- At the two spans stands the given token. -/
  spots : Token → Span → Span → Prop
  lines : Nat → Nat → Prop
  sinks : σ → τ → Prop

namespace Pairing

variable (c : Pairing σ τ)

structure SameJump (left right : Jump) : Prop where
  label : left.label = right.label
  spot : c.spots (.name left.label) left.span right.span
  line : c.lines left.line right.line

structure Abreast (left : State σ) (right : State τ) : Prop where
  place : c.places left.place right.place
  sink : c.sinks left.sink right.sink
  declared : left.declared = right.declared
  labels : left.labels.names = right.labels.names
  jumps : List.Forall₂ c.SameJump left.labels.jumps right.labels.jumps
  blocks : left.openBlocks = right.openBlocks

variable {c} in
theorem Abreast.contains_label {left : State σ} {right : State τ} (abreast : c.Abreast left right)
    (name : String) : left.labels.contains name = right.labels.contains name :=
  congrArg (·.contains name) abreast.labels

variable {c} in
theorem exists_sameJump {lefts rights : List Jump} (same : List.Forall₂ c.SameJump lefts rights)
    {left : Jump} (member : left ∈ lefts) : ∃ right, c.SameJump left right := by
  induction same with
  | nil => cases member
  | @cons first second _ _ sameJump _ ih =>
    rcases List.mem_cons.mp member with rfl | later
    · exact ⟨second, sameJump⟩
    · exact ih later

variable {c} in
private theorem find?_sameJump {lefts rights : List Jump} (same : List.Forall₂ c.SameJump lefts rights)
    (test : String → Bool) :
    (lefts.find? (test ·.label) = none ∧ rights.find? (test ·.label) = none) ∨
      ∃ left right, lefts.find? (test ·.label) = some left ∧
        rights.find? (test ·.label) = some right ∧ c.SameJump left right := by
  induction same with
  | nil => exact .inl ⟨rfl, rfl⟩
  | @cons left right _ _ sameJump _ ih =>
    simp only [List.find?_cons, ← sameJump.label]
    cases test left.label with
    | true => exact .inr ⟨left, right, rfl, rfl, sameJump⟩
    | false => exact ih

/-- What two passes that started abreast can come to. -/
inductive Outcomes : EStateM.Result Failure (State σ) α → EStateM.Result Failure (State τ) α → Prop where
  | completed {value : α} {left : State σ} {right : State τ} : c.Abreast left right →
      Outcomes (.ok value left) (.ok value right)
  | refused {refusal : Refusal} {leftLine rightLine : Nat} {token : Token} {leftSpan rightSpan : Span}
      {left : State σ} {right : State τ} : c.Abreast left right → c.lines leftLine rightLine →
      c.spots token leftSpan rightSpan →
      Outcomes (.error { cause := .refused refusal leftLine, span := leftSpan } left)
        (.error { cause := .refused refusal rightLine, span := rightSpan } right)
  | faulty {error : LexicalError} {left : State σ} {other : EStateM.Result Failure (State τ) α} :
      Outcomes (.error error.failure left) other
  | parted {result : EStateM.Result Failure (State σ) α}
      {other : EStateM.Result Failure (State τ) α} : c.parted (stateOf result).place →
      Outcomes result other

structure InStep (starts : Kind → Prop) (first : Pass σ α) (second : Pass τ α) : Prop where
  outcomes : ∀ left right, c.Abreast left right → starts left.current.kind →
    c.Outcomes (first left) (second right)
  stays : Stays c.parted first

variable {c}

/-! ## Sequencing and loops -/

namespace InStep

variable {starts : Kind → Prop} {first : Pass σ α} {second : Pass τ α}

theorem mono {stronger : Kind → Prop} (inStep : c.InStep starts first second)
    (implies : ∀ kind, stronger kind → starts kind) : c.InStep stronger first second where
  outcomes := fun left right abreast started =>
    inStep.outcomes left right abreast (implies _ started)
  stays := inStep.stays

theorem bind {firstNext : α → Pass σ β} {secondNext : α → Pass τ β}
    (step : c.InStep starts first second)
    (next : ∀ value, c.InStep anyKind (firstNext value) (secondNext value)) :
    c.InStep starts (first >>= firstNext) (second >>= secondNext) where
  outcomes := by
    intro left right abreast started
    have ran := step.outcomes left right abreast started
    change c.Outcomes (EStateM.bind first firstNext left) (EStateM.bind second secondNext right)
    unfold EStateM.bind
    generalize first left = result at ran ⊢
    generalize second right = other at ran ⊢
    cases ran with
    | completed still => exact (next _).outcomes _ _ still trivial
    | refused still lines spots => exact .refused still lines spots
    | faulty => exact .faulty
    | parted gone =>
      cases result with
      | ok value state => exact .parted ((next value).stays state gone)
      | error failure state => exact .parted gone
  stays := step.stays.bind fun value => (next value).stays

theorem of_current (tokens : ∀ {left right}, c.places left right →
      left.current.token = right.current.token)
    {firstNext : Located → Pass σ α} {secondNext : Located → Pass τ α}
    (next : ∀ here there : Located, here.token = there.token →
      c.InStep (fun kind => starts kind ∧ kind = here.kind) (firstNext here) (secondNext there)) :
    c.InStep starts (current >>= firstNext) (current >>= secondNext) where
  outcomes := fun left right abreast started =>
    (next left.current right.current (tokens abreast.place)).outcomes left right abreast
      ⟨started, rfl⟩
  stays := fun left gone => (next left.current left.current rfl).stays left gone

theorem pure (value : α) : c.InStep starts (Pure.pure value) (Pure.pure value) where
  outcomes := fun _ _ abreast _ => .completed abreast
  stays := fun _ gone => gone

section Loop

variable {firstMore : State σ → Bool} {secondMore : State τ → Bool} {first : Pass σ Unit}
  {second : Pass τ Unit} (firstUses : Uses (fun state => firstMore state = true) first)
  (secondUses : Uses (fun state => secondMore state = true) second)

theorem repeatWhile (same : ∀ left right, c.Abreast left right → firstMore left = secondMore right)
    (started : ∀ left, firstMore left = true → starts left.current.kind)
    (round : c.InStep starts first second) :
    c.InStep anyKind (Pass.repeatWhile firstMore first firstUses)
      (Pass.repeatWhile secondMore second secondUses) where
  outcomes := by
    intro left right abreast _
    fun_induction Pass.repeatWhile firstMore first firstUses left generalizing right with
    | case1 left goesOn between ran ih =>
      have results := round.outcomes left right abreast (started left goesOn)
      rw [repeatWhile_of_goesOn secondUses (same left right abreast ▸ goesOn)]
      change c.Outcomes _ (EStateM.bind second _ right)
      unfold EStateM.bind
      rw [ran] at results
      generalize second right = other at results ⊢
      cases results with
      | completed still => exact ih _ still trivial
      | parted gone => exact .parted (round.stays.repeatWhile firstUses between gone)
    | case2 left goesOn failure after ran =>
      have results := round.outcomes left right abreast (started left goesOn)
      rw [repeatWhile_of_goesOn secondUses (same left right abreast ▸ goesOn)]
      change c.Outcomes _ (EStateM.bind second _ right)
      unfold EStateM.bind
      rw [ran] at results
      generalize second right = other at results ⊢
      cases results with
      | refused still lines spots => exact .refused still lines spots
      | faulty => exact .faulty
      | parted gone => exact .parted gone
    | case3 left stopped =>
      rw [repeatWhile_of_stopped secondUses]
      · exact .completed abreast
      · rw [← same left right abreast]
        simpa using stopped
  stays := round.stays.repeatWhile firstUses

end Loop

end InStep

/-! ## Steps -/

/-- What moving over one token of both inputs can come to. -/
inductive Moves (c : Pairing σ τ) (left right : Place) : Prop where
  | together {leftNext rightNext : Place} : left.move = .ok leftNext → right.move = .ok rightNext →
      c.places leftNext rightNext → Moves c left right
  | faulty {error : LexicalError} : left.move = .error error → Moves c left right
  | parted {leftNext : Place} : left.move = .ok leftNext → c.parted leftNext → Moves c left right

/-- What a comparison needs so that whole passes can be compared. -/
structure Lawful [Sink σ] [Sink τ] (c : Pairing σ τ) : Prop where
  token : ∀ {left right}, c.places left right → left.current.token = right.current.token
  spot : ∀ {left right}, c.places left right →
    c.spots left.current.token left.current.span right.current.span
  line : ∀ {left right}, c.places left right → c.lines left.line right.line
  perform : ∀ {left right} (call : Call), c.sinks left right →
    c.sinks (Sink.perform left call) (Sink.perform right call)
  move : ∀ {left right}, c.places left right → left.current.token ≠ .newline → c.Moves left right
  lineBreak : ∀ left right, c.Abreast left right → left.current.token = .newline →
    c.Outcomes (lineBreak left) (lineBreak right)
  partedMove : ∀ {place after}, c.parted place → place.move = .ok after → c.parted after
  partedLine : ∀ {place : Place}, c.parted place → c.parted { place with line := place.line + 1 }

/-- Two steps that always succeed and leave the input alone. -/
theorem inStep_of_total {starts : Kind → Prop} {first : Pass σ Unit} {second : Pass τ Unit}
    {firstChange : State σ → State σ} {secondChange : State τ → State τ}
    (firstTotal : ∀ left, first left = .ok () (firstChange left))
    (secondTotal : ∀ right, second right = .ok () (secondChange right))
    (place : ∀ left, (firstChange left).place = left.place)
    (still : ∀ left right, c.Abreast left right → c.Abreast (firstChange left) (secondChange right)) :
    c.InStep starts first second where
  outcomes := by
    intro left right abreast _
    rw [firstTotal, secondTotal]
    exact .completed (still left right abreast)
  stays := by
    intro left gone
    rw [firstTotal]
    exact (place left).symm ▸ gone

/-- Jumps that belong together lead to labels that have or have not been placed. -/
theorem inStep_resolveJumps : c.InStep anyKind resolveJumps resolveJumps where
  outcomes := by
    intro left right abreast _
    have found := find?_sameJump (List.rel_reverse abreast.jumps) fun label =>
      !left.labels.contains label
    have sameTest : (fun jump : Jump => !right.labels.contains jump.label) =
        fun jump => !left.labels.contains jump.label := by
      simp only [abreast.contains_label]
    unfold resolveJumps Labels.firstUnresolved
    rw [sameTest]
    rcases found with ⟨noLeft, noRight⟩ | ⟨jump, other, foundLeft, foundRight, sameJump⟩
    · rw [noLeft, noRight]
      exact .completed abreast
    · rw [foundLeft, foundRight]
      dsimp only
      rw [← sameJump.label]
      exact .refused abreast sameJump.line sameJump.spot
  stays := by
    intro state gone
    unfold resolveJumps
    split <;> exact gone

/-- Moving over a token where that keeps the passes together. -/
theorem inStep_advance_bind {starts : Kind → Prop}
    (tokens : ∀ {left right}, c.places left right → left.current.token = right.current.token)
    (moves : ∀ {left right}, c.places left right → starts left.current.kind → c.Moves left right)
    (stays : Stays c.parted (advance : Pass σ Located))
    {firstNext : Located → Pass σ α} {secondNext : Located → Pass τ α}
    (next : ∀ here there : Located, here.token = there.token →
      c.InStep anyKind (firstNext here) (secondNext there)) :
    c.InStep starts (advance >>= firstNext) (advance >>= secondNext) where
  outcomes := by
    intro left right abreast started
    cases moves abreast.place started with
    | together leftMoved rightMoved places =>
      rw [bind_ok (advance_of_move leftMoved), bind_ok (advance_of_move rightMoved)]
      exact (next _ _ (tokens abreast.place)).outcomes _ _ { abreast with place := places } trivial
    | faulty stuck =>
      change c.Outcomes (EStateM.bind advance firstNext left) _
      unfold EStateM.bind
      rw [advance_of_fault stuck]
      exact .faulty
    | parted moved gone =>
      refine .parted ?_
      rw [bind_ok (advance_of_move moved)]
      exact (next left.current left.current rfl).stays _ gone
  stays := stays.bind fun here => (next here here rfl).stays

/-- Two steps that go on like steps in lockstep, whichever states they start from. -/
theorem InStep.of_pointwise {starts : Kind → Prop} {first : Pass σ α} {second : Pass τ α}
    (each : ∀ left right, c.Abreast left right → starts left.current.kind →
      ∃ firstNext secondNext, c.InStep (fun kind => starts kind ∧ kind = left.current.kind)
        firstNext secondNext ∧ first left = firstNext left ∧ second right = secondNext right)
    (stays : Stays c.parted first) : c.InStep starts first second where
  outcomes := by
    intro left right abreast started
    obtain ⟨firstNext, secondNext, inStep, same, sameOther⟩ := each left right abreast started
    rw [same, sameOther]
    exact inStep.outcomes left right abreast ⟨started, rfl⟩
  stays := stays

section Steps

variable [Sink σ] [Sink τ] (lawful : c.Lawful)

namespace Lawful

include lawful

theorem stays_advance : Stays c.parted (advance : Pass σ Located) :=
  .advance lawful.partedMove

theorem stays_lineBreak : Stays c.parted (Pass.lineBreak : Pass σ Unit) := by
  have nextLine_stays : Stays c.parted (nextLine : Pass σ Unit) :=
    fun _ gone => lawful.partedLine gone
  have lineEnd_stays : Stays c.parted (lineEnd : Pass σ Unit) :=
    lawful.stays_advance.bind fun _ => nextLine_stays
  exact lawful.stays_advance.bind fun _ => nextLine_stays.bind fun _ =>
    lineEnd_stays.repeatWhile uses_lineEnd

theorem refuse {starts : Kind → Prop} (refusal : Refusal) :
    c.InStep starts (Pass.refuse refusal : Pass σ α) (Pass.refuse refusal) where
  outcomes := fun _ _ abreast _ =>
    .refused abreast (lawful.line abreast.place) (lawful.spot abreast.place)
  stays := fun _ gone => gone

theorem write {starts : Kind → Prop} {first : Pass σ Unit} {second : Pass τ Unit} (call : Call)
    (firstWrites : ∀ left, first left = .ok () { left with sink := Sink.perform left.sink call })
    (secondWrites : ∀ right,
      second right = .ok () { right with sink := Sink.perform right.sink call }) :
    c.InStep starts first second :=
  inStep_of_total firstWrites secondWrites (fun _ => rfl) fun _ _ abreast =>
    { abreast with sink := lawful.perform call abreast.sink }

theorem emit {starts : Kind → Prop} (text : String) :
    c.InStep starts (Pass.emit text) (Pass.emit text) :=
  lawful.write (.emit text) (fun _ => rfl) fun _ => rfl

theorem emitLine {starts : Kind → Prop} (text : String) :
    c.InStep starts (Pass.emitLine text) (Pass.emitLine text) :=
  lawful.write (.line text) (fun _ => rfl) fun _ => rfl

theorem headerLine {starts : Kind → Prop} (text : String) :
    c.InStep starts (Pass.headerLine text) (Pass.headerLine text) :=
  lawful.write (.header text) (fun _ => rfl) fun _ => rfl

omit lawful [Sink σ] [Sink τ] in
theorem forM {first : String → Pass σ Unit} {second : String → Pass τ Unit}
    (each : ∀ line, c.InStep anyKind (first line) (second line)) (lines : List String) :
    c.InStep anyKind (lines.forM first) (lines.forM second) := by
  induction lines with
  | nil => exact .pure ()
  | cons line lines ih => exact (each line).bind fun _ => ih

/-- Moving over a token that is no line end. -/
theorem advance_bind {firstNext : Located → Pass σ α} {secondNext : Located → Pass τ α}
    (next : ∀ here there : Located, here.token = there.token →
      c.InStep anyKind (firstNext here) (secondNext there)) :
    c.InStep (fun kind => kind ≠ .newline) (Pass.advance >>= firstNext)
      (Pass.advance >>= secondNext) :=
  inStep_advance_bind lawful.token
    (fun places notNewline => lawful.move places fun isNewline =>
      notNewline (congrArg Token.kind isNewline)) lawful.stays_advance next

theorem stays_expect (wanted : Kind) : Stays c.parted (expect wanted : Pass σ Located) := by
  intro state gone
  rw [expect_eq]
  split
  · exact lawful.stays_advance state gone
  · exact gone

theorem expect_bind {starts : Kind → Prop} {wanted : Kind} (notNewline : wanted ≠ .newline)
    {first : Pass σ α} {second : Pass τ α} (next : c.InStep anyKind first second) :
    c.InStep starts (expect wanted >>= fun _ => first) (expect wanted >>= fun _ => second) := by
  refine .of_pointwise (fun left right abreast _ => ?_)
    ((lawful.stays_expect wanted).bind fun _ => next.stays)
  have sameKind : right.current.kind = left.current.kind :=
    congrArg Token.kind (lawful.token abreast.place).symm
  simp only [expect_bind_eq, sameKind]
  by_cases found : left.current.kind = wanted
  · simp only [if_pos found]
    refine ⟨_, _, (lawful.advance_bind fun _ _ _ => next).mono fun kind here => ?_, rfl, rfl⟩
    rw [here.2, found]
    exact notNewline
  · simp only [if_neg found]
    exact ⟨_, _, lawful.refuse _, rfl, rfl⟩

theorem copyToken : c.InStep (fun kind => kind ≠ .newline) Pass.copyToken Pass.copyToken :=
  lawful.advance_bind fun here there same => by
    rw [same]
    exact lawful.emit there.token.text

theorem branch (starts : Kind → Prop) (test : Kind → Bool) {firstYes firstNo : Pass σ α}
    {secondYes secondNo : Pass τ α}
    (yes : c.InStep (fun kind => starts kind ∧ test kind = true) firstYes secondYes)
    (no : c.InStep (fun kind => starts kind ∧ test kind = false) firstNo secondNo) :
    c.InStep starts (current >>= fun here => if test here.kind then firstYes else firstNo)
      (current >>= fun here => if test here.kind then secondYes else secondNo) := by
  refine .of_current lawful.token fun here there same => ?_
  rw [show there.kind = here.kind from congrArg Token.kind same.symm]
  cases passes : test here.kind with
  | true => exact yes.mono fun kind here => ⟨here.1, here.2 ▸ passes⟩
  | false => exact no.mono fun kind here => ⟨here.1, here.2 ▸ passes⟩

/-- A loop that goes on by the kind of the token both passes stand at. -/
theorem repeatWhile {test : Kind → Bool} {first : Pass σ Unit} {second : Pass τ Unit}
    (firstUses : Uses (fun state => standsAt test state = true) first)
    (secondUses : Uses (fun state => standsAt test state = true) second)
    (round : c.InStep (fun kind => test kind = true) first second) :
    c.InStep anyKind (Pass.repeatWhile (standsAt test) first firstUses)
      (Pass.repeatWhile (standsAt test) second secondUses) := by
  refine InStep.repeatWhile firstUses secondUses (fun left right abreast => ?_) (fun _ goesOn => goesOn)
    round
  exact congrArg (fun token => test token.kind) (lawful.token abreast.place)

/-! ### Expressions -/

theorem operand : c.InStep anyKind Pass.operand Pass.operand := by
  refine .of_pointwise (fun left right abreast _ => ?_) fun state gone => ?_
  · have sameToken : right.current.token = left.current.token := (lawful.token abreast.place).symm
    have copying : left.current.kind ≠ .newline →
        c.InStep (fun kind => anyKind kind ∧ kind = left.current.kind) Pass.copyToken
          (Pass.copyToken : Pass τ Unit) :=
      fun notNewline => lawful.copyToken.mono fun kind here => here.2 ▸ notNewline
    unfold Pass.operand
    rw [sameToken, ← abreast.declared]
    cases token : left.current.token with
    | number digits => exact ⟨_, _, copying (by simp [Located.kind, token, Token.kind]), rfl, rfl⟩
    | name name =>
      dsimp only
      split
      · exact ⟨_, _, copying (by simp [Located.kind, token, Token.kind]), rfl, rfl⟩
      · exact ⟨_, _, lawful.refuse _, rfl, rfl⟩
    | _ => exact ⟨_, _, lawful.refuse _, rfl, rfl⟩
  · unfold Pass.operand
    split
    · exact lawful.copyToken.stays state gone
    · split
      · exact lawful.copyToken.stays state gone
      · exact gone
    · exact gone

theorem signedOperand : c.InStep anyKind Pass.signedOperand Pass.signedOperand :=
  lawful.branch anyKind Kind.isSign
    ((lawful.copyToken.bind fun _ => lawful.operand).mono fun kind here isNewline => by
      rw [isNewline] at here
      cases here.2)
    (lawful.operand.mono fun _ _ => trivial)

omit lawful in
theorem ne_newline {test : Kind → Bool} (rejects : test .newline = false) {kind : Kind}
    (passes : test kind = true) : kind ≠ .newline := by
  rintro rfl
  rw [rejects] at passes
  cases passes

theorem term : c.InStep anyKind Pass.term Pass.term :=
  lawful.signedOperand.bind fun _ => lawful.repeatWhile uses_scalingRound uses_scalingRound
    ((lawful.copyToken.bind fun _ => lawful.signedOperand).mono fun _ => ne_newline rfl)

theorem expression : c.InStep anyKind Pass.expression Pass.expression := by
  have spaced := lawful.branch anyKind Kind.isSign
    ((lawful.emit " ").bind fun _ => lawful.term) (lawful.term.mono fun _ _ => trivial)
  exact lawful.term.bind fun _ => lawful.repeatWhile uses_signRound uses_signRound
    ((lawful.copyToken.bind fun _ => spaced).mono fun _ => ne_newline rfl)

theorem condition : c.InStep anyKind Pass.condition Pass.condition := by
  have round : c.InStep (fun kind => kind.isComparison = true) comparisonRound comparisonRound :=
    (lawful.copyToken.bind fun _ => lawful.expression).mono fun _ => ne_newline rfl
  have comparisons := lawful.repeatWhile uses_comparisonRound uses_comparisonRound round
  refine lawful.expression.bind fun _ => .of_current lawful.token fun here there same => ?_
  rw [show there.kind = here.kind from congrArg Token.kind same.symm, same]
  split
  · exact comparisons.mono fun _ _ => trivial
  · exact lawful.refuse _

/-! ### Statements -/

theorem endOfLine : c.InStep anyKind Pass.endOfLine Pass.endOfLine := by
  refine .of_pointwise (fun left right abreast _ => ?_)
    ((lawful.stays_expect .newline).bind fun _ => ?_)
  · have sameKind : right.current.kind = left.current.kind :=
      congrArg Token.kind (lawful.token abreast.place).symm
    unfold Pass.endOfLine
    simp only [expect_bind_eq, sameKind]
    by_cases found : left.current.kind = .newline
    · simp only [if_pos found]
      refine ⟨Pass.lineBreak, Pass.lineBreak, ⟨fun left right abreast here => ?_,
        lawful.stays_lineBreak⟩, rfl, rfl⟩
      refine lawful.lineBreak left right abreast ?_
      have isNewline : left.current.token.kind = .newline := here.2.trans found
      cases token : left.current.token <;> simp_all [Token.kind]
    · simp only [if_neg found]
      exact ⟨_, _, lawful.refuse _, rfl, rfl⟩
  · have nextLine_stays : Stays c.parted (nextLine : Pass σ Unit) :=
      fun _ gone => lawful.partedLine gone
    exact nextLine_stays.bind fun _ =>
      (lawful.stays_advance.bind fun _ => nextLine_stays).repeatWhile uses_lineEnd

theorem freshName : c.InStep anyKind Pass.freshName Pass.freshName := by
  refine .of_current lawful.token fun here there same => ?_
  rw [← same]
  cases token : here.token with
  | name name =>
    dsimp only
    split
    · exact lawful.refuse _
    · refine (lawful.advance_bind fun _ _ _ => .pure name).mono fun kind found => ?_
      rw [found.2, Located.kind, token]
      simp [Token.kind]
  | _ => exact lawful.refuse _

theorem labelName : c.InStep anyKind Pass.labelName Pass.labelName := by
  refine .of_pointwise (fun left right abreast _ => ?_) fun state gone => ?_
  · have sameToken : right.current.token = left.current.token := (lawful.token abreast.place).symm
    have fresh : c.InStep (fun kind => anyKind kind ∧ kind = left.current.kind) Pass.freshName
        Pass.freshName := lawful.freshName.mono fun _ _ => trivial
    unfold Pass.labelName
    rw [sameToken]
    cases token : left.current.token with
    | name name =>
      dsimp only
      rw [← abreast.contains_label]
      split
      · exact ⟨_, _, lawful.refuse _, rfl, rfl⟩
      · exact ⟨_, _, fresh, rfl, rfl⟩
    | _ => exact ⟨_, _, fresh, rfl, rfl⟩
  · unfold Pass.labelName
    split
    · split
      · exact gone
      · exact lawful.freshName.stays state gone
    · exact lawful.freshName.stays state gone

theorem declareVariable (name : String) :
    c.InStep anyKind (Pass.declareVariable name) (Pass.declareVariable name) where
  outcomes := by
    intro left right abreast _
    unfold Pass.declareVariable
    rw [show right.declared.contains name = left.declared.contains name by rw [abreast.declared]]
    split
    · exact .completed abreast
    · exact .completed
        { abreast with
          sink := lawful.perform (.header (CLines.declaration name)) abreast.sink
          declared := congrArg (·.insert name) abreast.declared }
  stays := by
    intro state gone
    unfold Pass.declareVariable
    split <;> exact gone

theorem printStatement : c.InStep anyKind Pass.printStatement Pass.printStatement := by
  refine .of_current lawful.token fun here there same => ?_
  rw [← same]
  have opening : c.InStep (fun kind => anyKind kind ∧ kind = here.kind)
      (Pass.emit CLines.printOpening) (Pass.emit CLines.printOpening) := lawful.emit _
  have value := opening.bind fun _ =>
    lawful.expression.bind fun _ => lawful.emitLine CLines.printClosing
  cases token : here.token with
  | string body =>
    refine (lawful.advance_bind fun _ _ _ => lawful.emitLine _).mono fun kind found => ?_
    rw [found.2, Located.kind, token]
    simp [Token.kind]
  | _ => exact value

theorem labelStatement : c.InStep anyKind Pass.labelStatement Pass.labelStatement := by
  refine lawful.labelName.bind fun name => InStep.bind ?_ fun _ => lawful.emitLine _
  refine inStep_of_total (fun _ => rfl) (fun _ => rfl) (fun _ => rfl) fun left right abreast => ?_
  refine { abreast with labels := ?_, jumps := ?_ } <;>
    simp only [Labels.insert, abreast.contains_label] <;> split
  · exact abreast.labels
  · exact congrArg (name :: ·) abreast.labels
  · exact abreast.jumps
  · exact abreast.jumps

/-- The span of the name goes into the books together with the name. -/
theorem gotoStatement : c.InStep anyKind Pass.gotoStatement Pass.gotoStatement := by
  refine .of_pointwise (fun left right abreast _ => ?_) ?_
  · have spot := lawful.spot abreast.place
    have sameToken : right.current.token = left.current.token := (lawful.token abreast.place).symm
    simp only [gotoStatement_eq, sameToken]
    cases token : left.current.token with
    | name name =>
      dsimp only
      split
      · exact ⟨_, _, lawful.refuse _, rfl, rfl⟩
      · refine ⟨_, _, (lawful.advance_bind fun _ _ _ => ?_).mono fun kind found => ?_, rfl, rfl⟩
        · refine InStep.bind (inStep_of_total (fun _ => rfl) (fun _ => rfl) (fun _ => rfl) ?_)
            fun _ => lawful.emitLine _
          intro here there still
          refine { still with jumps := .cons ⟨rfl, ?_, lawful.line still.place⟩ still.jumps }
          rw [← token]
          exact spot
        · rw [found.2, Located.kind, token]
          simp [Token.kind]
    | _ => exact ⟨_, _, lawful.refuse _, rfl, rfl⟩
  · intro state gone
    have addJump_stays : ∀ name span, Stays c.parted (addJump name span : Pass σ Unit) :=
      fun _ _ _ gone => gone
    have emitLine_stays : ∀ text, Stays c.parted (Pass.emitLine text : Pass σ Unit) :=
      fun _ _ gone => gone
    exact (lawful.freshName.stays.bind fun name => (addJump_stays name state.current.span).bind
      fun _ => emitLine_stays _) state gone

theorem letStatement : c.InStep anyKind Pass.letStatement Pass.letStatement :=
  lawful.freshName.bind fun name => (lawful.declareVariable name).bind fun _ =>
    (lawful.emit _).bind fun _ => lawful.expect_bind (by simp) <|
      lawful.expression.bind fun _ => lawful.emitLine _

theorem inputStatement : c.InStep anyKind Pass.inputStatement Pass.inputStatement :=
  lawful.freshName.bind fun name => (lawful.declareVariable name).bind fun _ =>
    forM (fun line => lawful.emitLine line) _

theorem randomStatement : c.InStep anyKind Pass.randomStatement Pass.randomStatement :=
  lawful.freshName.bind fun _ => (lawful.emitLine _).bind fun _ => lawful.emitLine _

theorem openBlock (block : Block) :
    c.InStep anyKind (Pass.openBlock block) (Pass.openBlock block) := by
  have entering : c.InStep anyKind (enterBlock block) (enterBlock block) :=
    inStep_of_total (fun _ => rfl) (fun _ => rfl) (fun _ => rfl) fun left right abreast =>
      { abreast with blocks := congrArg (block :: ·) abreast.blocks }
  exact (lawful.emit _).bind fun _ => lawful.condition.bind fun _ => lawful.expect_bind (by simp) <|
    lawful.endOfLine.bind fun _ => (lawful.emitLine _).bind fun _ => entering

theorem closeBlock (block : Block) (outer : List Block) :
    c.InStep anyKind (Pass.closeBlock block outer) (Pass.closeBlock block outer) := by
  have leaving : c.InStep anyKind (leaveBlock outer) (leaveBlock outer) :=
    inStep_of_total (fun _ => rfl) (fun _ => rfl) (fun _ => rfl) fun left right abreast =>
      { abreast with blocks := rfl }
  exact lawful.expect_bind (by simp) <| (lawful.emitLine _).bind fun _ => leaving.bind fun _ =>
    lawful.endOfLine

theorem statementRest? (word : Keyword) :
    (∃ first second, Pass.statementRest? word = some first ∧ Pass.statementRest? word = some second ∧
      c.InStep anyKind first second) ∨
    (Pass.statementRest? (σ := σ) word = none ∧ Pass.statementRest? (σ := τ) word = none) := by
  cases word with
  | print => exact .inl ⟨_, _, rfl, rfl, lawful.printStatement.bind fun _ => lawful.endOfLine⟩
  | label => exact .inl ⟨_, _, rfl, rfl, lawful.labelStatement.bind fun _ => lawful.endOfLine⟩
  | goto => exact .inl ⟨_, _, rfl, rfl, lawful.gotoStatement.bind fun _ => lawful.endOfLine⟩
  | let_ => exact .inl ⟨_, _, rfl, rfl, lawful.letStatement.bind fun _ => lawful.endOfLine⟩
  | input => exact .inl ⟨_, _, rfl, rfl, lawful.inputStatement.bind fun _ => lawful.endOfLine⟩
  | rnd => exact .inl ⟨_, _, rfl, rfl, lawful.randomStatement.bind fun _ => lawful.endOfLine⟩
  | if_ => exact .inl ⟨_, _, rfl, rfl, lawful.openBlock .conditional⟩
  | while_ => exact .inl ⟨_, _, rfl, rfl, lawful.openBlock .loop⟩
  | _ => exact .inr ⟨rfl, rfl⟩

theorem statement : c.InStep anyKind Pass.statement Pass.statement := by
  have noting : c.InStep anyKind noteStatement noteStatement :=
    inStep_of_total (fun _ => rfl) (fun _ => rfl) (fun _ => rfl) fun _ _ abreast => { abreast with }
  refine noting.bind fun _ => .of_current lawful.token fun here there same => ?_
  rw [← same]
  cases token : here.token with
  | keyword word =>
    rcases lawful.statementRest? word with
      ⟨first, second, foundFirst, foundSecond, inStep⟩ | ⟨noFirst, noSecond⟩
    · simp only [foundFirst, foundSecond]
      refine (lawful.advance_bind fun _ _ _ => inStep).mono fun kind found => ?_
      rw [found.2, Located.kind, token]
      simp [Token.kind]
    · simp only [noFirst, noSecond]
      exact lawful.refuse _
  | _ => exact lawful.refuse _

theorem turn : c.InStep anyKind Pass.turn Pass.turn := by
  refine .of_pointwise (fun left right abreast _ => ?_) fun state gone => ?_
  · have sameToken : right.current.token = left.current.token := (lawful.token abreast.place).symm
    have stating : c.InStep (fun kind => anyKind kind ∧ kind = left.current.kind) Pass.statement
        Pass.statement := lawful.statement.mono fun _ _ => trivial
    unfold Pass.turn
    rw [sameToken, ← abreast.blocks]
    cases left.openBlocks with
    | nil => exact ⟨_, _, stating, rfl, rfl⟩
    | cons block outer =>
      dsimp only
      split
      · exact ⟨_, _, (lawful.closeBlock block outer).mono fun _ _ => trivial, rfl, rfl⟩
      · exact ⟨_, _, stating, rfl, rfl⟩
  · unfold Pass.turn
    split
    · exact lawful.statement.stays state gone
    · split
      · exact (lawful.closeBlock _ _).stays state gone
      · exact lawful.statement.stays state gone

/-! ### Programs -/

theorem turns : c.InStep anyKind Pass.turns Pass.turns := by
  refine InStep.repeatWhile uses_unfinished_turn uses_unfinished_turn (fun left right abreast => ?_)
    (fun _ _ => trivial) lawful.turn
  have sameToken : right.current.token = left.current.token := (lawful.token abreast.place).symm
  simp only [State.finished, sameToken, abreast.blocks]

/-- What is left of a program after the empty lines at its start. -/
theorem body : c.InStep anyKind
    (do Pass.turns; CLines.epilogue.forM Pass.emitLine; resolveJumps)
    (do Pass.turns; CLines.epilogue.forM Pass.emitLine; resolveJumps) :=
  lawful.turns.bind fun _ => (forM (fun line => lawful.emitLine line) _).bind fun _ =>
    inStep_resolveJumps

theorem prologue : c.InStep anyKind (CLines.prologue.forM Pass.headerLine)
    (CLines.prologue.forM Pass.headerLine) :=
  forM (fun line => lawful.headerLine line) _

end Lawful

end Steps

/-! ## Passes over the same layout -/

/-- A comparison for which a line end is a token like any other. -/
structure Uniform [Sink σ] [Sink τ] (c : Pairing σ τ) : Prop where
  token : ∀ {left right}, c.places left right → left.current.token = right.current.token
  spot : ∀ {left right}, c.places left right →
    c.spots left.current.token left.current.span right.current.span
  line : ∀ {left right}, c.places left right → c.lines left.line right.line
  perform : ∀ {left right} (call : Call), c.sinks left right →
    c.sinks (Sink.perform left call) (Sink.perform right call)
  move : ∀ {left right}, c.places left right → c.Moves left right
  nextLine : ∀ {left right}, c.places left right →
    c.places { left with line := left.line + 1 } { right with line := right.line + 1 }
  partedMove : ∀ {place after}, c.parted place → place.move = .ok after → c.parted after
  partedLine : ∀ {place : Place}, c.parted place → c.parted { place with line := place.line + 1 }

namespace Uniform

variable [Sink σ] [Sink τ] (uniform : c.Uniform)

include uniform

theorem lineEnd_bind {first : Pass σ α} {second : Pass τ α} (next : c.InStep anyKind first second) :
    c.InStep anyKind (do let _ ← advance; Pass.nextLine; first)
      (do let _ ← advance; Pass.nextLine; second) := by
  refine inStep_advance_bind uniform.token (fun places _ => uniform.move places)
    (.advance uniform.partedMove) fun _ _ _ => InStep.bind ⟨?_, ?_⟩ fun _ => next
  · exact fun _ _ abreast _ => .completed { abreast with place := uniform.nextLine abreast.place }
  · exact fun _ gone => uniform.partedLine gone

theorem blankLines : c.InStep anyKind Pass.blankLines Pass.blankLines := by
  refine InStep.repeatWhile uses_lineEnd uses_lineEnd (fun left right abreast => ?_)
    (fun _ _ => trivial) (uniform.lineEnd_bind (.pure ()))
  exact congrArg (fun token => Kind.isNewline token.kind) (uniform.token abreast.place)

private theorem lawful : c.Lawful where
  token := uniform.token
  spot := uniform.spot
  line := uniform.line
  perform := uniform.perform
  move := fun places _ => uniform.move places
  lineBreak := fun left right abreast _ =>
    (uniform.lineEnd_bind uniform.blankLines).outcomes left right abreast trivial
  partedMove := uniform.partedMove
  partedLine := uniform.partedLine

theorem program : c.InStep anyKind Pass.program Pass.program :=
  uniform.lawful.prologue.bind fun _ => uniform.blankLines.bind fun _ => uniform.lawful.body

end Uniform

end Pairing

end TeenyBasic
