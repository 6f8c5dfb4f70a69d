import TeenyBasic.Proofs.Pass.Program

/-!
A run on one sink redirected to another. The pass writes to its sink and never looks at it, so a map
between sinks that keeps their calls (`Sink.Redirects`) turns every run on the one into the run on the
other, up to the state in which it ends (`run_redirect`). Since a transcript can be replayed on any sink,
every run is that of a transcript, redirected (`run_eq_redirect_transcript`).
-/

set_option autoImplicit false

namespace TeenyBasic

variable {σ τ α β : Type}

/-- A call before the change of sinks has the same effect as after it. -/
def Sink.Redirects [Sink σ] [Sink τ] (change : σ → τ) : Prop :=
  ∀ sink call, change (Sink.perform sink call) = Sink.perform (change sink) call

def State.redirect (change : σ → τ) (state : State σ) : State τ :=
  { state with sink := change state.sink }

namespace State

variable (change : σ → τ) (state : State σ)

@[simp] theorem current_redirect : (state.redirect change).current = state.current := rfl

@[simp] theorem feed_redirect : (state.redirect change).feed = state.feed := rfl

@[simp] theorem declared_redirect : (state.redirect change).declared = state.declared := rfl

@[simp] theorem labels_redirect : (state.redirect change).labels = state.labels := rfl

@[simp] theorem openBlocks_redirect : (state.redirect change).openBlocks = state.openBlocks := rfl

end State

namespace Pass

def redirected (change : σ → τ) :
    EStateM.Result Failure (State σ) α → EStateM.Result Failure (State τ) α
  | .ok value state => .ok value (state.redirect change)
  | .error failure state => .error failure (state.redirect change)

/-- A step on the one sink and a step on the other end alike from alike states. -/
def Carries (change : σ → τ) (first : Pass σ α) (second : Pass τ α) : Prop :=
  ∀ state, second (state.redirect change) = redirected change (first state)

variable {change : σ → τ}

/-! ## Sequencing and loops -/

namespace Carries

variable {first : Pass σ α} {second : Pass τ α}

theorem bind {firstNext : α → Pass σ β} {secondNext : α → Pass τ β}
    (step : Carries change first second)
    (next : ∀ value, Carries change (firstNext value) (secondNext value)) :
    Carries change (first >>= firstNext) (second >>= secondNext) := by
  intro state
  have carried := step state
  cases ran : first state with
  | ok value after =>
    rw [ran] at carried
    rw [bind_ok ran, bind_ok carried]
    exact next value after
  | error failure after =>
    rw [ran] at carried
    rw [bind_error ran, bind_error carried]
    rfl

theorem pure (value : α) : Carries change (Pure.pure value) (Pure.pure value) :=
  fun _ => rfl

theorem refuse (refusal : Refusal) :
    Carries (α := α) change (Pass.refuse refusal) (Pass.refuse refusal) :=
  fun _ => rfl

theorem current : Carries change Pass.current Pass.current :=
  fun _ => rfl

theorem forM {first : String → Pass σ Unit} {second : String → Pass τ Unit}
    (each : ∀ line, Carries change (first line) (second line)) (lines : List String) :
    Carries change (lines.forM first) (lines.forM second) := by
  induction lines with
  | nil => exact .pure ()
  | cons line lines ih => exact (each line).bind fun _ => ih

theorem repeatWhile {firstMore : State σ → Bool} {secondMore : State τ → Bool} {first : Pass σ Unit}
    {second : Pass τ Unit} (firstUses : Uses (fun state => firstMore state = true) first)
    (secondUses : Uses (fun state => secondMore state = true) second)
    (same : ∀ state, secondMore (state.redirect change) = firstMore state)
    (round : Carries change first second) :
    Carries change (Pass.repeatWhile firstMore first firstUses)
      (Pass.repeatWhile secondMore second secondUses) := by
  intro state
  fun_induction Pass.repeatWhile firstMore first firstUses state with
  | case1 state goesOn between ran ih =>
    have carried := round state
    rw [ran] at carried
    rw [repeatWhile_of_ok secondUses ((same state).trans goesOn) carried, ih]
  | case2 state goesOn failure after ran =>
    have carried := round state
    rw [ran] at carried
    rw [repeatWhile_of_goesOn secondUses ((same state).trans goesOn), bind_error carried]
    rfl
  | case3 state stopped =>
    rw [repeatWhile_of_stopped secondUses ((same state).trans (Bool.eq_false_iff.mpr stopped))]
    rfl

end Carries

/-! ## Moving on -/

theorem carries_advance : Carries change advance advance := by
  intro state
  unfold advance
  rw [State.feed_redirect]
  cases state.feed.draw <;> rfl

theorem carries_expect (wanted : Kind) : Carries change (expect wanted) (expect wanted) := by
  refine Carries.current.bind fun here => ?_
  split
  · exact carries_advance
  · exact .refuse _

theorem carries_nextLine : Carries change nextLine nextLine :=
  fun _ => rfl

theorem carries_blankLines : Carries change blankLines blankLines :=
  .repeatWhile _ _ (fun _ => rfl) (carries_advance.bind fun _ => carries_nextLine)

theorem carries_endOfLine : Carries change endOfLine endOfLine :=
  (carries_expect _).bind fun _ => carries_nextLine.bind fun _ => carries_blankLines

theorem carries_freshName : Carries change freshName freshName := by
  refine Carries.current.bind fun here => ?_
  cases here.token with
  | name name =>
    dsimp only
    split
    · exact .refuse _
    · exact carries_advance.bind fun _ => .pure name
  | _ => exact .refuse _

theorem carries_labelName : Carries change labelName labelName := by
  intro state
  have fresh : freshName (state.redirect change) = redirected change (freshName state) :=
    carries_freshName state
  unfold labelName
  rw [State.current_redirect, State.labels_redirect]
  cases state.current.token with
  | name name =>
    dsimp only
    split
    · rfl
    · exact fresh
  | _ => exact fresh

/-! ## Writing -/

section Writing

variable [Sink σ] [Sink τ] (redirects : Sink.Redirects change)

include redirects

theorem carries_write {first : Pass σ Unit} {second : Pass τ Unit} (call : Call)
    (firstWrites : ∀ state, first state = .ok () { state with sink := Sink.perform state.sink call })
    (secondWrites : ∀ state, second state = .ok () { state with sink := Sink.perform state.sink call }) :
    Carries change first second := by
  intro state
  rw [firstWrites, secondWrites]
  simp only [redirected, State.redirect, redirects state.sink call]

theorem carries_emit (text : String) : Carries change (emit text) (emit text) :=
  carries_write redirects (.emit text) (fun _ => rfl) fun _ => rfl

theorem carries_emitLine (text : String) : Carries change (emitLine text) (emitLine text) :=
  carries_write redirects (.line text) (fun _ => rfl) fun _ => rfl

theorem carries_headerLine (text : String) : Carries change (headerLine text) (headerLine text) :=
  carries_write redirects (.header text) (fun _ => rfl) fun _ => rfl

theorem carries_copyToken : Carries change copyToken copyToken :=
  carries_advance.bind fun _ => carries_emit redirects _

theorem carries_declareVariable (name : String) :
    Carries change (declareVariable name) (declareVariable name) := by
  intro state
  have written : change (Sink.headerLine state.sink (CLines.declaration name)) =
      Sink.headerLine (change state.sink) (CLines.declaration name) :=
    redirects state.sink (.header (CLines.declaration name))
  unfold declareVariable
  rw [State.declared_redirect]
  split
  · rfl
  · simp only [redirected, State.redirect, written]

/-! ### Expressions -/

theorem carries_operand : Carries change operand operand := by
  intro state
  have copied : copyToken (state.redirect change) = redirected change (copyToken state) :=
    carries_copyToken redirects state
  unfold operand
  rw [State.current_redirect, State.declared_redirect]
  cases state.current.token with
  | number digits => exact copied
  | name name =>
    dsimp only
    split
    · exact copied
    · rfl
  | _ => rfl

theorem carries_signedOperand : Carries change signedOperand signedOperand := by
  refine Carries.current.bind fun here => ?_
  split
  · exact (carries_copyToken redirects).bind fun _ => carries_operand redirects
  · exact carries_operand redirects

theorem carries_term : Carries change term term :=
  (carries_signedOperand redirects).bind fun _ => .repeatWhile _ _ (fun _ => rfl)
    ((carries_copyToken redirects).bind fun _ => carries_signedOperand redirects)

theorem carries_signRound : Carries change signRound signRound := by
  refine (carries_copyToken redirects).bind fun _ => Carries.current.bind fun here => ?_
  split
  · exact (carries_emit redirects _).bind fun _ => carries_term redirects
  · exact carries_term redirects

theorem carries_expression : Carries change expression expression :=
  (carries_term redirects).bind fun _ => .repeatWhile _ _ (fun _ => rfl) (carries_signRound redirects)

theorem carries_condition : Carries change condition condition := by
  refine (carries_expression redirects).bind fun _ => Carries.current.bind fun here => ?_
  split
  · exact .repeatWhile _ _ (fun _ => rfl)
      ((carries_copyToken redirects).bind fun _ => carries_expression redirects)
  · exact .refuse _

/-! ### Statements -/

theorem carries_printStatement : Carries change printStatement printStatement := by
  refine Carries.current.bind fun here => ?_
  cases here.token with
  | string body => exact carries_advance.bind fun _ => carries_emitLine redirects _
  | _ =>
    exact (carries_emit redirects _).bind fun _ => (carries_expression redirects).bind fun _ =>
      carries_emitLine redirects _

theorem carries_labelStatement : Carries change labelStatement labelStatement := by
  refine carries_labelName.bind fun name => Carries.bind ?_ fun _ => carries_emitLine redirects _
  exact fun _ => rfl

theorem carries_gotoStatement : Carries change gotoStatement gotoStatement := by
  refine Carries.current.bind fun here => carries_freshName.bind fun name => Carries.bind ?_ fun _ =>
    carries_emitLine redirects _
  exact fun _ => rfl

theorem carries_letStatement : Carries change letStatement letStatement :=
  carries_freshName.bind fun _ => (carries_declareVariable redirects _).bind fun _ =>
    (carries_emit redirects _).bind fun _ => (carries_expect _).bind fun _ =>
      (carries_expression redirects).bind fun _ => carries_emitLine redirects _

theorem carries_inputStatement : Carries change inputStatement inputStatement :=
  carries_freshName.bind fun _ => (carries_declareVariable redirects _).bind fun _ =>
    .forM (carries_emitLine redirects) _

theorem carries_randomStatement : Carries change randomStatement randomStatement :=
  carries_freshName.bind fun _ => (carries_emitLine redirects _).bind fun _ =>
    carries_emitLine redirects _

theorem carries_openBlock (block : Block) : Carries change (openBlock block) (openBlock block) := by
  have entering : Carries change (enterBlock block) (enterBlock block) := fun _ => rfl
  exact (carries_emit redirects _).bind fun _ => (carries_condition redirects).bind fun _ =>
    (carries_expect _).bind fun _ => carries_endOfLine.bind fun _ =>
      (carries_emitLine redirects _).bind fun _ => entering

theorem carries_closeBlock (block : Block) (outer : List Block) :
    Carries change (closeBlock block outer) (closeBlock block outer) := by
  have leaving : Carries change (leaveBlock outer) (leaveBlock outer) := fun _ => rfl
  exact (carries_expect _).bind fun _ => (carries_emitLine redirects _).bind fun _ =>
    leaving.bind fun _ => carries_endOfLine

theorem carries_statementRest? (word : Keyword) :
    (∃ first second, statementRest? word = some first ∧ statementRest? word = some second ∧
      Carries change first second) ∨
    (statementRest? (σ := σ) word = none ∧ statementRest? (σ := τ) word = none) := by
  cases word with
  | print =>
    exact .inl ⟨_, _, rfl, rfl, (carries_printStatement redirects).bind fun _ => carries_endOfLine⟩
  | label =>
    exact .inl ⟨_, _, rfl, rfl, (carries_labelStatement redirects).bind fun _ => carries_endOfLine⟩
  | goto =>
    exact .inl ⟨_, _, rfl, rfl, (carries_gotoStatement redirects).bind fun _ => carries_endOfLine⟩
  | let_ =>
    exact .inl ⟨_, _, rfl, rfl, (carries_letStatement redirects).bind fun _ => carries_endOfLine⟩
  | input =>
    exact .inl ⟨_, _, rfl, rfl, (carries_inputStatement redirects).bind fun _ => carries_endOfLine⟩
  | rnd =>
    exact .inl ⟨_, _, rfl, rfl, (carries_randomStatement redirects).bind fun _ => carries_endOfLine⟩
  | if_ => exact .inl ⟨_, _, rfl, rfl, carries_openBlock redirects .conditional⟩
  | while_ => exact .inl ⟨_, _, rfl, rfl, carries_openBlock redirects .loop⟩
  | _ => exact .inr ⟨rfl, rfl⟩

theorem carries_statement : Carries change statement statement := by
  have noting : Carries change noteStatement noteStatement := fun _ => rfl
  refine noting.bind fun _ => Carries.current.bind fun here => ?_
  cases here.token with
  | keyword word =>
    rcases carries_statementRest? redirects word with
      ⟨first, second, foundFirst, foundSecond, carries⟩ | ⟨noFirst, noSecond⟩
    · simp only [foundFirst, foundSecond]
      exact carries_advance.bind fun _ => carries
    · simp only [noFirst, noSecond]
      exact .refuse _
  | _ => exact .refuse _

theorem carries_turn : Carries change turn turn := by
  intro state
  have stated : statement (state.redirect change) = redirected change (statement state) :=
    carries_statement redirects state
  unfold turn
  rw [State.openBlocks_redirect, State.current_redirect]
  cases state.openBlocks with
  | nil => exact stated
  | cons block outer =>
    dsimp only
    split
    · exact carries_closeBlock redirects block outer state
    · exact stated

theorem carries_program : Carries change program program := by
  have resolving : Carries change resolveJumps resolveJumps := by
    intro state
    unfold resolveJumps
    rw [State.labels_redirect]
    cases state.labels.firstUnresolved <;> rfl
  exact (Carries.forM (carries_headerLine redirects) _).bind fun _ => carries_blankLines.bind fun _ =>
    (Carries.repeatWhile _ _ (fun _ => rfl) (carries_turn redirects)).bind fun _ =>
      (Carries.forM (carries_emitLine redirects) _).bind fun _ => resolving

end Writing

end Pass

/-! ## Runs -/

def Run.redirect (change : σ → τ) : Run σ → Run τ
  | unstarted failure notes => unstarted failure notes
  | halted failure state => halted failure (state.redirect change)
  | completed state => completed (state.redirect change)

theorem run_redirect [Sink σ] [Sink τ] {change : σ → τ} (redirects : Sink.Redirects change) (sink : σ)
    (source : String) : run (change sink) source = (run sink source).redirect change := by
  have start : State.start (change sink) (feedOf source) =
      (State.start sink (feedOf source)).map (State.redirect change) := by
    unfold State.start
    cases (feedOf source).draw with
    | error error => rfl
    | ok pair =>
      obtain ⟨first, others⟩ := pair
      dsimp only
      cases others.draw <;> rfl
  unfold run runFeed
  rw [start]
  cases State.start sink (feedOf source) with
  | error failed => rfl
  | ok state =>
    have carried := Pass.carries_program redirects state
    dsimp only [Except.map]
    rw [carried]
    cases Pass.program state <;> rfl

theorem redirects_replay [Sink σ] (sink : σ) :
    Sink.Redirects fun transcript : Transcript => Sink.replay sink transcript.calls.toList := by
  intro transcript call
  dsimp only
  rw [transcript.calls_perform, Sink.replay_concat]

/-- On any sink a run makes the calls that it makes on a transcript, and ends in the same way. -/
theorem run_eq_redirect_transcript [Sink σ] (sink : σ) (source : String) :
    run sink source = (run ({} : Transcript) source).redirect
      fun transcript => Sink.replay sink transcript.calls.toList :=
  run_redirect (redirects_replay sink) {} source

end TeenyBasic
