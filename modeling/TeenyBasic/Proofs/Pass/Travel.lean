import TeenyBasic.Proofs.Pass.Position

/-!
The way of a pass through its input. A pass changes its state in four ways: it moves over a token, it
moves over a name and enters a jump, it moves over a line end and goes to the next line, or it does
something that has nothing to do with the input (`Change`). A step is a sequence of such changes, and
where it fails, the reason lies in the state it has come to (`Goes`). Everything that is said about
tokens, lines and jumps along a run follows from this.
-/

set_option autoImplicit false

namespace TeenyBasic

open Grammar Pass

variable {σ α β : Type}

def Note.token? : Note → Option Located
  | .token located => some located
  | _ => none

/-- The tokens that have been drawn, according to the notes. -/
def tokensDrawn (notes : Array Note) : List Located :=
  notes.toList.filterMap Note.token?

theorem tokensDrawn_push (notes : Array Note) (entry : Note) :
    tokensDrawn (notes.push entry) = tokensDrawn notes ++ entry.token?.toList := by
  cases entry <;> simp [tokensDrawn, Note.token?]

/-- The name a refusal is about. -/
def Refusal.name? : Refusal → Option String
  | .undefinedVariable name | .reservedName name | .duplicateLabel name | .undefinedLabel name =>
    some name
  | _ => none

namespace Pass

/-! ## Changes -/

/-- The pass has drawn one more token by moving over the one it stood at. -/
structure MovesOver (state : State σ) (next : Place) (after : State σ) : Prop where
  moved : state.place.move = .ok next
  notEnd : state.current.token ≠ .endOfInput
  drawn : tokensDrawn after.notes = tokensDrawn state.notes ++ [next.upcoming]

/-- The changes a pass is made of, each with the tokens it moves over. -/
inductive Change : State σ → List Located → State σ → Prop where
  | aside {state after : State σ} :
      after.place = state.place → tokensDrawn after.notes = tokensDrawn state.notes →
      after.labels.jumps = state.labels.jumps → Change state [] after
  | token {state after : State σ} {next : Place} :
      MovesOver state next after → after.place = next → state.current.token ≠ .newline →
      after.labels.jumps = state.labels.jumps → Change state [state.current] after
  | jump {state after : State σ} {next : Place} {name : String} :
      MovesOver state next after → after.place = next → state.current.token = .name name →
      after.labels.jumps = ⟨name, state.current.span, state.line⟩ :: state.labels.jumps →
      Change state [state.current] after
  | lineEnd {state after : State σ} {next : Place} :
      MovesOver state next after → after.place = { next with line := next.line + 1 } →
      state.current.token = .newline → after.labels.jumps = state.labels.jumps →
      Change state [state.current] after

/-- Changes one after another. -/
inductive Travels : State σ → List Located → State σ → Prop where
  | stay {state : State σ} : Travels state [] state
  | go {state between after : State σ} {taken more : List Located} :
      Change state taken between → Travels between more after → Travels state (taken ++ more) after

theorem Change.travels {state after : State σ} {taken : List Located}
    (change : Change state taken after) : Travels state taken after := by
  simpa using Travels.go change .stay

theorem Travels.trans {state between after : State σ} {taken more : List Located}
    (first : Travels state taken between) (second : Travels between more after) :
    Travels state (taken ++ more) after := by
  induction first with
  | stay => exact second
  | go change _ ih =>
    rw [List.append_assoc]
    exact .go change (ih second)

/-- Why a pass cannot go on from the state. -/
inductive HaltsWith (state : State σ) : Failure → Prop where
  | fault {error : LexicalError} : state.place.move = .error error → HaltsWith state error.failure
  | refused {refusal : Refusal} :
      (∀ name, refusal.name? = some name → state.current.token = .name name) →
      HaltsWith state (refusedAt state refusal)
  | stray {jump : Jump} : jump ∈ state.labels.jumps →
      HaltsWith state { cause := .refused (.undefinedLabel jump.label) jump.line, span := jump.span }

/-- The result has been come to from the state; success has moved over so many tokens at least. -/
inductive Arrives (state : State σ) (least : Nat) : EStateM.Result Failure (State σ) α → Prop where
  | ok {value : α} {after : State σ} {taken : List Located} :
      Travels state taken after → least ≤ taken.length → Arrives state least (.ok value after)
  | error {failure : Failure} {after : State σ} {taken : List Located} :
      Travels state taken after → HaltsWith after failure → Arrives state least (.error failure after)

/-- What the step does from the tokens it may start at. -/
def Goes (starts : Kind → Prop) (least : Nat) (step : Pass σ α) : Prop :=
  ∀ state, starts state.current.kind → Arrives state least (step state)

/-! ## Sequences and loops -/

theorem Arrives.after {state between : State σ} {taken : List Located} {first second : Nat}
    {result : EStateM.Result Failure (State σ) α} (travels : Travels state taken between)
    (enough : first ≤ taken.length) (arrives : Arrives between second result) :
    Arrives state (first + second) result := by
  cases arrives with
  | ok more enoughMore =>
    refine .ok (travels.trans more) ?_
    rw [List.length_append]
    omega
  | error more halts => exact .error (travels.trans more) halts

theorem Arrives.bind {step : Pass σ α} {next : α → Pass σ β} {state : State σ} {first second : Nat}
    (arrives : Arrives state first (step state))
    (continues : ∀ value between, Arrives between second (next value between)) :
    Arrives state (first + second) ((step >>= next) state) := by
  cases ran : step state with
  | ok value between =>
    rw [ran] at arrives
    rw [bind_ok ran]
    cases arrives with
    | ok travels enough => exact .after travels enough (continues value between)
  | error failure after =>
    rw [ran] at arrives
    rw [bind_error ran]
    cases arrives with
    | error travels halts => exact .error travels halts

theorem Arrives.mono {state : State σ} {result : EStateM.Result Failure (State σ) α} {least less : Nat}
    (arrives : Arrives state least result) (fewer : less ≤ least) : Arrives state less result := by
  cases arrives with
  | ok travels enough => exact .ok travels (Nat.le_trans fewer enough)
  | error travels halts => exact .error travels halts

/-- Refusing for something other than a name. -/
theorem Arrives.refuse {refusal : Refusal} {least : Nat} (state : State σ)
    (unnamed : refusal.name? = none) : Arrives state least ((Pass.refuse refusal : Pass σ α) state) := by
  refine .error .stay (.refused fun name found => ?_)
  rw [unnamed] at found
  cases found

theorem Arrives.refuseName {refusal : Refusal} {least : Nat} {state : State σ} {name : String}
    (current : state.current.token = .name name) (named : refusal.name? = some name) :
    Arrives state least ((Pass.refuse refusal : Pass σ α) state) := by
  refine .error .stay (.refused fun other found => ?_)
  rw [named] at found
  cases found
  exact current

namespace Goes

variable {starts : Kind → Prop} {least : Nat} {step : Pass σ α}

theorem mono {stronger : Kind → Prop} (goes : Goes starts least step)
    (implies : ∀ kind, stronger kind → starts kind) : Goes stronger least step :=
  fun state started => goes state (implies _ started)

theorem bind {second : Nat} {next : α → Pass σ β} (goes : Goes starts least step)
    (continues : ∀ value, Goes anyKind second (next value)) : Goes starts least (step >>= next) :=
  fun state started =>
    ((goes state started).bind fun value between => continues value between trivial).mono
      (Nat.le_add_right _ _)

/-- The tokens are counted from the second part on. -/
theorem bind_last {second : Nat} {next : α → Pass σ β} (goes : Goes starts least step)
    (continues : ∀ value, Goes anyKind second (next value)) : Goes starts second (step >>= next) :=
  fun state started =>
    ((goes state started).bind fun value between => continues value between trivial).mono
      (Nat.le_add_left _ _)

theorem current {next : Located → Pass σ α}
    (goes : ∀ here : Located, Goes (fun kind => starts kind ∧ kind = here.kind) least (next here)) :
    Goes starts least (Pass.current >>= next) :=
  fun state started => goes state.current state ⟨started, rfl⟩

theorem refuse {refusal : Refusal} (unnamed : refusal.name? = none) :
    Goes starts least (Pass.refuse refusal : Pass σ α) :=
  fun state _ => .refuse state unnamed

theorem pure (value : α) : Goes starts 0 (Pure.pure value : Pass σ α) :=
  fun _ _ => .ok .stay (Nat.le_refl 0)

/-- A step that always succeeds and leaves the place, the drawn tokens and the jumps alone. -/
theorem aside {value : State σ → α} {change : State σ → State σ}
    (total : ∀ state, step state = .ok (value state) (change state))
    (place : ∀ state, (change state).place = state.place)
    (drawn : ∀ state, tokensDrawn (change state).notes = tokensDrawn state.notes)
    (jumps : ∀ state, (change state).labels.jumps = state.labels.jumps) : Goes starts 0 step := by
  intro state _
  rw [total]
  exact .ok (Change.travels (.aside (place state) (drawn state) (jumps state))) (Nat.zero_le _)

end Goes

theorem arrives_repeatWhile {more : State σ → Bool} {round : Pass σ Unit}
    (uses : Uses (fun state => more state = true) round)
    (once : ∀ state, more state = true → Arrives state 0 (round state)) (state : State σ) :
    Arrives state 0 (repeatWhile more round uses state) := by
  fun_induction repeatWhile more round uses state with
  | case1 state goesOn between ran ih =>
    have arrived := once state goesOn
    rw [ran] at arrived
    cases arrived with
    | ok travels enough => exact Arrives.after travels enough ih
  | case2 state goesOn failure after ran =>
    have arrived := once state goesOn
    rw [ran] at arrived
    cases arrived with
    | error travels halts => exact .error travels halts
  | case3 state stopped => exact .ok .stay (Nat.le_refl 0)

theorem Goes.repeatWhile {test : Kind → Bool} {round : Pass σ Unit} {least : Nat}
    (uses : Uses (fun state => standsAt test state = true) round)
    (once : Goes (fun kind => test kind = true) least round) :
    Goes anyKind 0 (Pass.repeatWhile (standsAt test) round uses) :=
  fun state _ => arrives_repeatWhile uses
    (fun between goesOn => (once between goesOn).mono (Nat.zero_le _)) state

/-! ## Moving on -/

/-- Kinds of tokens that stand within a line. -/
def withinLine (kind : Kind) : Prop := kind ≠ .endOfInput ∧ kind ≠ .newline

theorem withinLine_of_test {test : Kind → Bool} (notEnd : test .endOfInput = false)
    (notNewline : test .newline = false) {kind : Kind} (passes : test kind = true) :
    withinLine kind := by
  constructor <;> intro same <;> subst same
  · rw [notEnd] at passes
    cases passes
  · rw [notNewline] at passes
    cases passes

private theorem token_eq_newline {token : Token} (newline : token.kind = .newline) :
    token = .newline := by
  cases token <;> simp_all [Token.kind]

theorem MovesOver.of_advance {state after : State σ} {next : Place}
    (moved : state.place.move = .ok next) (notEnd : state.current.kind ≠ .endOfInput)
    (notes : after.notes = state.notes.push (.token next.upcoming)) : MovesOver state next after where
  moved := moved
  notEnd := fun atEnd => notEnd (congrArg Token.kind atEnd)
  drawn := by rw [notes, tokensDrawn_push]; rfl

theorem goes_advance : Goes withinLine 1 (advance : Pass σ Located) := by
  intro state within
  cases moved : state.place.move with
  | error error =>
    rw [advance_of_fault moved]
    exact .error .stay (.fault moved)
  | ok next =>
    rw [advance_of_move moved]
    refine .ok (Change.travels (.token (.of_advance moved within.1 rfl) rfl ?_ rfl)) (Nat.le_refl 1)
    exact fun isNewline => within.2 (congrArg Token.kind isNewline)

/-- Nothing can fail between moving over a line end and going to the next line. -/
theorem goes_lineEnd : Goes (fun kind => kind.isNewline = true) 1 (lineEnd : Pass σ Unit) := by
  intro state newline
  have isNewline : state.current.kind = .newline := by
    cases kind : state.current.kind <;> simp_all [Kind.isNewline]
  unfold lineEnd
  cases moved : state.place.move with
  | error error =>
    rw [bind_error (advance_of_fault moved)]
    exact .error .stay (.fault moved)
  | ok next =>
    rw [bind_ok (advance_of_move moved)]
    refine .ok (Change.travels (.lineEnd (.of_advance moved ?_ rfl) rfl ?_ rfl)) (Nat.le_refl 1)
    · rw [isNewline]
      simp
    · exact token_eq_newline isNewline

theorem goes_expect {wanted : Kind} {starts : Kind → Prop} (within : withinLine wanted) :
    Goes starts 1 (expect wanted : Pass σ Located) := by
  refine .current fun here => ?_
  split
  · rename_i found
    refine goes_advance.mono fun kind started => ?_
    rw [started.2, found]
    exact within
  · exact .refuse rfl

theorem goes_note {starts : Kind → Prop} (entry : Note) (noToken : entry.token? = none) :
    Goes starts 0 (note entry : Pass σ Unit) := by
  refine .aside (fun _ => rfl) (fun _ => rfl) (fun state => ?_) fun _ => rfl
  rw [tokensDrawn_push, noToken]
  simp

theorem goes_freshName {starts : Kind → Prop} : Goes starts 1 (freshName : Pass σ String) := by
  intro state _
  rw [freshName_eq]
  cases current : state.current.token with
  | name name =>
    dsimp only
    split
    · exact .refuseName current rfl
    · refine ((goes_advance.bind fun _ => .pure name) state ?_)
      rw [withinLine, Located.kind, current]
      simp [Token.kind]
  | _ => exact .refuse state rfl

section Writing

variable [Sink σ] {starts : Kind → Prop}

theorem goes_emit (text : String) : Goes starts 0 (emit text : Pass σ Unit) :=
  .aside (fun _ => rfl) (fun _ => rfl) (fun _ => rfl) fun _ => rfl

theorem goes_emitLine (text : String) : Goes starts 0 (emitLine text : Pass σ Unit) :=
  .aside (fun _ => rfl) (fun _ => rfl) (fun _ => rfl) fun _ => rfl

theorem goes_headerLine (text : String) : Goes starts 0 (headerLine text : Pass σ Unit) :=
  .aside (fun _ => rfl) (fun _ => rfl) (fun _ => rfl) fun _ => rfl

theorem goes_copyToken : Goes withinLine 1 (copyToken : Pass σ Unit) :=
  goes_advance.bind fun _ => goes_emit _

omit [Sink σ] in
theorem goes_forM {write : String → Pass σ Unit} (each : ∀ line, Goes anyKind 0 (write line))
    (lines : List String) : Goes anyKind 0 (lines.forM write) := by
  induction lines with
  | nil => exact .pure ()
  | cons line lines ih => exact (each line).bind fun _ => ih

/-! ## Expressions -/

theorem goes_operand : Goes starts 1 (operand : Pass σ Unit) := by
  intro state _
  unfold operand
  cases current : state.current.token with
  | number digits =>
    refine goes_copyToken state ?_
    rw [withinLine, Located.kind, current]
    simp [Token.kind]
  | name name =>
    dsimp only
    split
    · refine goes_copyToken state ?_
      rw [withinLine, Located.kind, current]
      simp [Token.kind]
    · exact .refuseName current rfl
  | _ => exact .refuse state rfl

theorem goes_signedOperand : Goes starts 1 (signedOperand : Pass σ Unit) := by
  refine .current fun here => ?_
  split
  · rename_i isSign
    refine (goes_copyToken.bind fun _ => goes_operand).mono
      fun kind started => ?_
    exact withinLine_of_test rfl rfl (started.2 ▸ isSign)
  · exact goes_operand

theorem goes_scalingRound :
    Goes (fun kind => kind.isScaling = true) 1 (scalingRound : Pass σ Unit) :=
  (goes_copyToken.bind fun _ => goes_signedOperand).mono
    fun _ => withinLine_of_test rfl rfl

theorem goes_term : Goes starts 1 (term : Pass σ Unit) :=
  goes_signedOperand.bind fun _ => .repeatWhile uses_scalingRound goes_scalingRound

theorem goes_spacedTerm : Goes starts 1
    (do
      let here ← current
      if here.kind.isSign then emit " "
      term : Pass σ Unit) := by
  refine .current fun here => ?_
  split
  · exact (goes_emit " ").bind_last fun _ => goes_term
  · exact goes_term

theorem goes_signRound : Goes (fun kind => kind.isSign = true) 1 (signRound : Pass σ Unit) :=
  (goes_copyToken.bind fun _ => goes_spacedTerm).mono fun _ => withinLine_of_test rfl rfl

theorem goes_expression : Goes starts 1 (expression : Pass σ Unit) :=
  goes_term.bind fun _ => .repeatWhile uses_signRound goes_signRound

theorem goes_comparisonRound :
    Goes (fun kind => kind.isComparison = true) 1 (comparisonRound : Pass σ Unit) :=
  (goes_copyToken.bind fun _ => goes_expression).mono
    fun _ => withinLine_of_test rfl rfl

theorem goes_comparisons : Goes starts 0
    (do
      let here ← current
      if here.kind.isComparison then
        repeatWhile (standsAt Kind.isComparison) comparisonRound uses_comparisonRound
      else refuse (.expectedComparison here.token) : Pass σ Unit) := by
  refine .current fun here => ?_
  split
  · exact (Goes.repeatWhile uses_comparisonRound goes_comparisonRound).mono fun _ _ => trivial
  · exact .refuse rfl

theorem goes_condition : Goes starts 1 (condition : Pass σ Unit) :=
  goes_expression.bind fun _ => goes_comparisons

end Writing

/-! ## Statements -/

theorem goes_blankLines : Goes anyKind 0 (blankLines : Pass σ Unit) :=
  .repeatWhile uses_lineEnd goes_lineEnd

private theorem endOfLine_eq (state : State σ) :
    endOfLine state =
      if state.current.kind = .newline then (lineEnd >>= fun _ => blankLines) state
      else refuse (.unexpectedToken .newline state.current.kind) state := by
  unfold endOfLine lineEnd
  rw [expect_bind_eq]
  split
  · rw [bind_assoc]
  · rfl

theorem goes_endOfLine : Goes anyKind 1 (endOfLine : Pass σ Unit) := by
  intro state _
  rw [endOfLine_eq]
  split
  · rename_i newline
    exact (goes_lineEnd.bind fun _ => goes_blankLines) state (by rw [newline]; rfl)
  · exact .refuse state rfl

theorem goes_labelName : Goes anyKind 1 (labelName : Pass σ String) := by
  intro state started
  unfold labelName
  split
  · rename_i name current
    split
    · exact .refuseName current rfl
    · exact goes_freshName state started
  · exact goes_freshName state started

theorem goes_placeLabel (name : String) : Goes anyKind 0 (placeLabel name : Pass σ Unit) := by
  refine .aside (fun _ => rfl) (fun _ => rfl) (fun state => ?_) fun state => ?_
  · rw [tokensDrawn_push]
    simp [Note.token?]
  · unfold Labels.insert
    split <;> rfl

section Writing

variable [Sink σ]

theorem goes_declareVariable (name : String) :
    Goes anyKind 0 (declareVariable name : Pass σ Unit) := by
  intro state _
  unfold declareVariable
  split
  · exact .ok .stay (Nat.le_refl 0)
  · refine .ok (Change.travels (.aside rfl ?_ rfl)) (Nat.le_refl 0)
    rw [tokensDrawn_push]
    simp [Note.token?]

theorem goes_printStatement : Goes anyKind 1 (printStatement : Pass σ Unit) := by
  refine .current fun here => ?_
  have value : Goes (fun kind => anyKind kind ∧ kind = here.kind) 1
      (do emit CLines.printOpening; expression; emitLine CLines.printClosing : Pass σ Unit) :=
    (goes_emit _).bind_last fun _ => goes_expression.bind fun _ => goes_emitLine _
  cases current : here.token with
  | string body =>
    refine (goes_advance.bind fun _ => goes_emitLine _).mono fun kind started => ?_
    rw [started.2, withinLine, Located.kind, current]
    simp [Token.kind]
  | _ => exact value

theorem goes_labelStatement : Goes anyKind 1 (labelStatement : Pass σ Unit) :=
  goes_labelName.bind fun _ => (goes_placeLabel _).bind fun _ => goes_emitLine _

/-- The jump is entered with the span and the line of the name that has just been moved over. -/
theorem goes_gotoStatement : Goes anyKind 1 (gotoStatement : Pass σ Unit) := by
  intro state _
  rw [gotoStatement_eq]
  cases current : state.current.token with
  | name name =>
    dsimp only
    split
    · exact .refuseName current rfl
    · cases moved : state.place.move with
      | error error =>
        rw [bind_error (advance_of_fault moved)]
        exact .error .stay (.fault moved)
      | ok next =>
        have sameLine : next.line = state.line := Place.IsAt.line_of_move moved
        rw [bind_ok (advance_of_move moved)]
        refine .ok (Change.travels (.jump (.of_advance moved ?_ rfl) rfl current ?_)) (Nat.le_refl 1)
        · rw [Located.kind, current]
          simp [Token.kind]
        · simp [Labels.addJump, sameLine]
  | _ => exact .refuse state rfl

theorem goes_letStatement : Goes anyKind 1 (letStatement : Pass σ Unit) :=
  goes_freshName.bind fun _ => (goes_declareVariable _).bind fun _ => (goes_emit _).bind fun _ =>
    (goes_expect ⟨by simp, by simp⟩).bind fun _ => goes_expression.bind fun _ => goes_emitLine _

theorem goes_inputStatement : Goes anyKind 1 (inputStatement : Pass σ Unit) :=
  goes_freshName.bind fun _ => (goes_declareVariable _).bind fun _ => goes_forM goes_emitLine _

theorem goes_randomStatement : Goes anyKind 1 (randomStatement : Pass σ Unit) :=
  goes_freshName.bind fun _ => (goes_emitLine _).bind fun _ => goes_emitLine _

theorem goes_openBlock (block : Block) : Goes anyKind 1 (openBlock block : Pass σ Unit) := by
  have entering : Goes anyKind 0 (enterBlock block : Pass σ Unit) :=
    .aside (fun _ => rfl) (fun _ => rfl) (fun _ => rfl) fun _ => rfl
  exact (goes_emit _).bind_last fun _ => goes_condition.bind fun _ =>
    (goes_expect ⟨by simp, by simp⟩).bind fun _ => goes_endOfLine.bind fun _ =>
      (goes_emitLine _).bind fun _ => entering

theorem goes_closeBlock (block : Block) (outer : List Block) :
    Goes anyKind 1 (closeBlock block outer : Pass σ Unit) := by
  have leaving : Goes anyKind 0 (leaveBlock outer : Pass σ Unit) :=
    .aside (fun _ => rfl) (fun _ => rfl) (fun _ => rfl) fun _ => rfl
  exact (goes_expect ⟨by simp, by simp⟩).bind fun _ => (goes_emitLine _).bind fun _ =>
    leaving.bind fun _ => goes_endOfLine

theorem goes_statementRest? {word : Keyword} {rest : Pass σ Unit}
    (found : statementRest? word = some rest) : Goes anyKind 1 rest := by
  unfold statementRest? at found
  split at found <;> cases found
  · exact goes_printStatement.bind fun _ => goes_endOfLine
  · exact goes_labelStatement.bind fun _ => goes_endOfLine
  · exact goes_gotoStatement.bind fun _ => goes_endOfLine
  · exact goes_letStatement.bind fun _ => goes_endOfLine
  · exact goes_inputStatement.bind fun _ => goes_endOfLine
  · exact goes_randomStatement.bind fun _ => goes_endOfLine
  · exact goes_openBlock .conditional
  · exact goes_openBlock .loop

theorem goes_statement : Goes anyKind 1 (statement : Pass σ Unit) := by
  have noted : Goes anyKind 0 (noteStatement : Pass σ Unit) :=
    fun state started => goes_note _ rfl state started
  refine noted.bind_last fun _ => .current fun here => ?_
  cases current : here.token with
  | keyword word =>
    dsimp only
    cases found : statementRest? (σ := σ) word with
    | none => exact .refuse rfl
    | some rest =>
      refine (goes_advance.bind fun _ => goes_statementRest? found).mono fun kind started => ?_
      rw [started.2, withinLine, Located.kind, current]
      simp [Token.kind]
  | _ => exact .refuse rfl

theorem goes_turn : Goes anyKind 1 (turn : Pass σ Unit) := by
  intro state started
  unfold turn
  split
  · exact goes_statement state started
  · split
    · exact goes_closeBlock _ _ state started
    · exact goes_statement state started

/-! ## Programs -/

omit [Sink σ] in
theorem goes_resolveJumps : Goes anyKind 0 (resolveJumps : Pass σ Unit) := by
  intro state _
  unfold resolveJumps
  cases found : state.labels.firstUnresolved with
  | none => exact .ok .stay (Nat.le_refl 0)
  | some jump =>
    refine .error .stay (.stray ?_)
    exact List.mem_reverse.mp (List.mem_of_find?_eq_some found)

theorem goes_program : Goes anyKind 0 (program : Pass σ Unit) := by
  have loop : Goes anyKind 0 (repeatWhile (fun state => !state.finished) turn
      (uses_turn.mono fun _ _ => trivial) : Pass σ Unit) :=
    fun state _ => arrives_repeatWhile _ (fun between _ =>
      (goes_turn between trivial).mono (Nat.zero_le _)) state
  exact (goes_forM goes_headerLine _).bind fun _ => goes_blankLines.bind fun _ => loop.bind fun _ =>
    (goes_forM goes_emitLine _).bind fun _ => goes_resolveJumps

end Writing

/-! ## Along the way -/

/-- The number of line ends among the tokens. -/
def lineEnds (tokens : List Located) : Nat :=
  tokens.countP (·.token == .newline)

/-- Between the states the pass has used up the tokens, the end of input not among them. What it has
drawn in the meantime is two tokens ahead of what it has used up. -/
def Consumes (state : State σ) (taken : List Located) (after : State σ) : Prop :=
  (∀ located ∈ taken, located.token ≠ .endOfInput) ∧
    ∃ drawn, tokensDrawn after.notes = tokensDrawn state.notes ++ drawn ∧
      state.current :: state.upcoming :: drawn = taken ++ [after.current, after.upcoming]

namespace MovesOver

variable {state after : State σ} {next : Place}

private theorem consumes (moves : MovesOver state next after) (line : Nat)
    (arrived : after.place = { next with line := line }) : Consumes state [state.current] after := by
  have shifted : next.current = state.upcoming := by
    have moved := moves.moved
    unfold Place.move at moved
    split at moved <;> cases moved
    rfl
  have current : after.current = next.current := congrArg Place.current arrived
  have upcoming : after.upcoming = next.upcoming := congrArg Place.upcoming arrived
  refine ⟨?_, [next.upcoming], moves.drawn, ?_⟩
  · intro located member
    rw [List.mem_singleton.mp member]
    exact moves.notEnd
  · rw [current, upcoming, shifted]
    rfl

private theorem isAt {whole : Feed} {index : Nat} (moves : MovesOver state next after) (line : Nat)
    (arrived : after.place = { next with line := line }) (isAt : state.place.IsAt whole index) :
    after.place.IsAt whole (index + 1) ∧
      whole.tokens.take (index + 1) = whole.tokens.take index ++ [state.current] := by
  have found := isAt.getElem?_tokens moves.notEnd
  have inside := (List.getElem?_eq_some_iff.mp found).1
  have isNext := isAt.move moves.moved
  rw [Nat.min_eq_left inside] at isNext
  refine ⟨arrived ▸ isNext.of_line line, ?_⟩
  rw [List.take_add_one, found]
  rfl

end MovesOver

namespace Change

variable {state after : State σ} {taken : List Located}

private theorem consumes (change : Change state taken after) : Consumes state taken after := by
  cases change with
  | aside place drawn _ =>
    have current : after.current = state.current := congrArg Place.current place
    have upcoming : after.upcoming = state.upcoming := congrArg Place.upcoming place
    exact ⟨by simp, [], by simpa using drawn, by simp [current, upcoming]⟩
  | token moves arrived _ _ => exact moves.consumes _ arrived
  | jump moves arrived _ _ => exact moves.consumes _ arrived
  | lineEnd moves arrived _ _ => exact moves.consumes _ arrived

private theorem isAt {whole : Feed} {index : Nat} (change : Change state taken after)
    (isAt : state.place.IsAt whole index) :
    after.place.IsAt whole (index + taken.length) ∧
      whole.tokens.take (index + taken.length) = whole.tokens.take index ++ taken := by
  cases change with
  | aside place _ _ => exact ⟨by rw [place]; exact isAt, by simp⟩
  | token moves arrived _ _ => exact moves.isAt _ arrived isAt
  | jump moves arrived _ _ => exact moves.isAt _ arrived isAt
  | lineEnd moves arrived _ _ => exact moves.isAt _ arrived isAt

theorem line (change : Change state taken after) : after.line = state.line + lineEnds taken := by
  have sameLine : ∀ {next}, MovesOver state next after → next.line = state.line :=
    fun moves => Place.IsAt.line_of_move moves.moved
  cases change with
  | aside place _ _ => exact congrArg Place.line place
  | token moves arrived notNewline _ =>
    rw [show after.line = _ from congrArg Place.line arrived, sameLine moves]
    simp [lineEnds, notNewline]
  | jump moves arrived named _ =>
    rw [show after.line = _ from congrArg Place.line arrived, sameLine moves]
    simp [lineEnds, named]
  | lineEnd moves arrived newline _ =>
    rw [show after.line = _ from congrArg Place.line arrived, sameLine moves]
    simp [lineEnds, newline]

/-- A jump that is entered is named by the token the pass moves over, and has its span and line. -/
theorem jumps (change : Change state taken after) {entered : Jump}
    (member : entered ∈ after.labels.jumps) :
    entered ∈ state.labels.jumps ∨ ∃ here, taken = [here] ∧ here.token = .name entered.label ∧
      entered.span = here.span ∧ entered.line = state.line := by
  cases change with
  | aside _ _ same => exact .inl (same ▸ member)
  | token _ _ _ same => exact .inl (same ▸ member)
  | lineEnd _ _ _ same => exact .inl (same ▸ member)
  | jump _ _ named added =>
    rw [added] at member
    rcases List.mem_cons.mp member with new | old
    · rw [new]
      exact .inr ⟨_, rfl, named, rfl, rfl⟩
    · exact .inl old

end Change

theorem Consumes.trans {state between after : State σ} {taken more : List Located}
    (first : Consumes state taken between) (second : Consumes between more after) :
    Consumes state (taken ++ more) after := by
  obtain ⟨notEnd, drawn, noted, shifted⟩ := first
  obtain ⟨notEndMore, drawnMore, notedMore, shiftedMore⟩ := second
  refine ⟨?_, drawn ++ drawnMore, by rw [notedMore, noted, List.append_assoc], ?_⟩
  · intro located member
    exact (List.mem_append.mp member).elim (notEnd located) (notEndMore located)
  · calc state.current :: state.upcoming :: (drawn ++ drawnMore)
        = (state.current :: state.upcoming :: drawn) ++ drawnMore := rfl
      _ = taken ++ (between.current :: between.upcoming :: drawnMore) := by rw [shifted]; simp
      _ = taken ++ more ++ [after.current, after.upcoming] := by rw [shiftedMore]; simp

namespace Travels

variable {state after : State σ} {taken : List Located}

theorem consumes (travels : Travels state taken after) : Consumes state taken after := by
  induction travels with
  | stay => exact ⟨by simp, [], by simp, by simp⟩
  | go change _ ih => exact change.consumes.trans ih

theorem isAt {whole : Feed} {index : Nat} (travels : Travels state taken after)
    (start : state.place.IsAt whole index) :
    after.place.IsAt whole (index + taken.length) ∧
      whole.tokens.take (index + taken.length) = whole.tokens.take index ++ taken := by
  induction travels generalizing index with
  | stay => exact ⟨start, by simp⟩
  | @go _ _ _ taken more change _ ih =>
    obtain ⟨between, front⟩ := change.isAt start
    obtain ⟨last, back⟩ := ih between
    rw [List.length_append, ← Nat.add_assoc]
    exact ⟨last, by rw [back, front, List.append_assoc]⟩

/-- The tokens that have been moved over stand right before the token the pass has come to. -/
theorem exists_stream {whole : Feed} (travels : Travels state taken after)
    (start : state.place.IsAt whole 0) : ∃ behind, whole.stream = taken ++ after.current :: behind := by
  obtain ⟨isAt, front⟩ := travels.isAt start
  rw [Nat.zero_add] at isAt front
  have found : whole.stream[taken.length]? = some after.current := isAt.stream
  obtain ⟨inside, here⟩ := List.getElem?_eq_some_iff.mp found
  refine ⟨whole.stream.drop (taken.length + 1), ?_⟩
  calc whole.stream
      = whole.stream.take taken.length ++ whole.stream.drop taken.length :=
        (List.take_append_drop _ _).symm
    _ = taken ++ whole.stream.drop taken.length := by
        rw [Feed.stream, List.take_append_of_le_length isAt.bound, front]
        rfl
    _ = taken ++ after.current :: whole.stream.drop (taken.length + 1) := by
        rw [List.drop_eq_getElem_cons inside, here]

theorem line (travels : Travels state taken after) : after.line = state.line + lineEnds taken := by
  induction travels with
  | stay => rfl
  | go change _ ih =>
    rw [ih, change.line, Nat.add_assoc]
    simp [lineEnds]

theorem jumps (travels : Travels state taken after) {entered : Jump}
    (member : entered ∈ after.labels.jumps) :
    entered ∈ state.labels.jumps ∨ ∃ before here behind, taken = before ++ here :: behind ∧
      here.token = .name entered.label ∧ entered.span = here.span ∧
      entered.line = state.line + lineEnds before := by
  induction travels with
  | stay => exact .inl member
  | @go _ _ _ taken more change _ ih =>
    rcases ih member with earlier | ⟨before, here, behind, rfl, named, span, line⟩
    · rcases change.jumps earlier with known | ⟨here, rfl, named, span, line⟩
      · exact .inl known
      · exact .inr ⟨[], here, more, rfl, named, span, line⟩
    · refine .inr ⟨taken ++ before, here, behind, by simp, named, span, ?_⟩
      rw [line, change.line, Nat.add_assoc]
      simp [lineEnds]

end Travels

end Pass

end TeenyBasic
