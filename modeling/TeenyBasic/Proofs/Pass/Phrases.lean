import TeenyBasic.Proofs.Pass.Lockstep

/-!
What a pass writes. A call on the sink is one of a few fixed ones, a literal or an operator of the source,
or one of the phrases that hold a name of the source (`Phrased`). A name gets there in two ways: it comes
out of `freshName`, which lets only names pass that are fit for the C text, or it is an operand, which has
to be declared. So it takes an invariant of the whole pass (`Clean`): besides the calls made it speaks of
the names declared, and of the spelling of the tokens to come.
-/

set_option autoImplicit false

namespace TeenyBasic

open Grammar Pass

variable {σ α β : Type}

/-- A name that can stand in the C text as it is. -/
structure Fit (name : String) : Prop where
  isName : Name name
  unreserved : name ∉ reservedNames

/-- What a name of the source is written for. -/
inductive NameUse where
  | declaration
  | assignment
  | input
  | draw
  | label
  | jump
  | operand

/-- The calls in which a name is written. -/
def NameUse.calls (name : String) : NameUse → List Call
  | declaration => [.header (CLines.declaration name)]
  | assignment => [.emit (CLines.assignmentOpening name)]
  | input => ((CLines.inputRead name).take 2).map .line
  | draw => [.line (CLines.randomBinding name)]
  | label => [.line (CLines.label name)]
  | jump => [.line (CLines.jump name)]
  | operand => [.emit name]

def fixedEmits : List String :=
  [CLines.printOpening, Block.conditional.head, Block.loop.head, " "]

def fixedLines : List String :=
  CLines.epilogue ++ (CLines.inputRead "").drop 2 ++
    [CLines.printClosing, CLines.assignmentClosing, CLines.randomSeed, CLines.blockOpening,
      CLines.blockClosing]

/-- The calls that are the same for all sources. -/
def fixedCalls : List Call :=
  CLines.prologue.map .header ++ fixedEmits.map .emit ++ fixedLines.map .line

/-- The calls that a pass can make, all names in them being fit. -/
inductive Phrased : Call → Prop where
  | fixed {call : Call} : call ∈ fixedCalls → Phrased call
  | text {body : String} : (∀ c ∈ body.toList, isStringBody c = true) →
      Phrased (.line (CLines.printString body))
  | number {digits : String} : Numeral digits → Phrased (.emit digits)
  | operator (op : Operator) : Phrased (.emit op.spelling)
  | name (use : NameUse) {name : String} {call : Call} : Fit name → call ∈ use.calls name → Phrased call

/-- The tokens that are not used up yet are spelled as they should be. -/
def Place.Spelled (place : Place) : Prop :=
  ∀ located ∈ place.current :: place.upcoming :: place.feed.tokens, located.token.Spelled

private theorem Place.Spelled.move {place next : Place} (spelled : place.Spelled)
    (moved : place.move = .ok next) : next.Spelled := by
  obtain ⟨current, upcoming, ⟨tokens, ending⟩, line⟩ := place
  unfold Place.move Feed.draw at moved
  cases tokens with
  | cons drawn others =>
    cases moved
    exact fun located member => spelled located (.tail _ member)
  | nil =>
    cases ending with
    | fault error => cases moved
    | endOfInput offset =>
      cases moved
      intro located member
      cases member with
      | head => exact spelled upcoming (.tail _ (.head _))
      | tail _ member =>
        rw [List.mem_singleton.mp member]
        trivial

namespace Pass

variable [Sink σ] {sink : σ} {state : State σ}

/-- What holds of a pass all the time. -/
structure Clean (sink : σ) (state : State σ) : Prop where
  written : ∃ calls, state.sink = Sink.replay sink calls ∧ ∀ call ∈ calls, Phrased call
  declared : ∀ name ∈ state.declared.names, Fit name
  labels : ∀ name ∈ state.labels.names, Fit name
  ahead : state.place.Spelled

namespace Clean

theorem perform (clean : Clean sink state) {call : Call} (phrased : Phrased call) :
    Clean sink { state with sink := Sink.perform state.sink call } := by
  obtain ⟨calls, written, made⟩ := clean.written
  refine ⟨⟨calls ++ [call], ?_, ?_⟩, clean.declared, clean.labels, clean.ahead⟩
  · rw [written, Sink.replay_concat]
  · exact List.forall_mem_append.mpr ⟨made, List.forall_mem_singleton.mpr phrased⟩

theorem current (clean : Clean sink state) : state.current.token.Spelled :=
  clean.ahead _ (.head _)

private theorem fit (clean : Clean sink state) {name : String}
    (named : state.current.token = .name name) (unreserved : isReserved name = false) : Fit name := by
  have spelled := clean.current
  rw [named] at spelled
  refine ⟨spelled, fun reserved => ?_⟩
  rw [isReserved_iff.mpr reserved] at unreserved
  cases unreserved

/-- Neither the sink nor a name is touched, and no token is used up. -/
theorem aside (clean : Clean sink state) {line : Nat} {blocks : List Block} {jumps : List Jump}
    {notes : Array Note} :
    Clean sink { state with
      line, openBlocks := blocks, labels := { state.labels with jumps }, notes } :=
  ⟨clean.written, clean.declared, clean.labels, clean.ahead⟩

end Clean

/-- From the tokens it may start at, the step leaves the pass clean, whether it succeeds or not. -/
def Tidy (sink : σ) (starts : Kind → Prop) (step : Pass σ α) : Prop :=
  ∀ state, Clean sink state → starts state.current.kind → Clean sink (stateOf (step state))

namespace Tidy

variable {starts : Kind → Prop} {step : Pass σ α}

theorem bind {next : α → Pass σ β} (first : Tidy sink starts step)
    (second : ∀ value, Tidy sink anyKind (next value)) : Tidy sink starts (step >>= next) := by
  intro state clean started
  have between := first state clean started
  cases ran : step state with
  | ok value after =>
    rw [ran] at between
    rw [bind_ok ran]
    exact second value after between trivial
  | error failure after =>
    rw [ran] at between
    rw [bind_error ran]
    exact between

theorem current {next : Located → Pass σ α}
    (tidy : ∀ here : Located, here.token.Spelled →
      Tidy sink (fun kind => starts kind ∧ kind = here.kind) (next here)) :
    Tidy sink starts (Pass.current >>= next) :=
  fun state clean started => tidy state.current clean.current state clean ⟨started, rfl⟩

theorem refuse (refusal : Refusal) : Tidy sink starts (Pass.refuse refusal : Pass σ α) :=
  fun _ clean _ => clean

theorem pure (value : α) : Tidy sink starts (Pure.pure value : Pass σ α) :=
  fun _ clean _ => clean

end Tidy

theorem clean_repeatWhile {more : State σ → Bool} {round : Pass σ Unit}
    (uses : Uses (fun state => more state = true) round)
    (once : ∀ state, Clean sink state → more state = true → Clean sink (stateOf (round state)))
    (clean : Clean sink state) : Clean sink (stateOf (repeatWhile more round uses state)) := by
  fun_induction repeatWhile more round uses state with
  | case1 state goesOn between ran ih =>
    have still := once state clean goesOn
    rw [ran] at still
    exact ih still
  | case2 state goesOn failure after ran =>
    have still := once state clean goesOn
    rw [ran] at still
    exact still
  | case3 => exact clean

theorem Tidy.repeatWhile {starts : Kind → Prop} {test : Kind → Bool} {round : Pass σ Unit}
    (uses : Uses (fun state => standsAt test state = true) round)
    (once : Tidy sink (fun kind => test kind = true) round) :
    Tidy sink starts (Pass.repeatWhile (standsAt test) round uses) :=
  fun _ clean _ => clean_repeatWhile uses once clean

/-! ## Moving on -/

section Moving

variable {starts : Kind → Prop}

theorem Clean.move (clean : Clean sink state) {next : Place} {notes : Array Note}
    (moved : state.place.move = .ok next) :
    Clean sink { state with
      current := next.current, upcoming := next.upcoming, feed := next.feed, line := next.line, notes } :=
  ⟨clean.written, clean.declared, clean.labels, clean.ahead.move moved⟩

theorem tidy_advance : Tidy sink starts (advance : Pass σ Located) := by
  intro state clean _
  cases moved : state.place.move with
  | error error =>
    rw [advance_of_fault moved]
    exact clean
  | ok next =>
    rw [advance_of_move moved]
    exact clean.move moved

theorem tidy_nextLine : Tidy sink starts (nextLine : Pass σ Unit) :=
  fun _ clean _ => clean.aside

theorem tidy_expect (wanted : Kind) : Tidy sink starts (expect wanted : Pass σ Located) := by
  refine .current fun here _ => ?_
  split
  · exact tidy_advance
  · exact .refuse _

theorem tidy_blankLines : Tidy sink starts (blankLines : Pass σ Unit) :=
  .repeatWhile uses_lineEnd (tidy_advance.bind fun _ => tidy_nextLine)

theorem tidy_endOfLine : Tidy sink starts (endOfLine : Pass σ Unit) :=
  (tidy_expect _).bind fun _ => tidy_nextLine.bind fun _ => tidy_blankLines

/-- A name that has been let pass is fit. -/
theorem tidy_freshName_bind {next : String → Pass σ α}
    (continues : ∀ name, Fit name → Tidy sink anyKind (next name)) :
    Tidy sink starts (freshName >>= next) := by
  intro state clean started
  cases ran : freshName state with
  | ok name after =>
    obtain ⟨named, unreserved, here, moved⟩ := freshName_eq_ok ran
    have still := tidy_advance state clean started
    rw [moved] at still
    rw [bind_ok ran]
    exact continues name (clean.fit named unreserved) after still trivial
  | error failure after =>
    rw [bind_error ran]
    have still := tidy_advance state clean started
    obtain ⟨_, _, _, rfl, _⟩ | ⟨_, rfl, _⟩ | stuck := freshName_eq_error ran
    · exact clean
    · exact clean
    · rw [stuck] at still
      exact still

theorem tidy_labelName_bind {next : String → Pass σ α}
    (continues : ∀ name, Fit name → Tidy sink anyKind (next name)) :
    Tidy sink starts (labelName >>= next) := by
  intro state clean started
  have fresh := tidy_freshName_bind continues state clean started
  by_cases taken : ∃ name, state.current.token = .name name ∧ name ∈ state.labels.names
  · obtain ⟨name, named, member⟩ := taken
    rw [bind_error (labelName_of_taken named member)]
    exact clean
  · have same : labelName state = freshName state := by
      cases named : state.current.token with
      | name name => exact labelName_of_fresh named fun member => taken ⟨name, named, member⟩
      | _ => simp [labelName, named]
    change Clean sink (stateOf (EStateM.bind labelName next state))
    unfold EStateM.bind
    rw [same]
    exact fresh

theorem tidy_placeLabel {name : String} (fit : Fit name) :
    Tidy sink starts (placeLabel name : Pass σ Unit) := by
  intro state clean _
  refine ⟨clean.written, clean.declared, ?_, clean.ahead⟩
  simp only [placeLabel, stateOf, Labels.insert]
  split
  · exact clean.labels
  · exact List.forall_mem_cons.mpr ⟨fit, clean.labels⟩

theorem tidy_addJump (label : String) (span : Span) :
    Tidy sink starts (addJump label span : Pass σ Unit) :=
  fun _ clean _ => clean.aside

end Moving

/-! ## Writing -/

section Writing

variable {starts : Kind → Prop} {text : String}

theorem tidy_emit (phrased : Phrased (.emit text)) : Tidy sink starts (emit text : Pass σ Unit) :=
  fun _ clean _ => clean.perform phrased

theorem tidy_emitLine (phrased : Phrased (.line text)) : Tidy sink starts (emitLine text : Pass σ Unit) :=
  fun _ clean _ => clean.perform phrased

theorem tidy_headerLine (phrased : Phrased (.header text)) :
    Tidy sink starts (headerLine text : Pass σ Unit) :=
  fun _ clean _ => clean.perform phrased

theorem tidy_forM {write : String → Pass σ Unit} {lines : List String}
    (each : ∀ line ∈ lines, Tidy sink anyKind (write line)) : Tidy sink anyKind (lines.forM write) := by
  induction lines with
  | nil => exact .pure ()
  | cons line lines ih =>
    obtain ⟨first, others⟩ := List.forall_mem_cons.mp each
    exact first.bind fun _ => ih others

theorem clean_copyToken (clean : Clean sink state) (phrased : Phrased (.emit state.current.token.text)) :
    Clean sink (stateOf (copyToken state)) := by
  unfold copyToken
  cases moved : state.place.move with
  | error error =>
    rw [bind_error (advance_of_fault moved)]
    exact clean
  | ok next =>
    rw [bind_ok (advance_of_move moved)]
    exact (clean.move moved).perform phrased

theorem tidy_copyOperator (operators : ∀ token : Token, starts token.kind → ∃ op, token = .operator op) :
    Tidy sink starts (copyToken : Pass σ Unit) := by
  intro state clean started
  obtain ⟨op, current⟩ := operators _ started
  refine clean_copyToken clean ?_
  rw [current]
  exact .operator op

theorem tidy_declareVariable {name : String} (fit : Fit name) :
    Tidy sink starts (declareVariable name : Pass σ Unit) := by
  intro state clean _
  have written := clean.perform (.name .declaration fit (.head _))
  unfold declareVariable
  split
  · exact clean
  · rename_i unknown
    refine ⟨written.written, ?_, clean.labels, clean.ahead⟩
    simp only [stateOf, Variables.insert, unknown]
    exact List.forall_mem_cons.mpr ⟨fit, clean.declared⟩

end Writing

/-! ## Expressions -/

section Expressions

variable {starts : Kind → Prop}

/-- A variable is not tested again where it is read: it is declared, so it has been tested before. -/
theorem tidy_operand : Tidy sink starts (operand : Pass σ Unit) := by
  intro state clean _
  have spelled := clean.current
  unfold operand
  cases current : state.current.token with
  | number digits =>
    refine clean_copyToken clean ?_
    rw [current] at spelled ⊢
    exact .number spelled
  | name name =>
    dsimp only
    split
    · rename_i known
      refine clean_copyToken clean ?_
      rw [current]
      refine .name .operand (clean.declared name ?_) (.head _)
      rwa [Variables.contains, List.contains_iff_mem] at known
    · exact clean
  | _ => exact clean

theorem tidy_signedOperand : Tidy sink starts (signedOperand : Pass σ Unit) := by
  refine .current fun here _ => ?_
  split
  · rename_i isSign
    refine (tidy_copyOperator fun token started => ?_).bind fun _ => tidy_operand
    obtain ⟨sign, found⟩ := (isSign_iff token).mp (started.2 ▸ isSign)
    exact ⟨_, found⟩
  · exact tidy_operand

theorem tidy_scalingRound :
    Tidy sink (fun kind => kind.isScaling = true) (scalingRound : Pass σ Unit) := by
  refine (tidy_copyOperator fun token isScaling => ?_).bind fun _ => tidy_signedOperand
  obtain ⟨scaling, found⟩ := (isScaling_iff token).mp isScaling
  exact ⟨_, found⟩

theorem tidy_term : Tidy sink starts (term : Pass σ Unit) :=
  tidy_signedOperand.bind fun _ => .repeatWhile uses_scalingRound tidy_scalingRound

theorem phrased_of_mem {call : Call} (member : fixedCalls.contains call = true) : Phrased call :=
  .fixed (List.contains_iff_mem.mp member)

theorem tidy_signRound : Tidy sink (fun kind => kind.isSign = true) (signRound : Pass σ Unit) := by
  refine (tidy_copyOperator fun token isSign => ?_).bind fun _ => .current fun here _ => ?_
  · obtain ⟨sign, found⟩ := (isSign_iff token).mp isSign
    exact ⟨_, found⟩
  · split
    · exact (tidy_emit (phrased_of_mem (by decide))).bind fun _ => tidy_term
    · exact tidy_term

theorem tidy_expression : Tidy sink starts (expression : Pass σ Unit) :=
  tidy_term.bind fun _ => .repeatWhile uses_signRound tidy_signRound

theorem tidy_comparisonRound :
    Tidy sink (fun kind => kind.isComparison = true) (comparisonRound : Pass σ Unit) := by
  refine (tidy_copyOperator fun token isComparison => ?_).bind fun _ => tidy_expression
  obtain ⟨comparison, found⟩ := (isComparison_iff token).mp isComparison
  exact ⟨_, found⟩

theorem tidy_condition : Tidy sink starts (condition : Pass σ Unit) := by
  refine tidy_expression.bind fun _ => .current fun here _ => ?_
  split
  · exact .repeatWhile uses_comparisonRound tidy_comparisonRound
  · exact .refuse _

end Expressions

/-! ## Statements -/

section Statements

theorem tidy_printStatement : Tidy sink anyKind (printStatement : Pass σ Unit) := by
  refine .current fun here spelled => ?_
  cases found : here.token with
  | string body =>
    rw [found] at spelled
    exact tidy_advance.bind fun _ => tidy_emitLine (.text spelled)
  | _ =>
    exact (tidy_emit (phrased_of_mem (by decide))).bind fun _ => tidy_expression.bind fun _ =>
      tidy_emitLine (phrased_of_mem (by decide))

theorem tidy_labelStatement : Tidy sink anyKind (labelStatement : Pass σ Unit) :=
  tidy_labelName_bind fun _ fit => (tidy_placeLabel fit).bind fun _ =>
    tidy_emitLine (.name .label fit (.head _))

theorem tidy_gotoStatement : Tidy sink anyKind (gotoStatement : Pass σ Unit) :=
  .current fun _ _ => tidy_freshName_bind fun _ fit => (tidy_addJump _ _).bind fun _ =>
    tidy_emitLine (.name .jump fit (.head _))

theorem tidy_letStatement : Tidy sink anyKind (letStatement : Pass σ Unit) :=
  tidy_freshName_bind fun _ fit => (tidy_declareVariable fit).bind fun _ =>
    (tidy_emit (.name .assignment fit (.head _))).bind fun _ => (tidy_expect _).bind fun _ =>
      tidy_expression.bind fun _ => tidy_emitLine (phrased_of_mem (by decide))

private theorem phrased_inputRead {name line : String} (fit : Fit name)
    (member : line ∈ CLines.inputRead name) : Phrased (.line line) := by
  rw [← List.take_append_drop 2 (CLines.inputRead name)] at member
  rcases List.mem_append.mp member with holds | constant
  · exact .name .input fit (List.mem_map_of_mem holds)
  · refine .fixed (List.mem_append_right _ (List.mem_map_of_mem (List.mem_append_left _ ?_)))
    exact List.mem_append_right _ constant

theorem tidy_inputStatement : Tidy sink anyKind (inputStatement : Pass σ Unit) :=
  tidy_freshName_bind fun _ fit => (tidy_declareVariable fit).bind fun _ =>
    tidy_forM fun _ member => tidy_emitLine (phrased_inputRead fit member)

theorem tidy_randomStatement : Tidy sink anyKind (randomStatement : Pass σ Unit) :=
  tidy_freshName_bind fun _ fit => (tidy_emitLine (phrased_of_mem (by decide))).bind fun _ =>
    tidy_emitLine (.name .draw fit (.head _))

theorem tidy_openBlock (block : Block) : Tidy sink anyKind (openBlock block : Pass σ Unit) := by
  have head : Phrased (.emit block.head) := phrased_of_mem (by cases block <;> decide)
  have entering : Tidy sink anyKind (enterBlock block : Pass σ Unit) :=
    fun _ clean _ => clean.aside
  exact (tidy_emit head).bind fun _ => tidy_condition.bind fun _ => (tidy_expect _).bind fun _ =>
    tidy_endOfLine.bind fun _ => (tidy_emitLine (phrased_of_mem (by decide))).bind fun _ => entering

theorem tidy_closeBlock (block : Block) (outer : List Block) :
    Tidy sink anyKind (closeBlock block outer : Pass σ Unit) := by
  have leaving : Tidy sink anyKind (leaveBlock outer : Pass σ Unit) :=
    fun _ clean _ => clean.aside
  exact (tidy_expect _).bind fun _ => (tidy_emitLine (phrased_of_mem (by decide))).bind fun _ =>
    leaving.bind fun _ => tidy_endOfLine

theorem tidy_statementRest? {word : Keyword} {rest : Pass σ Unit} (found : statementRest? word = some rest) :
    Tidy sink anyKind rest := by
  unfold statementRest? at found
  split at found <;> cases found
  · exact tidy_printStatement.bind fun _ => tidy_endOfLine
  · exact tidy_labelStatement.bind fun _ => tidy_endOfLine
  · exact tidy_gotoStatement.bind fun _ => tidy_endOfLine
  · exact tidy_letStatement.bind fun _ => tidy_endOfLine
  · exact tidy_inputStatement.bind fun _ => tidy_endOfLine
  · exact tidy_randomStatement.bind fun _ => tidy_endOfLine
  · exact tidy_openBlock .conditional
  · exact tidy_openBlock .loop

theorem tidy_statement : Tidy sink anyKind (statement : Pass σ Unit) := by
  have noting : Tidy sink anyKind (noteStatement : Pass σ Unit) :=
    fun _ clean _ => clean.aside
  refine noting.bind fun _ => .current fun here _ => ?_
  cases here.token with
  | keyword word =>
    dsimp only
    split
    · rename_i rest found
      exact tidy_advance.bind fun _ => tidy_statementRest? found
    · exact .refuse _
  | _ => exact .refuse _

theorem tidy_turn : Tidy sink anyKind (turn : Pass σ Unit) := by
  intro state clean started
  unfold turn
  split
  · exact tidy_statement state clean started
  · split
    · exact tidy_closeBlock _ _ state clean started
    · exact tidy_statement state clean started

theorem tidy_program : Tidy sink anyKind (program : Pass σ Unit) := by
  have prologue : ∀ line ∈ CLines.prologue, Phrased (.header line) := fun line member =>
    .fixed (List.mem_append_left _ (List.mem_append_left _ (List.mem_map_of_mem member)))
  have epilogue : ∀ line ∈ CLines.epilogue, Phrased (.line line) := by
    intro line member
    refine .fixed (List.mem_append_right _ (List.mem_map_of_mem (List.mem_append_left _ ?_)))
    exact List.mem_append_left _ member
  have turns : Tidy sink anyKind (repeatWhile (fun state => !state.finished) turn
      (uses_turn.mono fun _ _ => trivial) : Pass σ Unit) :=
    fun _ clean _ => clean_repeatWhile _ (fun state clean _ => tidy_turn state clean trivial) clean
  have resolving : Tidy sink anyKind (resolveJumps : Pass σ Unit) := by
    intro state clean _
    unfold resolveJumps
    split <;> exact clean
  exact (tidy_forM fun line member => tidy_headerLine (prologue line member)).bind fun _ =>
    tidy_blankLines.bind fun _ => turns.bind fun _ =>
      (tidy_forM fun line member => tidy_emitLine (epilogue line member)).bind fun _ => resolving

end Statements

end Pass

end TeenyBasic
