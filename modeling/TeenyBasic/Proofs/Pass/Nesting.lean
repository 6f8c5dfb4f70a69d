import TeenyBasic.Proofs.Pass.Travel

/-!
Nested statements. The pass reads the lines of a program in one loop and remembers the open blocks. Read
as nested statements, a whole statement is its first line and, if that opens a block, all turns until
the block is closed (`wholeStatement`). The one loop of the pass then is a loop over whole statements,
and what stands between the first and the last line of a block is such a loop again.
-/

set_option autoImplicit false

namespace TeenyBasic.Pass

open Grammar

variable {σ α β : Type}

/-! ## Loops within loops -/

theorem bind_eq_of_eq {first second : Pass σ α} {next : α → Pass σ β} {state : State σ}
    (same : first state = second state) : (first >>= next) state = (second >>= next) state := by
  change EStateM.bind first next state = EStateM.bind second next state
  unfold EStateM.bind
  rw [same]

/-- A loop may stop early and go on as the same loop with a weaker condition. -/
theorem repeatWhile_bind_repeatWhile {fewer more : State σ → Bool} {round : Pass σ Unit}
    (usesFewer : Uses (fun state => fewer state = true) round)
    (usesMore : Uses (fun state => more state = true) round)
    (implies : ∀ state, fewer state = true → more state = true) (state : State σ) :
    (repeatWhile fewer round usesFewer >>= fun _ => repeatWhile more round usesMore) state =
      repeatWhile more round usesMore state := by
  induction left : state.remaining using Nat.strongRecOn generalizing state with
  | ind _ ih =>
    cases goesOn : fewer state with
    | false => rw [bind_ok (repeatWhile_of_stopped usesFewer goesOn)]
    | true =>
      rw [bind_eq_of_eq (repeatWhile_of_goesOn usesFewer goesOn), bind_assoc,
        repeatWhile_of_goesOn usesMore (implies state goesOn)]
      cases ran : round state with
      | error failure after => rw [bind_error ran, bind_error ran]
      | ok _ between =>
        rw [bind_ok ran, bind_ok ran]
        exact ih between.remaining (left ▸ usesFewer state () between goesOn ran) between rfl

/-! ## Whole statements -/

/-- The end of input stands only at the end of what lies ahead. -/
def Orderly (state : State σ) : Prop := ∃ tokens, state.Faces tokens

variable [Sink σ]

/-- Turns as long as more than `depth` blocks are open. -/
def closeDownTo (depth : Nat) : Pass σ Unit :=
  repeatWhile (fun state => decide (depth < state.openBlocks.length)) turn
    (uses_turn.mono fun _ _ => trivial)

/-- A statement with everything inside it. -/
def wholeStatement : Pass σ Unit := fun state =>
  (statement >>= fun _ => closeDownTo state.openBlocks.length) state

theorem uses_wholeStatement : Uses (fun _ => True) (wholeStatement : Pass σ Unit) :=
  fun state result after _ success =>
    uses_statement.bind (fun _ => keeps_repeatWhile _) state result after trivial success

private theorem goes_closeDownTo (depth : Nat) : Goes anyKind 0 (closeDownTo depth : Pass σ Unit) :=
  fun state _ => arrives_repeatWhile _
    (fun inner _ => (goes_turn inner trivial).mono (Nat.zero_le _)) state

theorem goes_wholeStatement : Goes anyKind 1 (wholeStatement : Pass σ Unit) :=
  fun state started => (goes_statement.bind fun _ => goes_closeDownTo _) state started

theorem statement_blocks {state after : State σ} (orderly : Orderly state)
    (success : statement state = .ok () after) :
    Orderly after ∧ ∃ opened, after.openBlocks = opened ++ state.openBlocks := by
  obtain ⟨tokens, faces⟩ := orderly
  obtain ⟨word, step, current, found, -⟩ := statement_eq_ok success
  obtain ⟨line, count, used, rest, rfl, spelled, facesRest, takes⟩ := statement_sound faces success
  have sameWord : word = line.keyword :=
    Token.keyword.inj (current.symm.trans (current_of_line faces spelled))
  refine ⟨⟨rest, facesRest⟩, ?_⟩
  have leads := takes.blocks
  generalize state.openBlocks = blocks, after.openBlocks = inner at leads
  cases leads with
  | simple => exact ⟨[], rfl⟩
  | opening block => exact ⟨[block], rfl⟩
  | closing block =>
    subst sameWord
    cases block <;> cases found

private theorem turn_blocks {state after : State σ} {opened base : List Block} (orderly : Orderly state)
    (blocks : state.openBlocks = opened ++ base) (inside : opened ≠ [])
    (success : turn state = .ok () after) :
    Orderly after ∧ ∃ still, after.openBlocks = still ++ base := by
  obtain ⟨tokens, faces⟩ := orderly
  obtain ⟨line, count, used, rest, rfl, -, facesRest, takes⟩ := turn_sound faces success
  refine ⟨⟨rest, facesRest⟩, ?_⟩
  have leads := takes.blocks
  rw [blocks] at leads
  generalize after.openBlocks = result at leads
  obtain ⟨innermost, outer, rfl⟩ := List.exists_cons_of_ne_nil inside
  cases leads with
  | simple => exact ⟨_, rfl⟩
  | opening block => exact ⟨block :: innermost :: outer, rfl⟩
  | closing => exact ⟨outer, rfl⟩

private theorem closeDownTo_blocks {base : List Block} {state after : State σ} {opened : List Block}
    (orderly : Orderly state) (blocks : state.openBlocks = opened ++ base)
    (success : closeDownTo base.length state = .ok () after) :
    Orderly after ∧ after.openBlocks = base := by
  unfold closeDownTo at success
  induction left : state.remaining using Nat.strongRecOn generalizing state opened with
  | ind _ ih =>
    cases opened with
    | nil =>
      rw [repeatWhile_of_stopped _ (by simp [blocks])] at success
      cases success
      exact ⟨orderly, blocks⟩
    | cons innermost outer =>
      have goesOn : decide (base.length < state.openBlocks.length) = true := by
        rw [decide_eq_true_eq, blocks, List.length_append, List.length_cons]
        omega
      rw [repeatWhile_of_goesOn _ goesOn] at success
      obtain ⟨_, between, turned, continued⟩ := bind_eq_ok success
      obtain ⟨orderlyBetween, still, blocksBetween⟩ :=
        turn_blocks orderly blocks (List.cons_ne_nil _ _) turned
      exact ih between.remaining (left ▸ uses_turn state () between trivial turned)
        orderlyBetween blocksBetween continued rfl

theorem wholeStatement_blocks {state after : State σ} (orderly : Orderly state)
    (success : wholeStatement state = .ok () after) :
    Orderly after ∧ after.openBlocks = state.openBlocks := by
  obtain ⟨_, between, started, closed⟩ := bind_eq_ok success
  obtain ⟨orderlyBetween, opened, blocks⟩ := statement_blocks orderly started
  exact closeDownTo_blocks orderlyBetween blocks closed

/-- A loop of turns that does not end inside a block reads a whole statement first. -/
theorem repeatWhile_turn_eq {more : State σ → Bool}
    (uses : Uses (fun state => more state = true) turn) {state : State σ}
    (goesOn : more state = true) (atStatement : turn state = statement state)
    (inside : ∀ inner : State σ, state.openBlocks.length < inner.openBlocks.length → more inner = true) :
    repeatWhile more turn uses state =
      (wholeStatement >>= fun _ => repeatWhile more turn uses) state := by
  have unfolded : (wholeStatement >>= fun _ => repeatWhile more turn uses) state =
      (statement >>= fun _ => closeDownTo state.openBlocks.length >>= fun _ =>
        repeatWhile more turn uses) state := by
    rw [← bind_assoc]
    exact bind_eq_of_eq rfl
  rw [repeatWhile_of_goesOn uses goesOn, unfolded, bind_eq_of_eq atStatement]
  cases ran : statement state with
  | error failure after => rw [bind_error ran, bind_error ran]
  | ok _ between =>
    rw [bind_ok ran, bind_ok ran]
    refine (repeatWhile_bind_repeatWhile _ uses (fun inner deeper => inside inner ?_) between).symm
    simpa using deeper

/-! ## The loops of the pass -/

/-- The loops of the pass, with nested statements. -/
inductive Loop where
  /-- The statements of a program. -/
  | statements
  /-- The statements inside a block. -/
  | inside (block : Block)
  /-- Line ends. -/
  | lineEnds
  /-- The expressions of a condition after the first. -/
  | comparisons
  /-- The terms of an expression after the first. -/
  | terms
  /-- The operands of a term after the first. -/
  | factors

namespace Loop

/-- Whether the loop goes on at a token of the kind. -/
def test : Loop → Kind → Bool
  | statements, kind => kind != .endOfInput
  | inside block, kind => kind != .keyword block.terminator && kind != .endOfInput
  | lineEnds, kind => kind.isNewline
  | comparisons, kind => kind.isComparison
  | terms, kind => kind.isSign
  | factors, kind => kind.isScaling

/-- One time around the loop. -/
def round : Loop → Pass σ Unit
  | statements | inside _ => wholeStatement
  | lineEnds => lineEnd
  | comparisons => comparisonRound
  | terms => signRound
  | factors => scalingRound

theorem goes_round (loop : Loop) :
    Goes (fun kind => loop.test kind = true) 1 (loop.round : Pass σ Unit) := by
  cases loop with
  | statements => exact goes_wholeStatement.mono fun _ _ => trivial
  | inside => exact goes_wholeStatement.mono fun _ _ => trivial
  | lineEnds => exact goes_lineEnd
  | comparisons => exact goes_comparisonRound
  | terms => exact goes_signRound
  | factors => exact goes_scalingRound

theorem uses_round (loop : Loop) :
    Uses (fun state => standsAt loop.test state = true) (loop.round : Pass σ Unit) := by
  cases loop with
  | statements => exact uses_wholeStatement.mono fun _ _ => trivial
  | inside => exact uses_wholeStatement.mono fun _ _ => trivial
  | lineEnds => exact uses_lineEnd
  | comparisons => exact uses_comparisonRound
  | terms => exact uses_signRound
  | factors => exact uses_scalingRound

def run (loop : Loop) : Pass σ Unit :=
  repeatWhile (standsAt loop.test) loop.round loop.uses_round

end Loop

private theorem turn_of_closed {state : State σ} (closed : state.openBlocks = []) :
    turn state = statement state := by
  unfold turn
  rw [closed]

private theorem turns_eq {state : State σ} (orderly : Orderly state) (closed : state.openBlocks = []) :
    turns state = Loop.statements.run state := by
  unfold turns Loop.run
  induction left : state.remaining using Nat.strongRecOn generalizing state with
  | ind _ ih =>
    cases goesOn : standsAt Loop.statements.test state with
    | false =>
      have atEnd : state.current.kind = .endOfInput := by
        simpa [standsAt, Loop.test] using goesOn
      have finished : state.finished = true := by
        cases current : state.current.token <;>
          simp_all [State.finished, Located.kind, Token.kind]
      rw [repeatWhile_of_stopped _ goesOn, repeatWhile_of_stopped _ (by simp [finished])]
    | true =>
      have unfinished : state.finished = false := by
        rw [Bool.eq_false_iff]
        intro finished
        have atEnd : state.current.token = .endOfInput := by
          simpa [State.finished, closed] using finished
        simp [standsAt, Loop.test, Located.kind, atEnd, Token.kind] at goesOn
      rw [repeatWhile_of_goesOn _ goesOn, repeatWhile_turn_eq _ (by simp [unfinished])
        (turn_of_closed closed)]
      · change (wholeStatement >>= _) state = (wholeStatement >>= _) state
        cases ran : wholeStatement state with
        | error failure after => rw [bind_error ran, bind_error ran]
        | ok _ between =>
          rw [bind_ok ran, bind_ok ran]
          obtain ⟨orderlyBetween, blocks⟩ := wholeStatement_blocks orderly ran
          exact ih between.remaining (left ▸ uses_wholeStatement state () between trivial ran)
            orderlyBetween (blocks.trans closed) rfl
      · intro inner deeper
        have open_ : inner.openBlocks ≠ [] := by
          intro none
          rw [none] at deeper
          cases deeper
        simp [State.finished, open_]

/-- From inside a block, the turns until it is closed are whole statements and then its last line. -/
theorem closeDownTo_eq {state : State σ} {block : Block} {outer : List Block}
    (orderly : Orderly state) (blocks : state.openBlocks = block :: outer) :
    closeDownTo outer.length state =
      ((Loop.inside block).run >>= fun _ => closeBlock block outer) state := by
  have deeper : decide (outer.length < state.openBlocks.length) = true := by simp [blocks]
  unfold Loop.run
  induction left : state.remaining using Nat.strongRecOn generalizing state with
  | ind _ ih =>
    cases goesOn : standsAt (Loop.inside block).test state with
    | false =>
      have atClose : turn state = closeBlock block outer state := by
        unfold turn
        rw [blocks]
        refine if_pos ?_
        have kinds : state.current.kind = .keyword block.terminator ∨
            state.current.kind = .endOfInput := by
          simpa [standsAt, Loop.test, Decidable.or_iff_not_imp_left] using goesOn
        cases current : state.current.token <;> simp_all [Located.kind, Token.kind]
      rw [bind_ok (repeatWhile_of_stopped _ goesOn), closeDownTo, repeatWhile_of_goesOn _ deeper,
        bind_eq_of_eq atClose]
      cases ran : closeBlock block outer state with
      | error failure after => rw [bind_error ran]
      | ok _ after =>
        obtain ⟨tokens, faces⟩ := orderly
        obtain ⟨_, _, _, -, -, -, takes⟩ := closeBlock_sound faces blocks ran
        have closed : after.openBlocks = outer :=
          takes.blocks.unique (blocks ▸ Line.Leads.closing block outer)
        rw [bind_ok ran, repeatWhile_of_stopped _ (by simp [closed])]
    | true =>
      have atStatement : turn state = statement state := by
        unfold turn
        rw [blocks]
        refine if_neg fun closing => ?_
        rcases closing with last | atEnd
        · simp [standsAt, Loop.test, Located.kind, last, Token.kind] at goesOn
        · simp [standsAt, Loop.test, Located.kind, atEnd, Token.kind] at goesOn
      rw [bind_eq_of_eq (repeatWhile_of_goesOn _ goesOn), bind_assoc, closeDownTo,
        repeatWhile_turn_eq _ deeper atStatement]
      · change (wholeStatement >>= _) state = (wholeStatement >>= _) state
        cases ran : wholeStatement state with
        | error failure after => rw [bind_error ran, bind_error ran]
        | ok _ between =>
          rw [bind_ok ran, bind_ok ran]
          obtain ⟨orderlyBetween, same⟩ := wholeStatement_blocks orderly ran
          have sameBlocks := same.trans blocks
          exact ih between.remaining (left ▸ uses_wholeStatement state () between trivial ran)
            orderlyBetween sameBlocks (by simp [sameBlocks]) rfl
      · intro inner more
        rw [decide_eq_true_eq]
        rw [blocks, List.length_cons] at more
        omega

/-- A whole statement that starts with the first word of a block. -/
theorem wholeStatement_of_opener {state : State σ} {block : Block} (orderly : Orderly state)
    (opener : state.current.token = .keyword block.opener) :
    wholeStatement state =
      (do
        noteStatement
        let _ ← advance
        openBlock block
        (Loop.inside block).run
        closeBlock block state.openBlocks : Pass σ Unit) state := by
  have opening : statement state = (advance >>= fun _ => openBlock block) (noted state) :=
    statement_of_keyword opener (statementRest?_opener block)
  change (statement >>= _) state = (advance >>= fun _ => openBlock block >>= _) (noted state)
  rw [← bind_assoc]
  cases ran : (advance >>= fun _ => openBlock block : Pass σ Unit) (noted state) with
  | error failure after => rw [bind_error ran, bind_error (opening.trans ran)]
  | ok _ between =>
    rw [bind_ok ran, bind_ok (opening.trans ran)]
    have orderlyBetween := (statement_blocks orderly (opening.trans ran)).1
    refine closeDownTo_eq orderlyBetween ?_
    obtain ⟨tokens, faces⟩ := orderly
    obtain ⟨line, count, used, rest, rfl, spelled, -, takes⟩ :=
      statement_sound faces (opening.trans ran)
    have sameWord : block.opener = line.keyword :=
      Token.keyword.inj (opener.symm.trans (current_of_line faces spelled))
    have leads := takes.blocks
    generalize state.openBlocks = blocks, between.openBlocks = inner at leads
    cases leads with
    | simple statement => cases statement <;> cases block <;> cases sameWord
    | opening other => cases other <;> cases block <;> cases sameWord <;> rfl
    | closing other => cases other <;> cases block <;> cases sameWord

theorem program_eq {state : State σ} (orderly : Orderly state) (closed : state.openBlocks = []) :
    program state =
      (do
        CLines.prologue.forM headerLine
        Loop.lineEnds.run
        Loop.statements.run
        CLines.epilogue.forM emitLine
        resolveJumps : Pass σ Unit) state := by
  obtain ⟨tokens, faces⟩ := orderly
  change (CLines.prologue.forM headerLine >>= fun _ => blankLines >>= fun _ => turns >>= _) state =
    (CLines.prologue.forM headerLine >>= fun _ => blankLines >>= fun _ => Loop.statements.run >>= _)
      state
  cases prologue : (CLines.prologue.forM headerLine : Pass σ Unit) state with
  | error failure after => rw [bind_error prologue, bind_error prologue]
  | ok _ started =>
    rw [bind_ok prologue, bind_ok prologue]
    obtain ⟨facesStarted, performsPrologue⟩ :=
      (translates_forM translates_headerLine CLines.prologue).sound_only faces prologue
    cases blanks : blankLines started with
    | error failure after => rw [bind_error blanks, bind_error blanks]
    | ok _ atLines =>
      rw [bind_ok blanks, bind_ok blanks]
      obtain ⟨_, rest, _, rfl, -, facesLines, performsBlanks⟩ :=
        translates_blankLines.sound started tokens () atLines facesStarted trivial blanks
      have stillClosed : atLines.openBlocks = [] :=
        performsBlanks.blocks.trans (performsPrologue.blocks.trans closed)
      exact bind_eq_of_eq (turns_eq ⟨rest, facesLines⟩ stillClosed)

end TeenyBasic.Pass
