import TeenyBasic.Proofs.Pass.Nesting

/-!
How a pass uses up its tokens. Every whole statement and every round of a loop uses up a token, so every
loop ends after no more rounds than it uses up tokens (`Loop.Finishes`). The end of input is never used
up: a run that has used up some tokens has drawn two more, so it draws at most one token more than there
are with the end of input.
-/

set_option autoImplicit false

namespace TeenyBasic

open Grammar Pass

variable {σ : Type}

namespace Pass

variable [Sink σ]

namespace Loop

/-- So many rounds of the loop, all of them successful, lead from the one state to the other. -/
inductive Rounds (loop : Loop) : Nat → State σ → State σ → Prop where
  | none {state : State σ} : Rounds loop 0 state state
  | next {count : Nat} {state between last : State σ} :
      standsAt loop.test state = true → loop.round state = .ok () between →
      Rounds loop count between last → Rounds loop (count + 1) state last

/-- How the loop ends: it stops where it need not go on, or fails in the round it goes on with. -/
inductive Ends (loop : Loop) (last : State σ) : EStateM.Result Failure (State σ) Unit → Prop where
  | stops : standsAt loop.test last = false → Ends loop last (.ok () last)
  | fails {failure : Failure} {after : State σ} : standsAt loop.test last = true →
      loop.round last = .error failure after → Ends loop last (.error failure after)

/-- The loop ends after finitely many rounds, not more than it uses up tokens. -/
def Finishes (loop : Loop) (state : State σ) : Prop :=
  ∃ count last taken, loop.Rounds count state last ∧ Consumes state taken last ∧
    count ≤ taken.length ∧ loop.Ends last (loop.run state)

theorem consumes_of_round {loop : Loop} {state after : State σ}
    (goesOn : standsAt loop.test state = true) (ran : loop.round state = .ok () after) :
    ∃ taken, Consumes state taken after ∧ 1 ≤ taken.length := by
  have arrives := loop.goes_round state goesOn
  rw [ran] at arrives
  cases arrives with
  | ok travels enough => exact ⟨_, travels.consumes, enough⟩

private theorem finishes (loop : Loop) (state : State σ) : loop.Finishes state := by
  unfold Finishes run
  induction left : state.remaining using Nat.strongRecOn generalizing state with
  | ind _ ih =>
    cases goesOn : standsAt loop.test state with
    | false =>
      rw [repeatWhile_of_stopped _ goesOn]
      exact ⟨0, state, [], .none, Travels.stay.consumes, Nat.le_refl 0, .stops goesOn⟩
    | true =>
      rw [repeatWhile_of_goesOn _ goesOn]
      cases ran : loop.round state with
      | error failure after =>
        rw [bind_error ran]
        exact ⟨0, state, [], .none, Travels.stay.consumes, Nat.le_refl 0, .fails goesOn ran⟩
      | ok _ between =>
        rw [bind_ok ran]
        obtain ⟨taken, consumes, enough⟩ := consumes_of_round goesOn ran
        obtain ⟨count, last, more, rounds, consumesMore, bounded, ends⟩ :=
          ih between.remaining (left ▸ loop.uses_round state () between goesOn ran) between rfl
        refine ⟨count + 1, last, taken ++ more, .next goesOn ran rounds, consumes.trans consumesMore,
          ?_, ends⟩
        rw [List.length_append]
        omega

end Loop

/-- Where the loops stand in the pass. -/
structure MadeOfLoops (σ : Type) [Sink σ] : Prop where
  term : (Pass.term : Pass σ Unit) = do signedOperand; Loop.factors.run
  expression : (Pass.expression : Pass σ Unit) = do Pass.term; Loop.terms.run
  condition : (Pass.condition : Pass σ Unit) = do
    Pass.expression
    let here ← current
    if here.kind.isComparison then Loop.comparisons.run else refuse (.expectedComparison here.token)
  blankLines : (Pass.blankLines : Pass σ Unit) = Loop.lineEnds.run
  block : ∀ (block : Block) (state : State σ), Orderly state →
    state.current.token = .keyword block.opener →
    wholeStatement state =
      (do
        noteStatement
        let _ ← advance
        openBlock block
        (Loop.inside block).run
        closeBlock block state.openBlocks : Pass σ Unit) state
  program : ∀ state : State σ, Orderly state → state.openBlocks = [] →
    Pass.program state =
      (do
        CLines.prologue.forM headerLine
        Loop.lineEnds.run
        Loop.statements.run
        CLines.epilogue.forM emitLine
        resolveJumps : Pass σ Unit) state

private theorem madeOfLoops : MadeOfLoops σ where
  term := rfl
  expression := rfl
  condition := rfl
  blankLines := rfl
  block := fun _ _ orderly opener => wholeStatement_of_opener orderly opener
  program := fun _ orderly closed => program_eq orderly closed

private theorem consumes_of_wholeStatement {state after : State σ}
    (ran : wholeStatement state = .ok () after) :
    ∃ taken, Consumes state taken after ∧ 1 ≤ taken.length := by
  have arrives := goes_wholeStatement state trivial
  rw [ran] at arrives
  cases arrives with
  | ok travels enough => exact ⟨_, travels.consumes, enough⟩

/-- Whether it succeeds or not, a pass over a program has travelled. -/
theorem travels_program (state : State σ) : ∃ taken, Travels state taken (stateOf (program state)) := by
  have arrives := goes_program state trivial
  generalize program state = result at arrives
  cases arrives with
  | ok travels => exact ⟨_, travels⟩
  | error travels => exact ⟨_, travels⟩

end Pass

/-! ## Runs -/

variable [Sink σ]

private theorem state?_runFeed {sink : σ} {feed : Feed} {final : State σ}
    (ended : (runFeed sink feed).state? = some final) :
    ∃ state, State.start sink feed = .ok state ∧ final = stateOf (program state) := by
  unfold runFeed at ended
  cases started : State.start sink feed with
  | error failed =>
    rw [started] at ended
    cases ended
  | ok state =>
    rw [started] at ended
    refine ⟨state, rfl, ?_⟩
    dsimp only at ended
    cases ran : program state <;> rw [ran] at ended <;> exact (Option.some.inj ended).symm

/-- At the end of a run, the tokens it has drawn are those it has used up and the two it still sees. -/
theorem exists_taken_of_run {sink : σ} {source : String} {final : State σ}
    (ended : (run sink source).state? = some final) :
    ∃ taken, tokensDrawn final.notes = taken ++ [final.current, final.upcoming] ∧
      (∀ located ∈ taken, located.token ≠ .endOfInput) ∧
      taken.length ≤ (feedOf source).tokens.length := by
  obtain ⟨state, started, rfl⟩ := state?_runFeed ended
  obtain ⟨taken, travels⟩ := travels_program state
  obtain ⟨notEnd, drawn, noted, shifted⟩ := travels.consumes
  refine ⟨taken, ?_, notEnd, ?_⟩
  · obtain ⟨first, second, -, -, rfl⟩ := State.start_eq_ok.mp started
    rw [noted, ← shifted]
    rfl
  · have bound := (travels.isAt (State.isAt_of_start started)).1.bound
    rwa [Nat.zero_add] at bound

private theorem length_tokensDrawn_le {sink : σ} {source : String} {tokens : List Located}
    (tokenized : tokenize source = .ok tokens) :
    (tokensDrawn (run sink source).notes).length ≤ tokens.length + 1 := by
  obtain ⟨offset, ending, rfl⟩ := tokenize_eq_ok.mp tokenized
  obtain ⟨state, started⟩ := State.exists_start ⟨offset, ending⟩ sink
  obtain ⟨final, ended⟩ : ∃ final, (run sink source).state? = some final := by
    unfold run runFeed
    rw [started]
    dsimp only
    cases program state <;> exact ⟨_, rfl⟩
  have sameNotes : (run sink source).notes = final.notes := by
    cases ran : run sink source <;> rw [ran] at ended <;> cases ended <;> rfl
  obtain ⟨taken, drawn, -, bound⟩ := exists_taken_of_run ended
  rw [sameNotes, drawn]
  simp only [List.length_append, List.length_cons, List.length_nil]
  omega

/-- Parsing uses up a token with every whole statement and with every round of a loop, and so finishes;
it never uses up the end of input, and draws at most one token more than the source has. -/
theorem parsing_finishes_at_endOfInput (sink : σ) (source : String) :
    MadeOfLoops σ ∧
    (∀ state, State.start sink (feedOf source) = .ok state →
      Orderly state ∧ state.openBlocks = []) ∧
    (∀ (loop : Loop) (state : State σ), loop.Finishes state) ∧
    (∀ (loop : Loop) (state after : State σ), standsAt loop.test state = true →
      loop.round state = .ok () after → ∃ taken, Consumes state taken after ∧ 1 ≤ taken.length) ∧
    (∀ state after : State σ, wholeStatement state = .ok () after →
      ∃ taken, Consumes state taken after ∧ 1 ≤ taken.length) ∧
    (∀ final, (run sink source).state? = some final →
      ∃ taken, tokensDrawn final.notes = taken ++ [final.current, final.upcoming] ∧
        ∀ located ∈ taken, located.token ≠ .endOfInput) ∧
    ∀ tokens, tokenize source = .ok tokens →
      (tokensDrawn (run sink source).notes).length ≤ tokens.length + 1 := by
  refine ⟨madeOfLoops, ?_, fun loop state => loop.finishes state,
    fun _ _ _ goesOn ran => Loop.consumes_of_round goesOn ran,
    fun _ _ ran => consumes_of_wholeStatement ran, ?_,
    fun _ tokenized => length_tokensDrawn_le tokenized⟩
  · intro state started
    obtain ⟨faces, -, closed, -⟩ :=
      State.faces_of_start (token_ne_endOfInput_of_mem_feedOf source) started
    exact ⟨⟨_, faces⟩, closed⟩
  · intro final ended
    obtain ⟨taken, drawn, notEnd, -⟩ := exists_taken_of_run ended
    exact ⟨taken, drawn, notEnd⟩

/-- In a block that is never closed, the source is drawn to its end and not any further. -/
theorem parsing_finishes_inside_block :
    ∃ tokens, tokenize "IF 1 > 0 THEN" = .ok tokens ∧ tokens.length = 7 ∧
      (tokensDrawn (run ({} : Transcript) "IF 1 > 0 THEN").notes).length ≤ 7 + 1 := by
  have counted : (tokenize "IF 1 > 0 THEN").toOption.map List.length = some 7 := by decide +kernel
  cases found : tokenize "IF 1 > 0 THEN" with
  | error error =>
    rw [found] at counted
    cases counted
  | ok tokens =>
    rw [found] at counted
    have length : tokens.length = 7 := Option.some.inj counted
    obtain ⟨-, -, -, -, -, -, bounded⟩ :=
      parsing_finishes_at_endOfInput ({} : Transcript) "IF 1 > 0 THEN"
    have drawn := bounded tokens found
    rw [length] at drawn
    exact ⟨tokens, rfl, length, drawn⟩

end TeenyBasic
