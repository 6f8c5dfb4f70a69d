import TeenyBasic.Proofs.Lookahead

/-!
Layout. Blanks, comments, empty lines and a missing line end at the end of a source leave no trace but
in where its tokens stand and how many line ends follow each other. Two passes over sources with the
same tokens up to that go side by side, one line end of the one against any number of the other
(`lineBreak_standsAt`), so they come to the same (`layout_irrelevant`).
-/

set_option autoImplicit false

namespace TeenyBasic

open Grammar Pass

variable {σ τ : Type}

/-- Tokens without the line ends that follow another one. `broken` tells whether one stands before. -/
def collapse (broken : Bool) : List Located → List Located
  | [] => []
  | located :: rest =>
    if located.token = .newline then
      if broken then collapse true rest else located :: collapse true rest
    else located :: collapse false rest

theorem collapse_of_ne {located : Located} (notNewline : located.token ≠ .newline) (broken : Bool)
    (rest : List Located) : collapse broken (located :: rest) = located :: collapse false rest := by
  rw [collapse, if_neg notNewline]

theorem collapse_true_newline {located : Located} (newline : located.token = .newline)
    (rest : List Located) : collapse true (located :: rest) = collapse true rest := by
  rw [collapse, if_pos newline, if_pos rfl]

theorem collapse_false (located : Located) (rest : List Located) :
    collapse false (located :: rest) =
      located :: collapse (decide (located.token = .newline)) rest := by
  by_cases newline : located.token = .newline <;> simp [collapse, newline]

/-! ## One pass -/

/-- The states differ in where the pass stands and in its notes at most. -/
structure State.SameBooks (state after : State σ) : Prop where
  sink : after.sink = state.sink
  declared : after.declared = state.declared
  labels : after.labels = state.labels
  blocks : after.openBlocks = state.openBlocks

theorem State.SameBooks.trans {state between after : State σ} (first : state.SameBooks between)
    (second : between.SameBooks after) : state.SameBooks after :=
  ⟨second.sink.trans first.sink, second.declared.trans first.declared,
    second.labels.trans first.labels, second.blocks.trans first.blocks⟩

namespace Place.IsAt

variable {place next : Place} {whole : Feed} {index : Nat}

theorem drop_stream (isAt : place.IsAt whole index) :
    whole.stream.drop index = place.current :: whole.stream.drop (index + 1) := by
  obtain ⟨inside, found⟩ := List.getElem?_eq_some_iff.mp isAt.stream
  rw [List.drop_eq_getElem_cons inside, found]

private theorem index_lt (isAt : place.IsAt whole index) (notEnd : place.current.token ≠ .endOfInput) :
    index < whole.tokens.length := by
  refine Nat.lt_of_not_le fun outside => notEnd ?_
  exact Feed.token_of_endToken? ((Feed.drawn?_of_le outside).symm.trans isAt.current)

theorem move_of_ne (isAt : place.IsAt whole index) (faultless : whole.Faultless)
    (notEnd : place.current.token ≠ .endOfInput) :
    ∃ next, place.move = .ok next ∧ next.IsAt whole (index + 1) := by
  obtain ⟨next, moved⟩ := isAt.exists_move (faultless.isSome_drawn? _)
  have isNext := isAt.move moved
  rw [Nat.min_eq_left (isAt.index_lt notEnd)] at isNext
  exact ⟨next, moved, isNext⟩

end Place.IsAt

section OnePass

variable {whole : Feed} {index : Nat} {state : State σ}

private theorem standsAt_newline_iff :
    standsAt Kind.isNewline state = true ↔ state.current.token = .newline := by
  rw [standsAt, Located.kind]
  exact Token.isNewline_kind_iff

theorem lineEnd_isAt (faultless : whole.Faultless) (isAt : state.place.IsAt whole index)
    (newline : state.current.token = .newline) :
    ∃ after, lineEnd state = .ok () after ∧ state.SameBooks after ∧
      after.place.IsAt whole (index + 1) := by
  have notEnd : state.place.current.token ≠ .endOfInput := by simp [State.place, newline]
  obtain ⟨next, moved, isNext⟩ := isAt.move_of_ne faultless notEnd
  exact ⟨_, bind_ok (advance_of_move moved), ⟨rfl, rfl, rfl, rfl⟩, isNext.of_line _⟩

/-- Empty lines leave nothing behind. -/
theorem blankLines_isAt (faultless : whole.Faultless) (isAt : state.place.IsAt whole index) :
    ∃ after next, blankLines state = .ok () after ∧ state.SameBooks after ∧
      after.place.IsAt whole next ∧
      collapse true (whole.stream.drop index) = collapse false (whole.stream.drop next) := by
  unfold blankLines
  fun_induction repeatWhile (standsAt Kind.isNewline) lineEnd uses_lineEnd state
    generalizing index with
  | case1 state goesOn between ran ih =>
    have newline := standsAt_newline_iff.mp goesOn
    obtain ⟨after, ended, sameBooks, isNext⟩ := lineEnd_isAt faultless isAt newline
    rw [ran] at ended
    cases ended
    obtain ⟨last, final, rest, sameRest, isLast, collapsed⟩ := ih isNext
    refine ⟨last, final, rest, sameBooks.trans sameRest, isLast, ?_⟩
    have atNewline : state.place.current.token = .newline := newline
    rw [isAt.drop_stream, collapse_true_newline atNewline, collapsed]
  | case2 state goesOn failure after ran =>
    obtain ⟨_, ended, -, -⟩ := lineEnd_isAt faultless isAt (standsAt_newline_iff.mp goesOn)
    rw [ran] at ended
    cases ended
  | case3 state stopped =>
    refine ⟨state, index, rfl, ⟨rfl, rfl, rfl, rfl⟩, isAt, ?_⟩
    have notNewline : state.place.current.token ≠ .newline :=
      fun newline => stopped (standsAt_newline_iff.mpr newline)
    rw [isAt.drop_stream, collapse_of_ne notNewline, collapse_of_ne notNewline]

end OnePass

/-- The place is the one after `rank` tokens of the whole feed, leaving out those line ends that
follow another one. -/
def Place.StandsAt (place : Place) (whole : Feed) (rank : Nat) : Prop :=
  ∃ index, place.IsAt whole index ∧
    (collapse true whole.stream).drop rank = collapse false (whole.stream.drop index)

namespace Place.StandsAt

variable {place : Place} {whole : Feed} {rank : Nat}

theorem found (stands : place.StandsAt whole rank) :
    (collapse true whole.stream)[rank]? = some place.current := by
  obtain ⟨index, isAt, collapsed⟩ := stands
  rw [isAt.drop_stream, collapse_false] at collapsed
  simpa using congrArg List.head? collapsed

theorem drop_succ {index : Nat} (isAt : place.IsAt whole index)
    (collapsed : (collapse true whole.stream).drop rank = collapse false (whole.stream.drop index)) :
    (collapse true whole.stream).drop (rank + 1) =
      collapse (decide (place.current.token = .newline)) (whole.stream.drop (index + 1)) := by
  rw [isAt.drop_stream, collapse_false] at collapsed
  simpa using congrArg List.tail collapsed

private theorem move (stands : place.StandsAt whole rank) (faultless : whole.Faultless)
    (notEnd : ∀ located ∈ whole.tokens, located.token ≠ .endOfInput)
    (notNewline : place.current.token ≠ .newline) :
    ∃ next, place.move = .ok next ∧
      next.StandsAt whole (if place.current.token = .endOfInput then rank else rank + 1) := by
  obtain ⟨index, isAt, collapsed⟩ := stands
  split
  · rename_i atEnd
    obtain ⟨next, moved⟩ := isAt.exists_move (faultless.isSome_drawn? _)
    have isNext := isAt.move moved
    have outside : whole.tokens.length ≤ index := by
      refine Nat.le_of_not_lt fun inside => ?_
      obtain ⟨token, found, notLast⟩ := (Feed.lt_length_iff notEnd).mp inside
      rw [isAt.current] at found
      cases found
      exact notLast atEnd
    rw [Nat.min_eq_right (Nat.le_succ_of_le outside)] at isNext
    have sameIndex : whole.tokens.length = index := Nat.le_antisymm outside isAt.bound
    exact ⟨next, moved, index, sameIndex ▸ isNext, collapsed⟩
  · rename_i notLast
    obtain ⟨next, moved, isNext⟩ := isAt.move_of_ne faultless notLast
    refine ⟨next, moved, index + 1, isNext, ?_⟩
    rw [drop_succ isAt collapsed, decide_eq_false notNewline]

end Place.StandsAt

/-- A line end and all empty lines after it count as one. -/
theorem lineBreak_standsAt {state : State σ} {whole : Feed} {rank : Nat} (faultless : whole.Faultless)
    (stands : state.place.StandsAt whole rank) (newline : state.current.token = .newline) :
    ∃ after, lineBreak state = .ok () after ∧ state.SameBooks after ∧
      after.place.StandsAt whole (rank + 1) := by
  obtain ⟨index, isAt, collapsed⟩ := stands
  obtain ⟨between, ended, sameBooks, isNext⟩ := lineEnd_isAt faultless isAt newline
  obtain ⟨after, next, blank, sameRest, isLast, rest⟩ := blankLines_isAt faultless isNext
  refine ⟨after, ?_, sameBooks.trans sameRest, next, isLast, ?_⟩
  · have split : (lineBreak : Pass σ Unit) = lineEnd >>= fun _ => blankLines := by
      simp [lineBreak, lineEnd]
    rw [split]
    exact (bind_ok ended).trans blank
  · rw [Place.StandsAt.drop_succ isAt collapsed, ← rest]
    rw [show state.place.current.token = .newline from newline]
    rfl

/-- The state after the fixed lines of the header. -/
def State.headed [Sink σ] (state : State σ) : State σ :=
  { state with sink := CLines.prologue.foldl Sink.headerLine state.sink }

private theorem State.place_headed [Sink σ] (state : State σ) : state.place = state.headed.place :=
  rfl

private theorem program_prologue [Sink σ] (state : State σ) :
    program state =
      (do blankLines; turns; CLines.epilogue.forM emitLine; resolveJumps : Pass σ Unit)
        state.headed :=
  rfl

/-! ## Two passes -/

/-- The feeds have the same tokens up to layout. -/
structure Feed.Alike (left right : Feed) : Prop where
  collapsed : (collapse true left.stream).map (·.token) = (collapse true right.stream).map (·.token)
  leftFaultless : left.Faultless
  rightFaultless : right.Faultless
  leftNotEnd : ∀ located ∈ left.tokens, located.token ≠ .endOfInput
  rightNotEnd : ∀ located ∈ right.tokens, located.token ≠ .endOfInput

/-- What belongs together in passes over two feeds of different layout. -/
def Pairing.acrossLayout (left right : Feed) (sinks : σ → τ → Prop) : Pairing σ τ where
  places first second := ∃ rank, first.StandsAt left rank ∧ second.StandsAt right rank
  parted _ := False
  spots token first second := ∃ rank : Nat,
    (collapse true left.stream)[rank]? = some { token := token, span := first } ∧
    (collapse true right.stream)[rank]? = some { token := token, span := second }
  lines _ _ := True
  sinks := sinks

private theorem Pairing.Abreast.of_sameBooks {c : Pairing σ τ} {left after : State σ}
    {right other : State τ} (abreast : c.Abreast left right) (leftBooks : left.SameBooks after)
    (rightBooks : right.SameBooks other) (places : c.places after.place other.place) :
    c.Abreast after other where
  place := places
  sink := by rw [leftBooks.sink, rightBooks.sink]; exact abreast.sink
  declared := by rw [leftBooks.declared, rightBooks.declared]; exact abreast.declared
  labels := by rw [leftBooks.labels, rightBooks.labels]; exact abreast.labels
  jumps := by rw [leftBooks.labels, rightBooks.labels]; exact abreast.jumps
  blocks := by rw [leftBooks.blocks, rightBooks.blocks]; exact abreast.blocks

private theorem related_headerLines [Sink σ] [Sink τ] {sinks : σ → τ → Prop}
    (perform : ∀ {first second} (call : Call), sinks first second →
      sinks (Sink.perform first call) (Sink.perform second call))
    {left : σ} {right : τ} (related : sinks left right) (lines : List String) :
    sinks (lines.foldl Sink.headerLine left) (lines.foldl Sink.headerLine right) := by
  induction lines generalizing left right with
  | nil => exact related
  | cons line lines ih => exact ih (perform (.header line) related)

namespace Feed.Alike

variable {left right : Feed} (alike : left.Alike right)

include alike

private theorem token_eq {first second : Place} {rank : Nat} (stands : first.StandsAt left rank)
    (alongside : second.StandsAt right rank) : first.current.token = second.current.token := by
  have same := congrArg (·[rank]?) alike.collapsed
  simpa [stands.found, alongside.found] using same

variable [Sink σ] [Sink τ] {sinks : σ → τ → Prop}
  (perform : ∀ {first second} (call : Call), sinks first second →
    sinks (Sink.perform first call) (Sink.perform second call))

include perform

private theorem lawful : (Pairing.acrossLayout left right sinks).Lawful where
  token := by
    rintro first second ⟨rank, stands, alongside⟩
    exact alike.token_eq stands alongside
  spot := by
    rintro first second ⟨rank, stands, alongside⟩
    refine ⟨rank, stands.found, ?_⟩
    rw [alike.token_eq stands alongside]
    exact alongside.found
  line := fun _ => trivial
  perform := perform
  move := by
    rintro first second ⟨rank, stands, alongside⟩ notNewline
    have sameToken := alike.token_eq stands alongside
    obtain ⟨next, moved, standsNext⟩ := stands.move alike.leftFaultless alike.leftNotEnd notNewline
    obtain ⟨other, otherMoved, standsOther⟩ :=
      alongside.move alike.rightFaultless alike.rightNotEnd (sameToken ▸ notNewline)
    rw [← sameToken] at standsOther
    exact .together moved otherMoved ⟨_, standsNext, standsOther⟩
  lineBreak := by
    intro first second abreast newline
    obtain ⟨rank, stands, alongside⟩ := abreast.place
    have sameToken := alike.token_eq stands alongside
    obtain ⟨after, ended, sameBooks, standsAfter⟩ :=
      lineBreak_standsAt alike.leftFaultless stands newline
    obtain ⟨other, otherEnded, otherBooks, standsOther⟩ :=
      lineBreak_standsAt alike.rightFaultless alongside (sameToken.symm.trans newline)
    rw [ended, otherEnded]
    exact .completed (abreast.of_sameBooks sameBooks otherBooks ⟨_, standsAfter, standsOther⟩)
  partedMove := fun gone _ => gone.elim
  partedLine := fun gone => gone

private theorem outcomes {leftSink : σ} {rightSink : τ} (related : sinks leftSink rightSink)
    {state : State σ} {other : State τ} (started : State.start leftSink left = .ok state)
    (otherStarted : State.start rightSink right = .ok other) :
    (Pairing.acrossLayout left right sinks).Outcomes (program state) (program other) := by
  have isAt := state.place_headed ▸ State.isAt_of_start started
  have otherAt := other.place_headed ▸ State.isAt_of_start otherStarted
  obtain ⟨_, _, -, -, rfl⟩ := State.start_eq_ok.mp started
  obtain ⟨_, _, -, -, rfl⟩ := State.start_eq_ok.mp otherStarted
  rw [program_prologue, program_prologue]
  obtain ⟨after, next, blank, sameBooks, isNext, collapsed⟩ :=
    blankLines_isAt alike.leftFaultless isAt
  obtain ⟨stopped, otherNext, otherBlank, otherBooks, otherIsNext, otherCollapsed⟩ :=
    blankLines_isAt alike.rightFaultless otherAt
  rw [bind_ok blank, bind_ok otherBlank]
  -- The empty lines at the start are read by each pass alone; from here on the two are abreast.
  refine (alike.lawful perform).body.outcomes after stopped ?_ trivial
  exact
    { place := ⟨0, ⟨next, isNext, collapsed⟩, otherNext, otherIsNext, otherCollapsed⟩
      sink := by
        rw [sameBooks.sink, otherBooks.sink]
        exact related_headerLines perform related CLines.prologue
      declared := sameBooks.declared.trans otherBooks.declared.symm
      labels := congrArg Labels.names (sameBooks.labels.trans otherBooks.labels.symm)
      jumps := by
        rw [sameBooks.labels, otherBooks.labels]
        exact .nil
      blocks := sameBooks.blocks.trans otherBooks.blocks.symm }

end Feed.Alike

private theorem ne_lexical_of_program [Sink σ] {feed : Feed} {sink : σ} {state after : State σ}
    {failure : Failure} (faultless : feed.Faultless)
    (notEnd : ∀ located ∈ feed.tokens, located.token ≠ .endOfInput)
    (started : State.start sink feed = .ok state) (failed : program state = .error failure after)
    (error : LexicalError) : failure ≠ error.failure := by
  intro lexical
  have cause := congrArg Failure.cause lexical
  obtain ⟨faces, -, closed, ending⟩ := State.faces_of_start notEnd started
  rcases program_halts faces closed failed with ⟨_, _, _, -, -, -, sameEnding, stuck⟩ |
    ⟨-, _, -, jump, -, rfl⟩
  · cases stuck with
    | faulty fault =>
      obtain ⟨offset, clean⟩ := faultless
      rw [sameEnding, ending, clean] at fault
      cases fault
    | misplaced => cases cause
    | disallowed => cases cause
  · cases cause

/-- Runs over the two feeds both complete or are both refused, at tokens that correspond, and have
written the same. -/
theorem Feed.Alike.runFeed [Sink σ] {left right : Feed} (alike : left.Alike right) (sink : σ) :
    ∃ after other : State σ, after.sink = other.sink ∧
      (TeenyBasic.runFeed sink left = .completed after ∧
          TeenyBasic.runFeed sink right = .completed other ∨
        ∃ refusal leftLine rightLine leftSpan rightSpan,
          TeenyBasic.runFeed sink left =
            .halted { cause := .refused refusal leftLine, span := leftSpan } after ∧
          TeenyBasic.runFeed sink right =
            .halted { cause := .refused refusal rightLine, span := rightSpan } other ∧
          ∃ (rank : Nat) (token : Token),
            (collapse true left.stream)[rank]? = some { token := token, span := leftSpan } ∧
            (collapse true right.stream)[rank]? = some { token := token, span := rightSpan }) := by
  obtain ⟨state, started⟩ := State.exists_start alike.leftFaultless sink
  obtain ⟨other, otherStarted⟩ := State.exists_start alike.rightFaultless sink
  have perform : ∀ {first second : σ} (call : Call), first = second →
      Sink.perform first call = Sink.perform second call := fun call same => same ▸ rfl
  have outcomes := alike.outcomes perform rfl started otherStarted
  generalize ran : program state = result at outcomes
  generalize otherRan : program other = otherResult at outcomes
  cases outcomes with
  | completed abreast =>
    exact ⟨_, _, abreast.sink, .inl ⟨runFeed_eq_completed.mpr ⟨state, started, ran⟩,
      runFeed_eq_completed.mpr ⟨other, otherStarted, otherRan⟩⟩⟩
  | refused abreast lines spots =>
    obtain ⟨rank, found, otherFound⟩ := spots
    exact ⟨_, _, abreast.sink, .inr ⟨_, _, _, _, _, runFeed_eq_halted.mpr ⟨state, started, ran⟩,
      runFeed_eq_halted.mpr ⟨other, otherStarted, otherRan⟩, rank, _, found, otherFound⟩⟩
  | faulty =>
    exact absurd rfl (ne_lexical_of_program alike.leftFaultless alike.leftNotEnd started ran _)
  | parted gone => exact gone.elim

private theorem Feed.Alike.transcript_eq {first second : String}
    (alike : (feedOf first).Alike (feedOf second)) : transcript first = transcript second := by
  obtain ⟨after, other, sameSink, ⟨completed, otherCompleted⟩ |
    ⟨_, _, _, _, _, halted, otherHalted, -⟩⟩ := alike.runFeed ({} : Transcript)
  · rw [transcript, transcript, run, run, completed, otherCompleted]
    exact congrArg (fun sink : Transcript => sink.calls.toList) sameSink
  · rw [transcript, transcript, run, run, halted, otherHalted]
    exact congrArg (fun sink : Transcript => sink.calls.toList) sameSink

/-- The failures differ in the line and in where corresponding tokens stand at most. -/
structure Failure.Corresponds (left right : Failure) (leftTokens rightTokens : List Located) : Prop where
  code : left.diagnostic.code = right.diagnostic.code
  hint : left.diagnostic.hint = right.diagnostic.hint
  message : ∃ (wording : String) (leftLine rightLine : Nat),
    left.diagnostic.message = wording ++ " (line " ++ toString leftLine ++ ")" ∧
    right.diagnostic.message = wording ++ " (line " ++ toString rightLine ++ ")"
  span : ∃ (rank : Nat) (here there : Located), leftTokens[rank]? = some here ∧
    rightTokens[rank]? = some there ∧ left.diagnostic.span = here.span ∧
    right.diagnostic.span = there.span

/-- Sources that both tokenize, with the same tokens up to line ends at the start or after another
one, have the same C text or are refused for the same reason at corresponding tokens, after the same
calls. -/
theorem layout_irrelevant {first second : String} {firstTokens secondTokens : List Located}
    (firstTokenized : tokenize first = .ok firstTokens)
    (secondTokenized : tokenize second = .ok secondTokens)
    (same : (collapse true firstTokens).map (·.token.kindAndText) =
      (collapse true secondTokens).map (·.token.kindAndText)) :
    (∃ text, compile first = .ok text ∧ compile second = .ok text) ∨
    ∃ left right, compile first = .error left ∧ compile second = .error right ∧
      left.Corresponds right (collapse true firstTokens) (collapse true secondTokens) ∧
      transcript first = transcript second := by
  obtain ⟨firstFaultless, rfl⟩ := streamOf_of_tokenize firstTokenized
  obtain ⟨secondFaultless, rfl⟩ := streamOf_of_tokenize secondTokenized
  have sameTokens : (collapse true (streamOf first)).map (·.token) =
      (collapse true (streamOf second)).map (·.token) := by
    rw [← map_kindAndText_inj]
    simpa [Function.comp_def] using same
  have alike : (feedOf first).Alike (feedOf second) :=
    ⟨sameTokens, firstFaultless, secondFaultless, token_ne_endOfInput_of_mem_feedOf first,
      token_ne_endOfInput_of_mem_feedOf second⟩
  obtain ⟨after, other, sameSink, ⟨completed, otherCompleted⟩ |
    ⟨refusal, leftLine, rightLine, leftSpan, rightSpan, halted, otherHalted, rank, token, found,
      otherFound⟩⟩ := alike.runFeed ({} : Emitter)
  · exact .inl ⟨after.sink.finish, compile_eq_ok.mpr ⟨after, completed, rfl⟩,
      compile_eq_ok.mpr ⟨other, otherCompleted, by rw [sameSink]⟩⟩
  · refine .inr ⟨_, _, compile_eq_error.mpr (.inr ⟨after, halted⟩),
      compile_eq_error.mpr (.inr ⟨other, otherHalted⟩), ?_, alike.transcript_eq⟩
    exact
      { code := rfl
        hint := rfl
        message := ⟨refusal.message, leftLine, rightLine, rfl, rfl⟩
        span := ⟨rank, _, _, found, otherFound, rfl, rfl⟩ }

theorem layout_irrelevant_spread :
    ∃ left right, compile "PRINT 1\nLET x = *\n" = .error left ∧
      compile "\n# a comment\n\nPRINT\t1 # one\r\n\r\n  LET x=*" = .error right ∧
      left.Corresponds right (collapse true (streamOf "PRINT 1\nLET x = *\n"))
        (collapse true (streamOf "\n# a comment\n\nPRINT\t1 # one\r\n\r\n  LET x=*")) ∧
      transcript "PRINT 1\nLET x = *\n" =
        transcript "\n# a comment\n\nPRINT\t1 # one\r\n\r\n  LET x=*" := by
  have refused : (compile "PRINT 1\nLET x = *\n").toOption = none := by decide +kernel
  have tokenized : tokenize "PRINT 1\nLET x = *\n" = .ok (streamOf "PRINT 1\nLET x = *\n") := by
    decide +kernel
  have spread : tokenize "\n# a comment\n\nPRINT\t1 # one\r\n\r\n  LET x=*" =
      .ok (streamOf "\n# a comment\n\nPRINT\t1 # one\r\n\r\n  LET x=*") := by
    decide +kernel
  rcases layout_irrelevant tokenized spread (by decide +kernel) with ⟨text, compiled, -⟩ | failed
  · rw [compiled] at refused
    cases refused
  · exact failed

end TeenyBasic
