import TeenyBasic.Proofs.Pass.Program

/-!
Where a pass stops. A turn that fails has read the start of a line that could have been finished
(`turn_halts`), the turns before it have read whole lines (`turns_eq_error`), and so what a refused
program has read up to its refusal can be completed to a program (`program_halts`). Conversely a pass
over the tokens of a program is refused for its use of names only (`program_of_derives`).
-/

set_option autoImplicit false

namespace TeenyBasic

open Grammar

variable {σ α β : Type} [Sink σ]

namespace Pass

/-- The pass has read and done the start of one of the words when it stops. -/
def Halts (words : α → Words) (state : State σ) (tokens : List Located) (failure : Failure)
    (after : State σ) : Prop :=
  ∃ used rest done, tokens = used ++ rest ∧ after.Faces rest ∧
    state.account.performAll done = .ok after.account ∧ after.feed.ending = state.feed.ending ∧
    Stuck words (used.map (·.token)) done after failure

theorem Halts.of_step {words : α → Words} {others : β → Words} {state start after : State σ}
    (front : List Located) (before : List Action) {tokens : List Located} {failure : Failure}
    (stopped : ∃ used rest done, tokens = used ++ rest ∧ after.Faces rest ∧
      start.Performs done after ∧ Stuck words (used.map (·.token)) done after failure)
    (account : state.account.performAll before = .ok start.account)
    (ending : start.feed.ending = state.feed.ending)
    (extend : ∀ result read done, words result read done →
      ∃ other, others other (front.map (·.token) ++ read) (before ++ done)) :
    Halts others state (front ++ tokens) failure after := by
  obtain ⟨used, rest, done, rfl, facesRest, performs, stuck⟩ := stopped
  refine ⟨front ++ used, rest, before ++ done, by simp, facesRest,
    Account.performAll_append_eq_ok.mpr ⟨_, account, performs.account⟩, performs.ending.trans ending, ?_⟩
  rw [List.map_append]
  exact stuck.map _ _ extend

/-! ## Lines -/

/-- The lines that may stand inside the given blocks and lead to others. -/
def lineWords (blocks inner : List Block) : Words := fun read done =>
  ∃ (line : Line) (count : Nat), line.Leads blocks inner ∧
    read = line.tokens ++ endTokens count ∧ done = line.actions

private theorem closeBlock_halts {block : Block} {outer : List Block} {state after : State σ}
    {tokens : List Located} {failure : Failure} (faces : state.Faces tokens)
    (failed : closeBlock block outer state = .error failure after) :
    Halts (lineWords (block :: outer)) state tokens failure after := by
  rw [closeBlock_eq] at failed
  rcases bind_eq_error failed with failedWord | ⟨_, between, ran, continued⟩
  · obtain ⟨used, rest, done, rfl, facesRest, performs, stuck⟩ :=
      (translates_terminator block).explained state tokens failure after faces trivial failedWord
    have whole := stuck.bind_first fun _ => (translates_endOfLine (σ := σ)).fills
    refine Halts.of_step [] [] ⟨used, rest, done, rfl, facesRest, performs, whole⟩
      rfl rfl ?_
    rintro _ _ _ ⟨_, _, _, _, _, rfl, rfl, ⟨rfl, rfl⟩, count, rfl, rfl⟩
    exact ⟨outer, .closing block, count, .closing block outer, rfl, rfl⟩
  · obtain ⟨used, rest, done, rfl, ⟨spelled, rfl⟩, facesRest, performs⟩ :=
      (translates_terminator block).sound state tokens () between faces trivial ran
    rcases bind_eq_error continued with impossible | ⟨_, left, leaving, failedEnd⟩
    · cases impossible
    · cases leaving
      have facesLeft : State.Faces { between with openBlocks := outer } rest :=
        facesRest.of_same_input rfl rfl rfl
      refine Halts.of_step used _
        (translates_endOfLine.explained _ rest failure after facesLeft trivial failedEnd)
        performs.account performs.ending ?_
      rintro _ _ _ ⟨count, rfl, rfl⟩
      exact ⟨outer, .closing block, count, .closing block outer, by rw [spelled]; rfl, by simp⟩

private theorem openBlock_eq_error {block : Block} {state after : State σ} {failure : Failure}
    (failed : openBlock block state = .error failure after) :
    (do
      emit block.head
      condition
      let _ ← expect (.keyword block.separator)
      endOfLine
      emitLine CLines.blockOpening : Pass σ Unit) state = .error failure after := by
  rw [openBlock_eq] at failed
  rcases bind_eq_error failed with failedLine | ⟨_, _, _, impossible⟩
  · exact failedLine
  · cases impossible

private theorem statement_eq_error {state after : State σ} {failure : Failure}
    (failed : statement state = .error failure after) :
    (after = noted state ∧
      failure = refusedAt (noted state) (.expectedStatement state.current.token)) ∨
    ∃ word rest, state.current.token = .keyword word ∧ statementRest? word = some rest ∧
      (advance >>= fun _ => rest) (noted state) = .error failure after := by
  rw [statement_eq] at failed
  cases current : state.current.token with
  | keyword word =>
    rw [current] at failed
    cases found : statementRest? (σ := σ) word with
    | none =>
      simp only [found] at failed
      cases failed
      exact .inl ⟨rfl, rfl⟩
    | some rest =>
      simp only [found] at failed
      exact .inr ⟨word, rest, rfl, found, failed⟩
  | _ =>
    rw [current] at failed
    cases failed
    exact .inl ⟨rfl, rfl⟩

private theorem lineWords_print (blocks : List Block) :
    lineWords blocks blocks [.keyword .print, .string "", .newline]
      [.write (.line (CLines.printString ""))] :=
  ⟨.simple (.printText ""), 0, .simple _ _, rfl, rfl⟩

private theorem statement_halts {state after : State σ} {tokens : List Located} {failure : Failure}
    (faces : state.Faces tokens) (failed : statement state = .error failure after) :
    Halts (lineWords state.openBlocks) state tokens failure after := by
  have facesNoted : (noted state).Faces tokens := faces.of_same_input rfl rfl rfl
  rcases statement_eq_error failed with ⟨rfl, rfl⟩ | ⟨word, step, current, found, failed⟩
  · have readable : ∀ token ∈ [Token.keyword .print, .string "", .newline], token.Readable := by
      simp [Token.readable_keyword, Token.readable_newline, Token.readable_empty]
    exact ⟨[], tokens, [], rfl, facesNoted, rfl, rfl,
      .misplaced _ _ rfl (lineWords_print state.openBlocks) readable rfl⟩
  · rcases bind_eq_error failed with failedMove | ⟨_, between, moved, continued⟩
    · obtain ⟨rfl, error, ending, rfl⟩ := advance_eq_error failedMove
      exact ⟨[], tokens, [], rfl, facesNoted, rfl, rfl, .faulty ending⟩
    · obtain ⟨others, rfl⟩ := faces.eq_cons (by simp [current])
      obtain ⟨-, facesOthers, performs⟩ := advance_sound facesNoted moved
      cases opening : opens word with
      | none =>
        refine Halts.of_step [state.current] []
          ((translates_statementRest? found opening).explained between others failure after
            facesOthers trivial continued) performs.account performs.ending ?_
        rintro _ read _ ⟨statement, count, spelled, rfl⟩
        refine ⟨_, .simple statement, count, .simple statement _, ?_, rfl⟩
        simpa [current, Line.tokens] using spelled
      | some block =>
        obtain ⟨rfl, opened⟩ := statementRest?_of_opens (σ := σ) opening
        rw [opened] at found
        cases found
        refine Halts.of_step [state.current] []
          ((translates_openingRest block).explained between others failure after facesOthers trivial
            (openBlock_eq_error continued)) performs.account performs.ending ?_
        rintro _ _ _ ⟨⟨condition, count⟩, rfl, rfl⟩
        exact ⟨_, .opening block condition, count, .opening block condition _,
          by simp [current, Line.tokens], rfl⟩

/-- A turn that fails has read the start of a line that could have been finished. -/
theorem turn_halts {state after : State σ} {tokens : List Located} {failure : Failure}
    (faces : state.Faces tokens) (failed : turn state = .error failure after) :
    Halts (lineWords state.openBlocks) state tokens failure after := by
  unfold turn at failed
  split at failed
  · exact statement_halts faces failed
  · rename_i block outer blocks
    split at failed
    · rw [blocks]
      exact closeBlock_halts faces failed
    · exact statement_halts faces failed

private theorem statement_blocked {line : Line} {count : Nat} {state : State σ}
    {used rest : List Located}
    {inner : List Block} {refusal : Refusal} (faces : state.Faces (used ++ rest))
    (faultless : state.feed.Faultless) (notClosing : line.isClosing = false)
    (spelled : used.map (·.token) = line.tokens ++ endTokens count)
    (ends : endsLine (frontKind rest)) (leads : line.Leads state.openBlocks inner)
    (refused : state.account.performAll line.actions = .error refusal) :
    ∃ failure after number, statement state = .error failure after ∧
      failure.cause = .refused refusal number := by
  generalize state.openBlocks = blocks at leads
  cases leads with
  | closing => cases notClosing
  | simple statement =>
    obtain ⟨step, found, simple⟩ := statementRest?_simple (σ := σ) statement
    obtain ⟨usedMore, between, goesOn, facesBetween, performs, spelledRest⟩ :=
      statement_of_line faces faultless spelled found
    have sameAccount : between.account = state.account := (Except.ok.inj performs.account).symm
    obtain ⟨failure, after, number, failed, cause⟩ :=
      (translates_statementRest? found simple).blocked between usedMore rest () _ refusal
        facesBetween (performs.faultless faultless) ⟨statement, count, spelledRest, rfl⟩ ends
        (sameAccount ▸ refused)
    exact ⟨failure, after, number, goesOn.trans failed, cause⟩
  | opening block condition =>
    obtain ⟨usedMore, between, goesOn, facesBetween, performs, spelledRest⟩ :=
      statement_of_line faces faultless spelled (statementRest?_opener block)
    have sameAccount : between.account = state.account := (Except.ok.inj performs.account).symm
    have read : usedMore.map (·.token) =
        condition.tokens ++ .keyword block.separator :: endTokens count := by
      simpa [Line.tokens, Line.keyword] using spelledRest
    obtain ⟨failure, after, number, failed, cause⟩ :=
      (translates_openingRest block).blocked between usedMore rest () _ refusal facesBetween
        (performs.faultless faultless) ⟨(condition, count), read, rfl⟩ ends (sameAccount ▸ refused)
    refine ⟨failure, after, number, goesOn.trans ?_, cause⟩
    rw [openBlock_eq]
    exact bind_error failed

private theorem turn_blocked {line : Line} {count : Nat} {state : State σ} {used rest : List Located}
    {inner : List Block} {refusal : Refusal} (faces : state.Faces (used ++ rest))
    (faultless : state.feed.Faultless)
    (spelled : used.map (·.token) = line.tokens ++ endTokens count)
    (ends : endsLine (frontKind rest)) (leads : line.Leads state.openBlocks inner)
    (refused : state.account.performAll line.actions = .error refusal) :
    ∃ failure after number, turn state = .error failure after ∧
      failure.cause = .refused refusal number := by
  cases closing : line.isClosing with
  | false =>
    rw [turn_of_not_closing closing (current_of_line faces spelled)]
    exact statement_blocked faces faultless closing spelled ends leads refused
  | true =>
    cases line with
    | closing block => cases refused
    | _ => cases closing

/-! ## Turns -/

/-- Between the two states the pass has taken whole lines. -/
structure TakesAll (state : State σ) (lines : List Line) (after : State σ) : Prop where
  account : state.account.performAll (lines.flatMap Line.actions) = .ok after.account
  leads : LeadsAll lines state.openBlocks after.openBlocks
  ending : after.feed.ending = state.feed.ending

private theorem TakesAll.nil (state : State σ) : TakesAll state [] state :=
  ⟨rfl, .nil _, rfl⟩

private theorem TakesAll.cons {state between after : State σ} {line : Line} {lines : List Line}
    (first : Takes state line between) (others : TakesAll between lines after) :
    TakesAll state (line :: lines) after where
  account := Account.performAll_append_eq_ok.mpr ⟨_, first.account, others.account⟩
  leads := .cons first.blocks others.leads
  ending := others.ending.trans first.ending

/-- The turns before one that fails have taken whole lines. -/
theorem turns_eq_error {state after : State σ} {tokens : List Located} {failure : Failure}
    (faces : state.Faces tokens) (failed : turns state = .error failure after) :
    ∃ lines used rest middle, tokens = used ++ rest ∧ Written lines (used.map (·.token)) ∧
      TakesAll state lines middle ∧ middle.Faces rest ∧ middle.finished = false ∧
      turn middle = .error failure after := by
  unfold turns at failed
  fun_induction repeatWhile (fun state => !state.finished) turn uses_unfinished_turn state
    generalizing tokens with
  | case1 state goesOn between ran ih =>
    obtain ⟨line, count, used, rest, rfl, spelled, facesRest, takes⟩ := turn_sound faces ran
    obtain ⟨lines, usedMore, others, middle, rfl, written, takesAll, facesOthers, stopped⟩ :=
      ih facesRest failed
    refine ⟨line :: lines, used ++ usedMore, others, middle, by simp, ?_, .cons takes takesAll,
      facesOthers, stopped⟩
    rw [List.map_append, spelled]
    exact .cons line (lineEnds_endTokens count) written
  | case2 state goesOn failure after ran =>
    cases failed
    exact ⟨[], [], tokens, state, rfl, .nil, .nil state, faces, by simpa using goesOn, ran⟩
  | case3 => cases failed

private theorem lines_blocked {lines : List Line} {blocks : List Block} (nested : Nested blocks lines)
    {state : State σ} {tokens : List Located} {refusal : Refusal}
    (opened : state.openBlocks = blocks) (written : Written lines (tokens.map (·.token)))
    (faces : state.Faces tokens) (faultless : state.feed.Faultless)
    (refused : state.account.performAll (lines.flatMap Line.actions) = .error refusal) :
    ∃ failure after number, turns state = .error failure after ∧
      failure.cause = .refused refusal number := by
  induction nested generalizing state tokens with
  | done => cases refused
  | @cons line blocks inner lines leads nested ih =>
    generalize spelled : tokens.map (·.token) = all at written
    cases written with
    | cons _ ends more =>
      obtain ⟨count, rfl⟩ := ends
      obtain ⟨used, rest, rfl, usedTokens, rfl⟩ := List.map_eq_append_iff.mp spelled
      have endsAtNext := frontKind_of_written more
      rw [turns, repeatWhile_of_goesOn _ (by simp [finished_of_line faces usedTokens])]
      rcases Account.performAll_append_eq_error.mp refused with refusedFirst |
        ⟨between, first, refusedRest⟩
      · obtain ⟨failure, after, number, failed, cause⟩ :=
          turn_blocked faces faultless usedTokens endsAtNext (opened ▸ leads) refusedFirst
        exact ⟨failure, after, number, bind_error failed, cause⟩
      · obtain ⟨next, ran, facesRest, takes⟩ :=
          turn_complete faces faultless usedTokens endsAtNext (opened ▸ leads) first
        have performed : next.account = between := Except.ok.inj (takes.account.symm.trans first)
        obtain ⟨offset, ending⟩ := faultless
        obtain ⟨failure, after, number, failed, cause⟩ :=
          ih (takes.blocks.unique (opened ▸ leads)) more facesRest ⟨offset, takes.ending.trans ending⟩
            (performed ▸ refusedRest)
        exact ⟨failure, after, number, (bind_ok ran).trans failed, cause⟩

/-! ## Programs -/

def programWords : Unit → Words := fun _ read done =>
  ∃ tree : Grammar.Program, tree.Derives (read ++ [.endOfInput]) ∧ done = tree.actions

def epilogueActions : List Action :=
  CLines.epilogue.map fun line => .write (.line line)

theorem exists_call_of_mem_epilogueActions {action : Action} (member : action ∈ epilogueActions) :
    ∃ call, action = .write call := by
  obtain ⟨line, -, rfl⟩ := List.mem_map.mp member
  exact ⟨_, rfl⟩

/-- The ends of the given blocks, and of the program. -/
def closingWords (blocks : List Block) : Words :=
  Words.only (blocks.flatMap fun block => [.keyword block.terminator, .newline])
    ((blocks.map Line.closing).flatMap Line.actions ++ epilogueActions)

private theorem nested_closing (blocks : List Block) : Nested blocks (blocks.map Line.closing) := by
  induction blocks with
  | nil => exact .done
  | cons block blocks ih => exact .cons (.closing block blocks) ih

private theorem written_closing (blocks : List Block) :
    Written (blocks.map Line.closing)
      (blocks.flatMap fun block => [.keyword block.terminator, .newline]) := by
  induction blocks with
  | nil => exact .nil
  | cons block blocks ih => exact .cons (.closing block) (lineEnds_endTokens 0) ih

private theorem fills_closingWords (blocks : List Block) :
    Fills σ fun _ : Unit => closingWords blocks := by
  intro account
  have writes : ∀ action ∈ (blocks.map Line.closing).flatMap Line.actions ++ epilogueActions,
      ∃ call, action = .write call := by
    simp only [List.mem_append, List.mem_flatMap, List.mem_map]
    rintro action (⟨_, ⟨block, -, rfl⟩, member⟩ | member)
    · exact ⟨_, List.mem_singleton.mp member⟩
    · exact exists_call_of_mem_epilogueActions member
  obtain ⟨final, performed⟩ := Account.exists_performAll_of_writes writes account
  refine ⟨(), _, _, final, ⟨rfl, rfl⟩, ?_, performed⟩
  simp only [List.mem_flatMap, List.mem_cons, List.not_mem_nil, or_false]
  rintro token ⟨block, -, rfl | rfl⟩
  · exact Token.readable_keyword _
  · exact Token.readable_newline

omit [Sink σ] in
theorem resolveJumps_eq_error {state after : State σ} {failure : Failure}
    (failed : resolveJumps state = .error failure after) :
    after = state ∧ ∃ jump ∈ state.labels.jumps,
      failure = { cause := .refused (.undefinedLabel jump.label) jump.line, span := jump.span } := by
  unfold resolveJumps at failed
  split at failed
  · cases failed
  · rename_i jump found
    cases failed
    exact ⟨rfl, jump, List.mem_reverse.mp (List.mem_of_find?_eq_some found), rfl⟩

/-- A program is refused at the end of what could start a program, or because of a jump once it has
been read to its end. -/
theorem program_halts {state after : State σ} {tokens : List Located} {failure : Failure}
    (faces : state.Faces tokens) (closed : state.openBlocks = [])
    (failed : program state = .error failure after) :
    Halts programWords state tokens failure after ∨
      state.feed.Faultless ∧
      ∃ tree : Grammar.Program, tree.Derives (tokens.map (·.token) ++ [.endOfInput]) ∧
        ∃ jump ∈ after.labels.jumps, failure =
          { cause := .refused (.undefinedLabel jump.label) jump.line, span := jump.span } := by
  rcases bind_eq_error failed with impossible | ⟨_, started, prologue, failed⟩
  · cases impossible
  obtain ⟨facesStarted, performsPrologue⟩ :=
    (translates_forM translates_headerLine CLines.prologue).sound_only faces prologue
  rcases bind_eq_error failed with failedBlanks | ⟨_, atLines, blanks, failed⟩
  · obtain ⟨used, rest, done, rfl, facesRest, performs, stuck⟩ :=
      translates_blankLines.explained started tokens failure after facesStarted trivial failedBlanks
    have whole := stuck.bind_first fun _ => fills_closingWords []
    refine .inl (Halts.of_step [] _ ⟨used, rest, done, rfl, facesRest, performs, whole⟩
      performsPrologue.account performsPrologue.ending ?_)
    rintro _ _ _ ⟨_, _, _, _, _, rfl, rfl, ⟨count, rfl, rfl⟩, rfl, rfl⟩
    exact ⟨(), ⟨[]⟩, ⟨count, [], .nil, by simp⟩, rfl⟩
  obtain ⟨blank, others, _, rfl, ⟨count, blankTokens, rfl⟩, facesLines, performsBlanks⟩ :=
    translates_blankLines.sound started tokens () atLines facesStarted trivial blanks
  have front := performsPrologue.trans performsBlanks
  rw [List.append_nil] at front
  rcases bind_eq_error failed with failedTurns | ⟨_, atEnd, turned, failed⟩
  · obtain ⟨lines, used, others, middle, rfl, written, takesAll, facesOthers, -, failedTurn⟩ :=
      turns_eq_error facesLines failedTurns
    obtain ⟨usedLine, rest, done, rfl, facesRest, account, ending, stuck⟩ :=
      turn_halts facesOthers failedTurn
    have whole := stuck.bind_first fun inner => fills_closingWords inner
    have performed := Account.performAll_append_eq_ok.mpr
      ⟨_, Account.performAll_append_eq_ok.mpr ⟨_, front.account, takesAll.account⟩, account⟩
    refine .inl ⟨blank ++ used ++ usedLine, rest, _, by simp, facesRest, performed,
      ending.trans (takesAll.ending.trans front.ending), ?_⟩
    rw [List.map_append]
    refine whole.map _ _ ?_
    rintro _ _ _ ⟨inner, _, _, _, _, rfl, rfl, ⟨line, lineCount, leads, rfl, rfl⟩, rfl, rfl⟩
    have nested := takesAll.leads.nested (.cons leads (nested_closing inner))
    rw [front.blocks, closed] at nested
    obtain ⟨statements, split⟩ := nested_iff_exists_linesOf.mp nested
    have writtenAll :=
      written.append (.cons line (lineEnds_endTokens lineCount) (written_closing inner))
    refine ⟨(), ⟨statements⟩, ⟨count, _, derives_iff_written.mpr (split ▸ writtenAll), ?_⟩, ?_⟩
    · simp [blankTokens]
    · simp [Program.actions, ← split, epilogueActions]
  · obtain ⟨lines, nested, written, performed, ending, facesEnd⟩ := lines_sound facesLines turned
    rcases bind_eq_error failed with impossible | ⟨_, ended, epilogue, unresolved⟩
    · cases impossible
    obtain ⟨rfl, jump, member, cause⟩ := resolveJumps_eq_error unresolved
    obtain ⟨statements, rfl⟩ := nested_iff_exists_linesOf.mp (closed ▸ front.blocks ▸ nested)
    obtain ⟨offset, atOffset⟩ := facesEnd.faultless
    refine .inr ⟨⟨offset, front.ending.symm.trans (ending.symm.trans atOffset)⟩, ⟨statements⟩,
      ⟨count, _, derives_iff_written.mpr written, ?_⟩, jump, member, cause⟩
    rw [List.map_append, blankTokens]

/-! ## The end of input -/

/-- The start of a line that ends in a line end is the whole line. -/
theorem eq_endTokens_of_append {line : Line} {count : Nat} {front more : List Token}
    (split : line.tokens ++ endTokens count = front ++ more)
    (ended : front.getLast? = some .newline) : ∃ fewer, front = line.tokens ++ endTokens fewer := by
  have inFront := List.mem_of_getLast? ended
  rcases List.append_eq_append_iff.mp split with ⟨ends, rfl, endsSplit⟩ | ⟨others, spelled, -⟩
  · have allNewlines : ∀ token ∈ ends, token = .newline := fun token member =>
      List.eq_of_mem_replicate (endsSplit ▸ List.mem_append_left more member)
    have replicated := List.eq_replicate_of_mem allNewlines
    cases length : ends.length with
    | zero =>
      obtain rfl := List.eq_nil_of_length_eq_zero length
      exact absurd (by simpa using inFront) line.newline_notMem
    | succ fewer =>
      rw [length] at replicated
      exact ⟨fewer, by rw [replicated]; rfl⟩
  · exact absurd (spelled ▸ List.mem_append_left others inFront) line.newline_notMem

/-- A turn that fails at the end of input has read nothing if the input ends in a line end: no line is
broken off. -/
theorem eq_nil_of_turn_atEnd {state after : State σ} {tokens : List Located} {failure : Failure}
    (faces : state.Faces tokens) (faultless : state.feed.Faultless)
    (ended : ∀ token, (tokens.map (·.token)).getLast? = some token → token = .newline)
    (failed : turn state = .error failure after) (atEnd : after.Faces []) : tokens = [] := by
  obtain ⟨used, rest, done, rfl, facesRest, account, ending, stuck⟩ := turn_halts faces failed
  obtain rfl := facesRest.unique atEnd
  cases stuck with
  | faulty fault =>
    obtain ⟨offset, clean⟩ := faultless
    rw [ending, clean] at fault
    cases fault
  | disallowed _ _ _ current =>
    cases atEnd with
    | none currentEnd =>
      rw [currentEnd] at current
      cases current
  | @misplaced _ inner more actions final _ word _ performed =>
    obtain ⟨line, count, leads, spelled, acts⟩ := word
    cases last : (used.map (·.token)).getLast? with
    | none =>
      simpa using last
    | some token =>
      obtain rfl := ended token (by simpa using last)
      obtain ⟨fewer, whole⟩ := eq_endTokens_of_append spelled.symm last
      have allowed : state.account.performAll line.actions = .ok final := by
        rw [← acts]
        exact Account.performAll_append_eq_ok.mpr ⟨_, account, performed⟩
      obtain ⟨next, ran, -, -⟩ := turn_complete faces faultless whole rfl leads allowed
      rw [ran] at failed
      cases failed

/-- A turn that finds the end of input inside a block misses the last word of the block. -/
theorem turn_atEnd {state after : State σ} {block : Block} {outer : List Block} {failure : Failure}
    (faces : state.Faces []) (inside : state.openBlocks = block :: outer)
    (failed : turn state = .error failure after) :
    failure = refusedAt state (.unexpectedToken (.keyword block.terminator) .endOfInput) := by
  have kind : state.current.kind = .endOfInput := faces.kind_current
  have missing : expect (.keyword block.terminator) state = .error
      (refusedAt state (.unexpectedToken (.keyword block.terminator) .endOfInput)) state := by
    rw [expect_eq, kind]
    rfl
  cases faces with
  | none currentEnd =>
    rw [turn, inside] at failed
    simp only [currentEnd, or_true, if_true, closeBlock, bind_error missing] at failed
    cases failed
    rfl

private theorem exists_blank_front (tokens : List Located) :
    ∃ count blank rest, tokens = blank ++ rest ∧
      blank.map (·.token) = List.replicate count .newline ∧ endsLine (frontKind rest) := by
  induction tokens with
  | nil => exact ⟨0, [], [], rfl, rfl, rfl⟩
  | cons located others ih =>
    cases isNewline : located.kind.isNewline with
    | false => exact ⟨0, [], located :: others, rfl, rfl, isNewline⟩
    | true =>
      obtain ⟨count, blank, rest, rfl, blankTokens, ends⟩ := ih
      have newline : located.token = .newline := Token.isNewline_kind_iff.mp isNewline
      exact ⟨count + 1, located :: blank, rest, rfl, by simp [blankTokens, newline, List.replicate_succ],
        ends⟩

/-- A program that is refused at the end of input has lines that leave a block open. -/
theorem program_atEnd {state after : State σ} {tokens : List Located} {failure : Failure}
    (faces : state.Faces tokens) (faultless : state.feed.Faultless) (closed : state.openBlocks = [])
    (ended : (tokens.map (·.token)).getLast? = some .newline)
    (failed : program state = .error failure after) (atEnd : after.Faces []) :
    (∃ label line, failure.cause = .refused (.undefinedLabel label) line) ∨
      ∃ count lines used block outer line,
        tokens.map (·.token) = List.replicate count .newline ++ used ∧ Written lines used ∧
        LeadsAll lines [] (block :: outer) ∧
        failure.cause =
          .refused (.unexpectedToken (.keyword block.terminator) .endOfInput) line := by
  obtain ⟨count, blank, rest, rfl, blankTokens, ends⟩ := exists_blank_front tokens
  obtain ⟨atLines, goesOn, facesLines, performs⟩ :=
    program_front faces faultless blankTokens ends
  rw [goesOn] at failed
  rcases bind_eq_error failed with failedTurns | ⟨_, stopped, _, failed⟩
  · obtain ⟨lines, used, others, middle, rfl, written, takesAll, facesOthers, unfinished,
      failedTurn⟩ := turns_eq_error facesLines failedTurns
    have clean : middle.feed.Faultless := by
      obtain ⟨offset, ending⟩ := performs.faultless faultless
      exact ⟨offset, takesAll.ending.trans ending⟩
    have lineEnded : ∀ token, (others.map (·.token)).getLast? = some token → token = .newline := by
      intro token last
      simp only [List.map_append, List.getLast?_append, last, Option.some_or] at ended
      exact Option.some.inj ended
    obtain rfl := eq_nil_of_turn_atEnd facesOthers clean lineEnded failedTurn atEnd
    cases inside : middle.openBlocks with
    | nil =>
      rw [(finished_iff facesOthers).mpr ⟨inside, rfl⟩] at unfinished
      cases unfinished
    | cons block outer =>
      have leads := takesAll.leads
      rw [performs.blocks, closed, inside] at leads
      refine .inr ⟨count, lines, _, block, outer, middle.line, ?_, written, leads, ?_⟩
      · simp [blankTokens]
      · rw [turn_atEnd facesOthers inside failedTurn]
        rfl
  · rcases bind_eq_error failed with impossible | ⟨_, ended, _, unresolved⟩
    · cases impossible
    obtain ⟨rfl, jump, -, rfl⟩ := resolveJumps_eq_error unresolved
    exact .inl ⟨_, _, rfl⟩

theorem isNaming_of_performAll {account : Account σ} {actions : List Action} {refusal : Refusal}
    (refused : account.performAll actions = .error refusal) : refusal.code.isNaming = true := by
  induction actions generalizing account with
  | nil => cases refused
  | cons action actions ih =>
    rcases Account.performAll_cons_eq_error.mp refused with refusedFirst | ⟨_, _, refusedRest⟩
    · cases action with
      | write call => cases refusedFirst
      | occur occurrence => cases Account.perform_occur_eq_error.mp refusedFirst <;> rfl
    · exact ih refusedRest

/-- The tokens of a program are refused where one of its actions is not allowed; if all of them are, it
is for a jump. -/
theorem program_fails_of_derives {state after : State σ} {tokens : List Located} {failure : Failure}
    {tree : Grammar.Program} (faces : state.Faces tokens) (faultless : state.feed.Faultless)
    (closed : state.openBlocks = [])
    (derives : tree.Derives (tokens.map (·.token) ++ [.endOfInput]))
    (failed : program state = .error failure after) :
    (∃ refusal line, failure.cause = .refused refusal line ∧
      state.account.performAll tree.actions = .error refusal) ∨
    (∃ final, state.account.performAll tree.actions = .ok final) ∧
      ∃ label line, failure.cause = .refused (.undefinedLabel label) line := by
  obtain ⟨count, used, derived, spelled⟩ := derives
  obtain ⟨blank, rest, rfl, blankTokens, rfl⟩ :=
    List.map_eq_append_iff.mp (List.append_cancel_right spelled)
  have written := derives_iff_written.mp derived
  have nested := nested_iff_exists_linesOf.mpr ⟨tree.statements, rfl⟩
  obtain ⟨atLines, goesOn, facesLines, performs⟩ :=
    program_front faces faultless blankTokens (frontKind_of_written written)
  rw [goesOn] at failed
  have linesFaultless := performs.faultless faultless
  cases allowed : atLines.account.performAll ((linesOf tree.statements).flatMap Line.actions) with
  | error refusal =>
    obtain ⟨found, stopped, number, failedTurns, cause⟩ :=
      lines_blocked nested (performs.blocks.trans closed) written facesLines linesFaultless allowed
    rw [bind_error failedTurns] at failed
    cases failed
    refine .inl ⟨refusal, number, cause, Account.performAll_append_eq_error.mpr (.inl ?_)⟩
    exact Account.performAll_append_eq_error.mpr (.inr ⟨_, performs.account, allowed⟩)
  | ok final =>
    obtain ⟨atEnd, turned, -, -⟩ :=
      lines_complete nested (performs.blocks.trans closed) written facesLines linesFaultless allowed
    rw [bind_ok turned] at failed
    rcases bind_eq_error failed with impossible | ⟨_, ended, epilogue, unresolved⟩
    · cases impossible
    obtain ⟨rfl, jump, member, rfl⟩ := resolveJumps_eq_error unresolved
    obtain ⟨last, closing⟩ :=
      Account.exists_performAll_of_writes (fun _ => exists_call_of_mem_epilogueActions) final
    refine .inr ⟨⟨last, Account.performAll_append_eq_ok.mpr ⟨final, ?_, closing⟩⟩, _, _, rfl⟩
    exact Account.performAll_append_eq_ok.mpr ⟨_, performs.account, allowed⟩

/-- The tokens of a program are refused for no matter of syntax. -/
theorem program_of_derives {state after : State σ} {tokens : List Located} {failure : Failure}
    {tree : Grammar.Program} (faces : state.Faces tokens) (faultless : state.feed.Faultless)
    (closed : state.openBlocks = [])
    (derives : tree.Derives (tokens.map (·.token) ++ [.endOfInput]))
    (failed : program state = .error failure after) :
    ∃ refusal line, failure.cause = .refused refusal line ∧ refusal.code.isSyntactic = false := by
  rcases program_fails_of_derives faces faultless closed derives failed with
    ⟨refusal, line, cause, refused⟩ | ⟨-, label, line, cause⟩
  · exact ⟨refusal, line, cause, Code.isSyntactic_of_isNaming (isNaming_of_performAll refused)⟩
  · exact ⟨_, line, cause, rfl⟩

end Pass

end TeenyBasic
