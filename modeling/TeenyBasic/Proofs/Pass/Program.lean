import TeenyBasic.Compile
import TeenyBasic.Proofs.Pass.Statement

/-!
Whole programs. The loop of turns reads exactly the lines of a tree (`lines_sound`,
`lines_complete`), and a run over a source completes just when the tokens of the source derive from a
program all of whose actions are allowed (`run_completed_iff`).
-/

set_option autoImplicit false

namespace TeenyBasic

open Grammar

variable {σ : Type} [Sink σ]

namespace Pass

/-! ## The loop of turns -/

theorem frontKind_of_written {lines : List Line} {tokens : List Located}
    (written : Written lines (tokens.map (·.token))) : endsLine (frontKind tokens) := by
  generalize spelled : tokens.map (·.token) = all at written
  cases written with
  | nil =>
    obtain rfl := List.map_eq_nil_iff.mp spelled
    rfl
  | cons line _ _ =>
    obtain ⟨others, lineTokens⟩ := line.head_tokens
    rw [lineTokens] at spelled
    obtain ⟨located, rest, rfl, token, -⟩ := List.map_eq_cons_iff.mp spelled
    rw [frontKind, Located.kind, token]
    rfl

omit [Sink σ] in
theorem finished_iff {state : State σ} {tokens : List Located} (faces : state.Faces tokens) :
    state.finished = true ↔ state.openBlocks = [] ∧ tokens = [] := by
  have atEnd : state.current.token = .endOfInput ↔ tokens = [] := by
    constructor
    · intro atEnd
      cases faces with
      | none => rfl
      | one notEnd => exact absurd atEnd notEnd
      | more notEnd => exact absurd atEnd notEnd
    · rintro rfl
      cases faces with
      | none atEnd => exact atEnd
  simp [State.finished, atEnd]

omit [Sink σ] in
theorem finished_of_line {line : Line} {count : Nat} {state : State σ} {used rest : List Located}
    (faces : state.Faces (used ++ rest))
    (spelled : used.map (·.token) = line.tokens ++ endTokens count) : state.finished = false := by
  rw [Bool.eq_false_iff, ne_eq, finished_iff faces]
  rintro ⟨-, empty⟩
  obtain ⟨tail, lineTokens⟩ := line.head_tokens
  obtain ⟨rfl, -⟩ := List.append_eq_nil_iff.mp empty
  rw [lineTokens] at spelled
  cases spelled

theorem uses_unfinished_turn :
    Uses (fun state => (!state.finished) = true) (turn : Pass σ Unit) :=
  uses_turn.mono fun _ _ => trivial

def turns : Pass σ Unit :=
  repeatWhile (fun state => !state.finished) turn uses_unfinished_turn

theorem lines_sound {state after : State σ} {tokens : List Located} (faces : state.Faces tokens)
    (success : turns state = .ok () after) :
    ∃ lines, Nested state.openBlocks lines ∧ Written lines (tokens.map (·.token)) ∧
      state.account.performAll (lines.flatMap Line.actions) = .ok after.account ∧
      after.feed.ending = state.feed.ending ∧ after.Faces [] := by
  unfold turns at success
  fun_induction repeatWhile (fun state => !state.finished) turn uses_unfinished_turn state
    generalizing tokens with
  | case1 state goesOn between ran ih =>
    obtain ⟨line, count, used, rest, rfl, spelled, facesRest, takes⟩ := turn_sound faces ran
    obtain ⟨lines, nested, written, performed, ending, facesEnd⟩ := ih facesRest success
    refine ⟨line :: lines, .cons takes.blocks nested, ?_, ?_, ending.trans takes.ending, facesEnd⟩
    · rw [List.map_append, spelled]
      exact .cons line (lineEnds_endTokens count) written
    · exact Account.performAll_append_eq_ok.mpr ⟨_, takes.account, performed⟩
  | case2 => cases success
  | case3 state stopped =>
    cases success
    obtain ⟨closed, rfl⟩ := (finished_iff faces).mp (by simpa using stopped)
    exact ⟨[], closed ▸ .done, .nil, rfl, rfl, faces⟩

theorem lines_complete {lines : List Line} {blocks : List Block} (nested : Nested blocks lines)
    {state : State σ} {tokens : List Located} {final : Account σ}
    (opened : state.openBlocks = blocks) (written : Written lines (tokens.map (·.token)))
    (faces : state.Faces tokens) (faultless : state.feed.Faultless)
    (allowed : state.account.performAll (lines.flatMap Line.actions) = .ok final) :
    ∃ after, turns state = .ok () after ∧ after.account = final ∧ after.Faces [] := by
  unfold turns
  induction nested generalizing state tokens with
  | done =>
    generalize spelled : tokens.map (·.token) = all at written
    cases written
    obtain rfl := List.map_eq_nil_iff.mp spelled
    have finished := (finished_iff faces).mpr ⟨opened, rfl⟩
    cases allowed
    exact ⟨state, repeatWhile_of_stopped _ (by simp [finished]), rfl, faces⟩
  | @cons line blocks inner lines leads nested ih =>
    generalize spelled : tokens.map (·.token) = all at written
    cases written with
    | cons _ ends more =>
      obtain ⟨count, rfl⟩ := ends
      obtain ⟨used, rest, rfl, usedTokens, rfl⟩ := List.map_eq_append_iff.mp spelled
      obtain ⟨between, first, others⟩ := Account.performAll_append_eq_ok.mp allowed
      have notFinished := finished_of_line faces usedTokens
      obtain ⟨next, ran, facesRest, takes⟩ :=
        turn_complete faces faultless usedTokens (frontKind_of_written more) (opened ▸ leads) first
      have performed : next.account = between :=
        Except.ok.inj (takes.account.symm.trans first)
      have nextBlocks : next.openBlocks = inner := takes.blocks.unique (opened ▸ leads)
      have nextFaultless : next.feed.Faultless := by
        obtain ⟨offset, ending⟩ := faultless
        exact ⟨offset, takes.ending.trans ending⟩
      obtain ⟨after, continued, ends⟩ :=
        ih nextBlocks more facesRest nextFaultless (performed ▸ others)
      refine ⟨after, ?_, ends⟩
      rw [repeatWhile_of_ok _ (by simp [notFinished]) ran]
      exact continued

/-! ## Programs -/

omit [Sink σ] in
theorem resolveJumps_eq_ok {state after : State σ} :
    resolveJumps state = .ok () after ↔
      state.account.Resolved ∧ after = state := by
  have resolved : state.labels.firstUnresolved = none ↔ state.account.Resolved := by
    simp [Account.Resolved, Labels.firstUnresolved, Labels.contains, State.account]
  rw [← resolved]
  unfold resolveJumps
  cases state.labels.firstUnresolved with
  | none => simp [eq_comm]
  | some jump => simp

theorem program_sound {state after : State σ} {tokens : List Located} (faces : state.Faces tokens)
    (closed : state.openBlocks = []) (success : program state = .ok () after) :
    ∃ tree : Grammar.Program, tree.Derives (tokens.map (·.token) ++ [.endOfInput]) ∧
      state.feed.Faultless ∧ state.account.performAll tree.actions = .ok after.account ∧
      after.account.Resolved := by
  obtain ⟨_, started, prologue, success⟩ := bind_eq_ok success
  obtain ⟨_, atLines, blanks, success⟩ := bind_eq_ok success
  obtain ⟨_, atEnd, turned, success⟩ := bind_eq_ok success
  obtain ⟨_, ended, epilogue, resolved⟩ := bind_eq_ok success
  obtain ⟨facesStarted, performsPrologue⟩ :=
    (translates_forM translates_headerLine CLines.prologue).sound_only faces prologue
  obtain ⟨used, rest, _, rfl, ⟨count, blank, rfl⟩, facesLines, performsBlanks⟩ :=
    translates_blankLines.sound started tokens () atLines facesStarted trivial blanks
  obtain ⟨lines, nested, written, performed, ending, facesEnd⟩ :=
    lines_sound facesLines turned
  obtain ⟨-, performsEpilogue⟩ :=
    (translates_forM translates_emitLine CLines.epilogue).sound_only facesEnd epilogue
  obtain ⟨labelled, rfl⟩ := resolveJumps_eq_ok.mp resolved
  have front := performsPrologue.trans performsBlanks
  obtain ⟨statements, rfl⟩ := nested_iff_exists_linesOf.mp (closed ▸ front.blocks ▸ nested)
  refine ⟨⟨statements⟩, ⟨count, _, derives_iff_written.mpr written, ?_⟩, ?_, ?_, labelled⟩
  · rw [List.map_append, blank]
  · obtain ⟨offset, atOffset⟩ := facesEnd.faultless
    exact ⟨offset, front.ending.symm.trans (ending.symm.trans atOffset)⟩
  · refine Account.performAll_append_eq_ok.mpr ⟨_, ?_, performsEpilogue.account⟩
    refine Account.performAll_append_eq_ok.mpr ⟨_, ?_, performed⟩
    simpa using front.account

/-- The fixed lines of the header and the empty lines at the start of a program. -/
theorem program_front {state : State σ} {blank rest : List Located} {count : Nat}
    (faces : state.Faces (blank ++ rest)) (faultless : state.feed.Faultless)
    (spelled : blank.map (·.token) = List.replicate count .newline)
    (ends : endsLine (frontKind rest)) :
    ∃ atLines,
      program state =
        (do turns; CLines.epilogue.forM emitLine; resolveJumps : Pass σ Unit) atLines ∧
      atLines.Faces rest ∧
      state.Performs (CLines.prologue.map fun line => .write (.header line)) atLines := by
  obtain ⟨started, prologue, facesStarted, performsPrologue⟩ :=
    (translates_forM translates_headerLine CLines.prologue).complete_only faces faultless rfl
  obtain ⟨atLines, blanks, facesLines, performsBlanks⟩ :=
    translates_blankLines.complete started blank rest () [] started.account facesStarted
      (performsPrologue.faultless faultless) ⟨count, spelled, rfl⟩ ends rfl
  have performs := performsPrologue.trans performsBlanks
  rw [List.append_nil] at performs
  exact ⟨atLines, (bind_ok prologue).trans (bind_ok blanks), facesLines, performs⟩

theorem program_complete {state : State σ} {tokens : List Located} {tree : Grammar.Program}
    {final : Account σ} (faces : state.Faces tokens) (faultless : state.feed.Faultless)
    (closed : state.openBlocks = [])
    (derives : tree.Derives (tokens.map (·.token) ++ [.endOfInput]))
    (allowed : state.account.performAll tree.actions = .ok final) (resolved : final.Resolved) :
    ∃ after, program state = .ok () after ∧ after.account = final := by
  obtain ⟨count, used, derived, spelled⟩ := derives
  obtain ⟨blank, rest, rfl, blankTokens, rfl⟩ :=
    List.map_eq_append_iff.mp (List.append_cancel_right spelled)
  have written := derives_iff_written.mp derived
  obtain ⟨beforeEpilogue, front, epilogueAllowed⟩ := Account.performAll_append_eq_ok.mp allowed
  obtain ⟨beforeLines, prologueAllowed, linesAllowed⟩ := Account.performAll_append_eq_ok.mp front
  obtain ⟨atLines, goesOn, facesLines, performs⟩ :=
    program_front faces faultless blankTokens (frontKind_of_written written)
  have atLinesAccount : atLines.account = beforeLines :=
    Except.ok.inj (performs.account.symm.trans prologueAllowed)
  obtain ⟨atEnd, turned, atEndAccount, facesEnd⟩ :=
    lines_complete (nested_iff_exists_linesOf.mpr ⟨_, rfl⟩) (performs.blocks.trans closed)
      written facesLines (performs.faultless faultless) (atLinesAccount ▸ linesAllowed)
  obtain ⟨after, epilogue, -, performsEpilogue⟩ :=
    (translates_forM translates_emitLine CLines.epilogue).complete_only facesEnd facesEnd.faultless
      (atEndAccount ▸ epilogueAllowed)
  have afterAccount : after.account = final := by
    rw [← atEndAccount] at epilogueAllowed
    exact Except.ok.inj (performsEpilogue.account.symm.trans epilogueAllowed)
  refine ⟨after, goesOn.trans ?_, afterAccount⟩
  exact (bind_ok turned).trans <| (bind_ok epilogue).trans <|
    resolveJumps_eq_ok.mpr ⟨afterAccount ▸ resolved, rfl⟩

end Pass

/-! ## Runs -/

/-- The end of input is no token of a feed that was read from a text. -/
theorem Cursor.token_ne_endOfInput_of_mem_feed (cursor : Cursor) :
    ∀ located ∈ cursor.feed.tokens, located.token ≠ .endOfInput := by
  fun_induction Cursor.feed cursor with
  | case1 => simp
  | case2 => simp
  | case3 cursor located after read notEnd others ih =>
    intro member inside
    cases inside with
    | head => exact notEnd
    | tail _ inside => exact ih member inside

theorem token_ne_endOfInput_of_mem_feedOf (source : String) :
    ∀ located ∈ (feedOf source).tokens, located.token ≠ .endOfInput :=
  (Cursor.start (endLine source.toList)).token_ne_endOfInput_of_mem_feed

theorem tokenize_eq_ok {source : String} {tokens : List Located} :
    tokenize source = .ok tokens ↔
      ∃ offset, (feedOf source).ending = .endOfInput offset ∧
        tokens = (feedOf source).tokens ++
          [{ token := .endOfInput, span := { start := offset, stop := offset } }] := by
  unfold tokenize Feed.toList
  cases (feedOf source).ending with
  | endOfInput offset => simp [eq_comm]
  | fault error => simp

def State.initialAccount (sink : σ) : Account σ where
  sink := sink
  declared := {}
  labels := []
  jumps := []

omit [Sink σ] in
theorem State.faces_of_start {sink : σ} {feed : Feed} {state : State σ}
    (notEnd : ∀ located ∈ feed.tokens, located.token ≠ .endOfInput)
    (started : State.start sink feed = .ok state) :
    state.Faces feed.tokens ∧ state.account = initialAccount sink ∧ state.openBlocks = [] ∧
      state.feed.ending = feed.ending := by
  unfold State.start at started
  split at started
  · cases started
  rename_i first between drewFirst
  split at started
  · cases started
  rename_i second after drewSecond
  cases started
  obtain ⟨tokens, sameEnding⟩ | ⟨empty, rfl, faultless, firstEnd⟩ := Feed.draw_cases drewFirst
  · rw [tokens] at notEnd ⊢
    have firstToken := notEnd first (.head _)
    obtain ⟨others, ending⟩ | ⟨empty, rfl, faultless, secondEnd⟩ := Feed.draw_cases drewSecond
    · rw [others] at notEnd ⊢
      have secondToken := notEnd second (.tail _ (.head _))
      refine ⟨.more firstToken secondToken ?_, rfl, rfl, ending.trans sameEnding⟩
      intro member inside
      exact notEnd member (.tail _ (.tail _ inside))
    · rw [empty]
      exact ⟨.one firstToken secondEnd empty faultless, rfl, rfl, sameEnding⟩
  · obtain ⟨tokens, _⟩ | ⟨_, rfl, _, secondEnd⟩ := Feed.draw_cases drewSecond
    · rw [empty] at tokens
      cases tokens
    · rw [empty]
      exact ⟨.none firstEnd secondEnd empty faultless, rfl, rfl, rfl⟩

omit [Sink σ] in
theorem State.exists_start {feed : Feed} (faultless : feed.Faultless) (sink : σ) :
    ∃ state, State.start sink feed = .ok state := by
  obtain ⟨first, between, drewFirst, betweenFaultless⟩ := faultless.exists_draw
  obtain ⟨second, after, drewSecond, -⟩ := betweenFaultless.exists_draw
  unfold State.start
  rw [drewFirst]
  dsimp only
  rw [drewSecond]
  exact ⟨_, rfl⟩

theorem runFeed_eq_completed {sink : σ} {feed : Feed} {after : State σ} :
    runFeed sink feed = .completed after ↔
      ∃ state, State.start sink feed = .ok state ∧ Pass.program state = .ok () after := by
  unfold runFeed
  cases State.start sink feed with
  | error failed => simp
  | ok state =>
    cases ran : Pass.program state with
    | ok result final => simp [ran]
    | error failure final => simp [ran]

/-- A run completes just when the tokens of the source derive from a program whose actions are all
allowed and whose jumps all lead somewhere. -/
theorem run_completed_iff {sink : σ} {source : String} {final : Account σ} :
    (∃ after, run sink source = .completed after ∧ after.account = final) ↔
      ∃ tokens, tokenize source = .ok tokens ∧
        ∃ tree : Grammar.Program, tree.Derives (tokens.map (·.token)) ∧
          (State.initialAccount sink).performAll tree.actions = .ok final ∧ final.Resolved := by
  have notEnd := token_ne_endOfInput_of_mem_feedOf source
  constructor
  · rintro ⟨after, completed, rfl⟩
    obtain ⟨state, started, ran⟩ := runFeed_eq_completed.mp completed
    obtain ⟨faces, account, closed, ending⟩ := State.faces_of_start notEnd started
    obtain ⟨tree, derives, ⟨offset, faultless⟩, performed, resolved⟩ :=
      Pass.program_sound faces closed ran
    refine ⟨_, tokenize_eq_ok.mpr ⟨offset, ending.symm.trans faultless, rfl⟩, tree, ?_, ?_, resolved⟩
    · simpa using derives
    · rw [← account]
      exact performed
  · rintro ⟨tokens, tokenized, tree, derives, performed, resolved⟩
    obtain ⟨offset, faultless, rfl⟩ := tokenize_eq_ok.mp tokenized
    obtain ⟨state, started⟩ := State.exists_start ⟨offset, faultless⟩ sink
    obtain ⟨faces, account, closed, ending⟩ := State.faces_of_start notEnd started
    rw [List.map_append] at derives
    rw [← account] at performed
    obtain ⟨after, ran, afterAccount⟩ :=
      Pass.program_complete faces ⟨offset, ending.trans faultless⟩ closed derives performed resolved
    exact ⟨after, runFeed_eq_completed.mpr ⟨state, started, ran⟩, afterAccount⟩

end TeenyBasic
