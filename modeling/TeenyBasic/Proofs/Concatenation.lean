import TeenyBasic.Proofs.CorrectPrefix
import TeenyBasic.Proofs.Fragments
import TeenyBasic.Proofs.Jumps
import TeenyBasic.Proofs.MaximalMunch

/-!
Programs one after the other. A text that ends in a line feed ends between two tokens, whatever follows
it, so the tokens of two texts are read one after the other (`Munch.append`); the line ends before the
first statement of the second go to the last line of the first. The statements are then those of both
programs, and the conditions on names hold if no label stands in both (`emission_append`).
-/

set_option autoImplicit false

namespace TeenyBasic

open Grammar

/-! ## Tokens -/

/-- A token that was the longest stays so, because no other token reaches over a line feed. -/
theorem Token.LongestBefore.append {token : Token} {rest : List Char} (readable : token.Readable)
    (longest : token.LongestBefore rest) (ends : EndsLine (token.written ++ rest)) (more : List Char) :
    token.LongestBefore (rest ++ more) := by
  intro other otherReadable back same
  obtain ⟨c, behind, written, -⟩ := readable.spelled.exists_cons readable.notEnd
  rw [← List.append_assoc] at same
  rcases List.append_eq_append_iff.mp same with ⟨middle, front, -⟩ | ⟨middle, front, -⟩
  · have newline : '\n' ∈ token.written ++ rest := by
      cases last : (token.written ++ rest).getLast? with
      | none => simp [written] at last
      | some d => exact ends d last ▸ List.mem_of_getLast? last
    have isNewline : other = .newline :=
      otherReadable.spelled.eq_newline (front ▸ List.mem_append_left _ newline)
    rw [isNewline, written]
    simp
  · exact longest other otherReadable middle front

namespace Munch

variable {offset : Nat} {text more : List Char} {tokens : List Located}

/-- The offset at which a text starts does not matter. -/
theorem shift (munch : Munch offset text tokens) (start : Nat) :
    ∃ shifted, Munch start text shifted ∧ shifted.map (·.token) = tokens.map (·.token) := by
  induction munch generalizing start with
  | done => exact ⟨_, .done start, rfl⟩
  | token isGap ends readable longest _ _ _ ih =>
    obtain ⟨shifted, munch, same⟩ := ih _
    exact ⟨_, .token isGap ends readable longest rfl rfl munch, by simp [same]⟩

/-- What follows a text that ends its last line is read after it. -/
theorem append (munch : Munch offset text tokens) (ends : EndsLine text) {others : List Token}
    (follows : ∀ start, ∃ shifted, Munch start more shifted ∧ shifted.map (·.token) = others) :
    ∃ front joined, tokens.map (·.token) = front ++ [.endOfInput] ∧
      Munch offset (text ++ more) joined ∧ joined.map (·.token) = front ++ others := by
  induction munch with
  | done offset =>
    obtain ⟨shifted, munch, same⟩ := follows offset
    exact ⟨[], shifted, rfl, munch, same⟩
  | @token offset start stop gap rest token _ isGap comment readable longest startsAt stopsAt _ ih =>
    have endsToken : EndsLine (token.written ++ rest) := ends.of_append
    obtain ⟨front, joined, split, munch, same⟩ := ih endsToken.of_append
    have whole := Munch.token isGap comment readable (longest.append readable endsToken more)
      startsAt stopsAt munch
    refine ⟨token :: front, ⟨token, ⟨start, stop⟩⟩ :: joined, by simp [split], ?_, by simp [same]⟩
    rw [List.append_assoc, List.append_assoc]
    exact whole

end Munch

private theorem munch_of_tokenize {source : String} {tokens : List Located}
    (tokenized : tokenize source = .ok tokens) : Munch 0 (endLine source.toList) tokens :=
  (Cursor.start (endLine source.toList)).munch_of_feed (endsLine_endLine _) tokenized

/-- The source with a line feed at its end, added if there is none. -/
def lineEnded (source : String) : String :=
  String.ofList (endLine source.toList)

private theorem endLine_append {front back : List Char} (nonempty : back ≠ []) :
    endLine (front ++ back) = front ++ endLine back := by
  unfold endLine
  rw [List.getLast?_append_of_ne_nil _ nonempty]
  split
  · rfl
  · rw [List.append_assoc]

private theorem tokenize_append {first second : String} {firstTokens secondTokens : List Located}
    (tokenizedFirst : tokenize first = .ok firstTokens)
    (tokenizedSecond : tokenize second = .ok secondTokens) (nonempty : second.toList ≠ []) :
    ∃ front tokens, firstTokens.map (·.token) = front ++ [.endOfInput] ∧
      tokenize (lineEnded first ++ second) = .ok tokens ∧
      tokens.map (·.token) = front ++ secondTokens.map (·.token) := by
  obtain ⟨front, tokens, split, munch, same⟩ :=
    (munch_of_tokenize tokenizedFirst).append (endsLine_endLine _)
      (munch_of_tokenize tokenizedSecond).shift
  refine ⟨front, tokens, split, ?_, same⟩
  have text : endLine (lineEnded first ++ second).toList =
      endLine first.toList ++ endLine second.toList := by
    rw [String.toList_append, lineEnded, String.toList_ofList, endLine_append nonempty]
  rw [tokenize, feedOf, text]
  exact munch.toList_feed

private theorem tokenize_lineEnded (source : String) :
    tokenize (lineEnded source) = tokenize source := by
  have again : endLine (endLine source.toList) = endLine source.toList :=
    if_pos (getLast?_endLine source.toList)
  rw [tokenize, tokenize, feedOf, feedOf, lineEnded, String.toList_ofList, again]

namespace Grammar

/-! ## Trees -/

theorem LineEnds.append {ends : List Token} (lineEnds : LineEnds ends) (count : Nat) :
    LineEnds (ends ++ List.replicate count .newline) := by
  obtain ⟨more, rfl⟩ := lineEnds
  exact ⟨more + count, by rw [List.replicate_append_replicate]; congr 1; omega⟩

/-- Further line ends belong to the last line. -/
theorem Written.append_newlines {lines : List Line} {tokens : List Token}
    (written : Written lines tokens) (nonempty : lines ≠ []) (count : Nat) :
    Written lines (tokens ++ List.replicate count .newline) := by
  induction written with
  | nil => exact absurd rfl nonempty
  | @cons line lines ends more lineEnds written ih =>
    cases lines with
    | nil =>
      cases written
      simpa using Written.cons line (lineEnds.append count) .nil
    | cons next others =>
      simpa using Written.cons line lineEnds (ih (List.cons_ne_nil _ _))

theorem Program.Derives.append {first second : Program} {front : List Token} {tokens : List Token}
    (derivesFirst : first.Derives (front ++ [.endOfInput])) (derivesSecond : second.Derives tokens) :
    Program.Derives ⟨first.statements ++ second.statements⟩ (front ++ tokens) := by
  obtain ⟨count, used, derives, split⟩ := derivesFirst
  obtain ⟨between, more, derivesMore, rfl⟩ := derivesSecond
  obtain rfl := List.append_cancel_right split
  obtain ⟨statements⟩ := first
  cases statements with
  | nil =>
    cases derives
    exact ⟨count + between, more, derivesMore, by simp [← List.replicate_append_replicate]⟩
  | cons statement others =>
    have nonempty : linesOf (statement :: others) ≠ [] := by
      cases statement <;> simp [linesOf, Statement.lines]
    have spaced := derives.written.append_newlines nonempty between
    refine ⟨count, used ++ List.replicate between .newline ++ more, ?_, by simp⟩
    exact (derives_iff_written.mpr spaced).append derivesMore

theorem Program.Valid.append {first second : Program} (validFirst : first.Valid)
    (validSecond : second.Valid)
    (disjoint : ∀ label, .placed label ∈ first.occurrences → .placed label ∉ second.occurrences) :
    Program.Valid ⟨first.statements ++ second.statements⟩ := by
  have occurrences : Program.occurrences ⟨first.statements ++ second.statements⟩ =
      first.occurrences ++ second.occurrences := occurrencesOf_append _ _
  refine ⟨?_, ?_, ?_, ?_⟩ <;> rw [occurrences]
  · intro name introduced
    exact (List.mem_append.mp introduced).elim (validFirst.unreserved name) (validSecond.unreserved name)
  · intro before name after split
    rcases List.append_eq_append_iff.mp split with ⟨middle, rfl, back⟩ | ⟨middle, front, back⟩
    · exact List.mem_append_right _ (validSecond.readAssigned middle name after back)
    · cases middle with
      | nil =>
        have assigned := validSecond.readAssigned [] name after back.symm
        cases assigned
      | cons occurrence middle =>
        obtain ⟨rfl, -⟩ := List.cons.inj back
        exact validFirst.readAssigned before name middle front
  · rw [labelsPlaced, List.filterMap_append]
    refine List.nodup_append.mpr ⟨validFirst.labelsDistinct, validSecond.labelsDistinct, ?_⟩
    intro label placed other otherPlaced same
    subst same
    exact disjoint label (mem_labelsPlaced.mp placed) (mem_labelsPlaced.mp otherPlaced)
  · intro label jumped
    refine List.mem_append.mpr ((List.mem_append.mp jumped).imp ?_ ?_)
    · exact validFirst.jumpsPlaced label
    · exact validSecond.jumpsPlaced label

/-! ## Lines and names -/

private theorem cLinesOf_append (first second : List Statement) :
    cLinesOf (first ++ second) = cLinesOf first ++ cLinesOf second := by
  induction first with
  | nil => rfl
  | cons statement rest ih => simp [cLinesOf, ih]

private theorem targetsOf_append (first second : List Statement) :
    targetsOf (first ++ second) = targetsOf first ++ targetsOf second := by
  induction first with
  | nil => rfl
  | cons statement rest ih => simp [targetsOf, ih]

private theorem eraseDups_filter (test : String → Bool) (names : List String) :
    (names.filter test).eraseDups = names.eraseDups.filter test := by
  induction length : names.length using Nat.strongRecOn generalizing names with
  | ind _ ih =>
    cases names with
    | nil => rfl
    | cons name names =>
      have shorter : (names.filter fun other => !other == name).length < (name :: names).length :=
        Nat.lt_succ_of_le (List.length_filter_le _ _)
      have others := ih _ (length ▸ shorter) _ rfl
      rw [List.filter_filter] at others
      rw [List.eraseDups_cons, List.filter_cons, List.filter_cons]
      split
      · rw [List.eraseDups_cons, List.filter_filter, ← others]
        simp only [Bool.and_comm]
      · rename_i dropped
        rw [← others]
        refine congrArg List.eraseDups (List.filter_congr fun other _ => ?_)
        by_cases same : other = name
        · simp [same, dropped]
        · simp [same]

private theorem eraseDups_append_eq (first second : List String) :
    (first ++ second).eraseDups =
      first.eraseDups ++ second.eraseDups.filter fun name => decide (name ∉ first.eraseDups) := by
  rw [List.eraseDups_append, List.removeAll, eraseDups_filter]
  congr 1
  refine List.filter_congr fun name _ => ?_
  simp

end Grammar

private theorem mem_labelsOf_iff {source : String} {tokens : List Located} {program : Grammar.Program}
    (tokenized : tokenize source = .ok tokens) (derives : program.Derives (tokens.map (·.token)))
    (valid : program.Valid) {label : String} :
    label ∈ labelsOf (streamOf source) ↔ .placed label ∈ program.occurrences := by
  obtain ⟨final, performed, resolved⟩ :=
    (program.valid_iff_exists_performAll ({} : Emitter)).mp valid
  obtain ⟨after, completed, account⟩ :=
    run_completed_iff.mpr ⟨tokens, tokenized, program, derives, performed, resolved⟩
  obtain ⟨finished, -⟩ := runFeed_finishes (spelled_feedOf source) completed
  obtain ⟨calls, books⟩ := finished.exists_books tokenized
  obtain ⟨offset, -, rfl⟩ := tokenize_eq_ok.mp tokenized
  have stream : labelsOf (streamOf source) = labelsOf (feedOf source).tokens := by
    rw [← (streamOf_of_tokenize tokenized).2, labelsOf, namesAfter_concat_eq (.inr rfl), labelsOf]
  have placed := (Account.performAll_labels_jumps performed).1 label
  rw [← account, Program.namesIn_actions] at placed
  rw [stream, ← books.mem_labels]
  simpa [State.account, State.initialAccount] using placed

/-- The statements of the one program, then those of the other. -/
theorem exists_derives_append {first second : String} {firstTokens secondTokens : List Located}
    {firstProgram secondProgram : Grammar.Program}
    (tokenizedFirst : tokenize first = .ok firstTokens)
    (tokenizedSecond : tokenize second = .ok secondTokens)
    (derivesFirst : firstProgram.Derives (firstTokens.map (·.token)))
    (derivesSecond : secondProgram.Derives (secondTokens.map (·.token))) :
    ∃ tokens, tokenize (lineEnded first ++ second) = .ok tokens ∧
      Program.Derives ⟨firstProgram.statements ++ secondProgram.statements⟩
        (tokens.map (·.token)) := by
  by_cases empty : second = ""
  · subst empty
    have tokens : tokenize "" = .ok
        [⟨.newline, ⟨0, 1⟩⟩, ⟨.endOfInput, ⟨1, 1⟩⟩] := by
      decide +kernel
    obtain rfl := Except.ok.inj (tokens.symm.trans tokenizedSecond)
    have none : secondProgram = ⟨[]⟩ := derivesSecond.unique ⟨1, [], .nil, rfl⟩
    refine ⟨firstTokens, ?_, ?_⟩
    · rw [String.append_empty, tokenize_lineEnded, tokenizedFirst]
    · rw [none, List.append_nil]
      exact derivesFirst
  · obtain ⟨front, tokens, split, tokenized, same⟩ :=
      tokenize_append tokenizedFirst tokenizedSecond (by simpa using empty)
    rw [split] at derivesFirst
    exact ⟨tokens, tokenized, same ▸ derivesFirst.append derivesSecond⟩

/-! ## C texts -/

/-- A text whose main function declares the names and then has the lines. -/
def Emitter.ofMain (names lines : List String) : Emitter :=
  .ofLines (CLines.prologue ++ names.map CLines.declaration) (lines ++ CLines.epilogue)

/-- The names and the lines can be told from the text. -/
theorem Emitter.ofMain_inj {names lines otherNames otherLines : List String}
    (same : Emitter.ofMain names lines = .ofMain otherNames otherLines) :
    names = otherNames ∧ lines = otherLines := by
  have declared : ∀ name other, CLines.declaration name = CLines.declaration other → name = other := by
    intro name other same
    simpa [CLines.declaration] using same
  obtain ⟨header, body⟩ := Emitter.ofLines_inj same
  exact ⟨(List.map_inj_right declared).mp (List.append_cancel_left header),
    List.append_cancel_right body⟩

private theorem Grammar.Program.emitter_append (first second : Program) :
    Program.emitter ⟨first.statements ++ second.statements⟩ =
      .ofMain
        ((targetsOf first.statements).eraseDups ++ (targetsOf second.statements).eraseDups.filter
          (· ∉ (targetsOf first.statements).eraseDups))
        (cLinesOf first.statements ++ cLinesOf second.statements) := by
  rw [← eraseDups_append_eq, ← targetsOf_append, ← cLinesOf_append]
  rfl

/-- Two accepted sources with no label in common make one when the second stands after the first. Its
header declares the variables of the first and then those of the second that are new, and its body has
the lines of the first and then those of the second. -/
theorem emission_append (first second firstText secondText : String)
    (acceptsFirst : compile first = .ok firstText) (acceptsSecond : compile second = .ok secondText)
    (disjoint : (labelsOf (streamOf first)).Disjoint (labelsOf (streamOf second))) :
    ∃ firstNames firstLines secondNames secondLines,
      (emission first).outcome = .ok (.ofMain firstNames firstLines) ∧
      (emission second).outcome = .ok (.ofMain secondNames secondLines) ∧
      (emission (lineEnded first ++ second)).outcome = .ok
        (.ofMain (firstNames ++ secondNames.filter (· ∉ firstNames)) (firstLines ++ secondLines)) ∧
      compile (lineEnded first ++ second) = .ok
        (Emitter.ofMain (firstNames ++ secondNames.filter (· ∉ firstNames))
          (firstLines ++ secondLines)).finish := by
  obtain ⟨firstEmitter, emitsFirst, -⟩ := compile_eq_ok_iff_emission.mp acceptsFirst
  obtain ⟨secondEmitter, emitsSecond, -⟩ := compile_eq_ok_iff_emission.mp acceptsSecond
  obtain ⟨firstTokens, tokenizedFirst, firstProgram, derivesFirst, validFirst, rfl⟩ :=
    emission_eq_ok.mp emitsFirst
  obtain ⟨secondTokens, tokenizedSecond, secondProgram, derivesSecond, validSecond, rfl⟩ :=
    emission_eq_ok.mp emitsSecond
  obtain ⟨tokens, tokenized, derives⟩ :=
    exists_derives_append tokenizedFirst tokenizedSecond derivesFirst derivesSecond
  have valid := validFirst.append validSecond fun label placed placedAgain =>
    disjoint ((mem_labelsOf_iff tokenizedFirst derivesFirst validFirst).mpr placed)
      ((mem_labelsOf_iff tokenizedSecond derivesSecond validSecond).mpr placedAgain)
  have emits := emission_eq_ok.mpr ⟨tokens, tokenized, _, derives, valid, rfl⟩
  rw [Program.emitter_append] at emits
  exact ⟨_, _, _, _, emitsFirst, emitsSecond, emits,
    compile_eq_ok_iff_emission.mpr ⟨_, emits, rfl⟩⟩

theorem emission_append_shared_variable :
    (labelsOf (streamOf "LABEL a\nLET x = 1")).Disjoint
      (labelsOf (streamOf "INPUT x\nLABEL b\nGOTO b")) ∧
    (emission "LABEL a\nLET x = 1").outcome = .ok (.ofMain ["x"] ["a:", "x = 1;"]) ∧
    (emission "INPUT x\nLABEL b\nGOTO b").outcome =
      .ok (.ofMain ["x"] (CLines.inputRead "x" ++ ["b:", "goto b;"])) ∧
    (emission (lineEnded "LABEL a\nLET x = 1" ++ "INPUT x\nLABEL b\nGOTO b")).outcome =
      .ok (.ofMain ["x"] (["a:", "x = 1;"] ++ (CLines.inputRead "x" ++ ["b:", "goto b;"]))) ∧
    compile (lineEnded "LABEL a\nLET x = 1" ++ "INPUT x\nLABEL b\nGOTO b") =
      .ok (Emitter.ofMain ["x"]
        (["a:", "x = 1;"] ++ (CLines.inputRead "x" ++ ["b:", "goto b;"]))).finish := by
  have firstLabels : labelsOf (streamOf "LABEL a\nLET x = 1") = ["a"] := by decide +kernel
  have secondLabels : labelsOf (streamOf "INPUT x\nLABEL b\nGOTO b") = ["b"] := by decide +kernel
  have disjoint : (labelsOf (streamOf "LABEL a\nLET x = 1")).Disjoint
      (labelsOf (streamOf "INPUT x\nLABEL b\nGOTO b")) := by
    rw [firstLabels, secondLabels]
    simp
  have first : (emission "LABEL a\nLET x = 1").outcome = .ok (.ofMain ["x"] ["a:", "x = 1;"]) := by
    decide +kernel
  have second : (emission "INPUT x\nLABEL b\nGOTO b").outcome =
      .ok (.ofMain ["x"] (CLines.inputRead "x" ++ ["b:", "goto b;"])) := by
    decide +kernel
  obtain ⟨firstNames, firstLines, secondNames, secondLines, emitsFirst, emitsSecond, emits, compiles⟩ :=
    emission_append "LABEL a\nLET x = 1" "INPUT x\nLABEL b\nGOTO b" _ _
      (compile_eq_ok_iff_emission.mpr ⟨_, first, rfl⟩)
      (compile_eq_ok_iff_emission.mpr ⟨_, second, rfl⟩) disjoint
  obtain ⟨rfl, rfl⟩ := Emitter.ofMain_inj (Except.ok.inj (first.symm.trans emitsFirst))
  obtain ⟨rfl, rfl⟩ := Emitter.ofMain_inj (Except.ok.inj (second.symm.trans emitsSecond))
  exact ⟨disjoint, first, second, emits, compiles⟩
end TeenyBasic
