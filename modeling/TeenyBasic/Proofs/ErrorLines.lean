import TeenyBasic.Proofs.Lookahead
import TeenyBasic.Proofs.LongestLexeme
import TeenyBasic.Proofs.Pass.Travel
import TeenyBasic.Report.Plain

/-!
Where a refusal is said to be. The pass counts lines as it goes, a location counts line feeds, and the
report looks at the text as it was given, without the line feed that may be added to it. All three agree
(`refusal_lines_agree`), except at the end of input where that line feed has been added: there the
report names the line before.
-/

set_option autoImplicit false

namespace TeenyBasic

open Grammar Pass

/-! ## Tokens in the text -/

private theorem Token.Spelled.count_newline {token : Token} (spelled : token.Spelled) :
    token.written.count '\n' = if token == .newline then 1 else 0 := by
  by_cases newline : token = .newline
  · simp [newline]
  · rw [if_neg (by simpa using newline), List.count_eq_zero]
    exact fun member => newline (spelled.eq_newline member)

/-- The text at the cursor goes on with `before`, and then with what the token is written as. -/
structure Located.StandsBehind (here : Located) (cursor : Cursor) (before : List Char) : Prop where
  rest : ∃ after, cursor.rest = before ++ (here.token.written ++ after) ∧
    (here.token = .endOfInput → after = [])
  start : here.span.start = cursor.offset + Text.byteLength before
  stop : here.span.stop = here.span.start + Text.byteLength here.token.written
  spelled : here.token.Spelled

namespace Cursor

private theorem standsBehind_next {cursor after : Cursor} {located : Located}
    (read : cursor.next = (.ok located, after)) :
    ∃ gap, located.StandsBehind cursor gap ∧ '\n' ∉ gap := by
  obtain ⟨gap, plain, passes⟩ := passes_skipGap cursor
  have reads := reads_readToken read
  refine ⟨gap, ⟨⟨after.rest, by rw [passes.rest, reads.passes.rest], ?_⟩, ?_, ?_,
    spelled_readToken read⟩, plain⟩
  · intro atEnd
    have nothing := reads.passes.rest
    rw [rest_of_readToken_endOfInput read atEnd] at nothing
    exact (List.append_eq_nil_iff.mp nothing.symm).2
  · rw [reads.span, ← passes.offset]
    rfl
  · rw [reads.span]
    exact reads.passes.offset

/-- What stands behind the token that is read stands further behind the cursor. -/
theorem standsBehind_of_next {cursor after : Cursor} {located here : Located} {before : List Char}
    (read : cursor.next = (.ok located, after)) (stands : here.StandsBehind after before) :
    ∃ gap, here.StandsBehind cursor (gap ++ located.token.written ++ before) ∧ '\n' ∉ gap := by
  obtain ⟨gap, start, plain, passes, reads⟩ := next_split read
  obtain ⟨⟨behind, rest, last⟩, begins, stop, spelled⟩ := stands
  have whole := passes.trans reads.passes
  refine ⟨gap, ⟨⟨behind, ?_, last⟩, ?_, stop, spelled⟩, plain⟩
  · rw [whole.rest, rest, List.append_assoc _ before]
  · rw [begins, whole.offset, Text.byteLength_append _ before, Nat.add_assoc]

/-- Before a token stand as many line feeds as line ends have been read before it. -/
theorem exists_standsBehind {cursor : Cursor} {used behind : List Located} {here : Located}
    (stream : cursor.feed.stream = used ++ here :: behind) :
    ∃ before, here.StandsBehind cursor before ∧ before.count '\n' = lineEnds used := by
  fun_induction Cursor.feed cursor generalizing used with
  | case1 cursor error after read =>
    have nothing : [] = used ++ here :: behind := stream
    simp at nothing
  | case2 cursor located after read atEnd =>
    obtain ⟨gap, stands, plain⟩ := standsBehind_next read
    have only : [Located.mk .endOfInput ⟨located.span.start, located.span.start⟩] =
        used ++ here :: behind := stream
    cases used with
    | cons => simp at only
    | nil =>
      have stop := stands.stop
      rw [atEnd] at stop
      have same : located = here := by
        rw [← (List.cons.inj only).1]
        obtain ⟨token, start, stop⟩ := located
        simp_all [Token.written, Token.text]
      exact ⟨gap, same ▸ stands, List.count_eq_zero.mpr plain⟩
  | case3 cursor located after read notEnd others =>
    rename_i ih
    have shown : located :: after.feed.stream = used ++ here :: behind := stream
    cases used with
    | nil =>
      obtain ⟨rfl, -⟩ := List.cons.inj shown
      obtain ⟨gap, stands, plain⟩ := standsBehind_next read
      exact ⟨gap, stands, List.count_eq_zero.mpr plain⟩
    | cons first used =>
      obtain ⟨rfl, more⟩ := List.cons.inj shown
      obtain ⟨before, stands, lines⟩ := ih more
      obtain ⟨gap, standsFront, plain⟩ := standsBehind_of_next read stands
      refine ⟨_, standsFront, ?_⟩
      have spelled : located.token.Spelled := spelled_readToken read
      rw [List.count_append, List.count_append, List.count_eq_zero.mpr plain, Nat.zero_add,
        spelled.count_newline, lines, lineEnds, lineEnds, List.countP_cons, Nat.add_comm]

end Cursor

/-! ## Lines and slices of the text -/

theorem Location.line_of_byteLength (before after : List Char) :
    (Location.ofOffset (before ++ after) (Text.byteLength before)).line = before.count '\n' + 1 := by
  rw [Location.ofOffset, Text.splitAtByte_byteLength]

/-- Whether the token is the end of input behind a line feed that the source does not have. -/
def Located.isAddedEnd (here : Located) (source : String) : Bool :=
  here.token == .endOfInput && source.toList.getLast? != some '\n'

namespace Located.StandsBehind

variable {here : Located} {source : String} {before : List Char}
  (stands : here.StandsBehind (.start (endLine source.toList)) before)

include stands

theorem start_eq : here.span.start = Text.byteLength before :=
  stands.start.trans (Nat.zero_add _)

theorem line_eq :
    (Location.ofOffset (endLine source.toList) here.span.start).line = before.count '\n' + 1 := by
  obtain ⟨after, split, -⟩ := stands.rest
  have text : endLine source.toList = before ++ (here.token.written ++ after) := split
  rw [text, stands.start_eq, Location.line_of_byteLength]

theorem slice_eq : Text.slice (endLine source.toList) here.span = here.token.written := by
  obtain ⟨after, split, -⟩ := stands.rest
  have text : endLine source.toList = before ++ (here.token.written ++ after) := split
  rw [text]
  exact Text.slice_append _ _ _ stands.start_eq (by rw [stands.stop, stands.start_eq])

/-- In the text as it was given, the line is the same, or the one before if the line feed at the end of
the line was added. -/
theorem line_source :
    (Location.ofOffset source.toList here.span.start).line +
      (if here.isAddedEnd source then 1 else 0) = before.count '\n' + 1 := by
  obtain ⟨after, split, last⟩ := stands.rest
  have text : endLine source.toList = before ++ (here.token.written ++ after) := split
  by_cases ended : source.toList.getLast? = some '\n'
  · have same : endLine source.toList = source.toList := if_pos ended
    rw [← same, stands.line_eq]
    simp [Located.isAddedEnd, ended]
  · have added : endLine source.toList = source.toList ++ ['\n'] := if_neg ended
    rw [added] at text
    by_cases atEnd : here.token = .endOfInput
    · rw [atEnd, last atEnd] at text
      have whole : source.toList ++ ['\n'] = before := by simpa [Token.written, Token.text] using text
      have beyond : Text.byteLength source.toList ≤ here.span.start := by
        rw [stands.start_eq, ← whole, Text.byteLength_append]
        omega
      rw [Location.ofOffset, Text.splitAtByte_of_le beyond, ← whole]
      simp [Located.isAddedEnd, atEnd, ended]
    · obtain ⟨c, more, written, -⟩ := stands.spelled.exists_cons atEnd
      have inside : ∃ rest, source.toList = before ++ rest := by
        rcases List.append_eq_append_iff.mp text with ⟨middle, rfl, back⟩ | ⟨middle, back, -⟩
        · rw [written] at back
          cases middle with
          | nil => exact ⟨[], by simp⟩
          | cons d middle => simp at back
        · exact ⟨middle, back⟩
      obtain ⟨rest, front⟩ := inside
      rw [front, stands.start_eq, Location.line_of_byteLength]
      simp [Located.isAddedEnd, atEnd]

end Located.StandsBehind

/-! ## Refusals -/

private theorem Pass.HaltsWith.ne_lexical {σ : Type} {state : State σ} {failure : Failure}
    (halts : HaltsWith state failure) (notLexical : failure.cause.code.isLexical = false) :
    (∃ refusal, failure = refusedAt state refusal ∧
      ∀ name, refusal.name? = some name → state.current.token = .name name) ∨
    ∃ jump ∈ state.labels.jumps, failure =
      { cause := .refused (.undefinedLabel jump.label) jump.line, span := jump.span } := by
  cases halts with
  | @fault error =>
    have isLexical : error.failure.cause.code.isLexical = true := error.fault.isLexical_code
    rw [isLexical] at notLexical
    cases notLexical
  | refused named => exact .inl ⟨_, rfl, named⟩
  | stray member => exact .inr ⟨_, member, rfl⟩

/-- A refusal points at a token of the source, gives the line that follows from the line ends before it,
and names the token if it is about a name. -/
theorem exists_refused_token {source : String} {failure : Failure}
    (failed : compile source = .error failure)
    (notLexical : failure.cause.code.isLexical = false) :
    ∃ used here behind refusal, streamOf source = used ++ here :: behind ∧
      failure = { cause := .refused refusal (lineEnds used + 1), span := here.span } ∧
      ∀ name, refusal.name? = some name → here.token = .name name := by
  rcases compile_eq_error.mp failed with ⟨notes, unstarted⟩ | ⟨after, halted⟩
  · obtain ⟨error, -, rfl⟩ := State.start_eq_error (runFeed_eq_unstarted unstarted)
    have isLexical : error.failure.cause.code.isLexical = true := error.fault.isLexical_code
    rw [isLexical] at notLexical
    cases notLexical
  obtain ⟨state, started, ran⟩ := runFeed_eq_halted.mp halted
  have start := State.isAt_of_start started
  have arrives := goes_program state trivial
  obtain ⟨first, second, -, -, rfl⟩ := State.start_eq_ok.mp started
  rw [ran] at arrives
  cases arrives with
  | @error _ _ taken travels halts =>
    obtain ⟨behind, stream⟩ := travels.exists_stream start
    rcases halts.ne_lexical notLexical with ⟨refusal, rfl, named⟩ | ⟨jump, member, rfl⟩
    · have line : after.line = 1 + lineEnds taken := travels.line
      refine ⟨taken, after.current, behind, refusal, stream, ?_, named⟩
      rw [refusedAt, line, Nat.add_comm]
    · rcases travels.jumps member with none | ⟨before, here, between, rfl, named, span, jumpLine⟩
      · cases none
      · have line : jump.line = 1 + lineEnds before := jumpLine
        refine ⟨before, here, between ++ after.current :: behind, .undefinedLabel jump.label, ?_, ?_, ?_⟩
        · rw [streamOf, stream, List.append_assoc, List.cons_append]
        · rw [span, line, Nat.add_comm]
        · intro name found
          cases found
          exact named

/-- What stands before the name in the messages about names, by the numbers of their codes. -/
def namePhrases : List (String × String) :=
  [("E200", "Referencing variable before assignment: "),
   ("E201", "Name is reserved in the generated C: "),
   ("E250", "Label already exists: "),
   ("E251", "Attempting to GOTO to undeclared label: ")]

private theorem Refusal.message_of_namePhrases {refusal : Refusal} {phrase : String}
    (listed : (refusal.code.number, phrase) ∈ namePhrases) :
    ∃ name, refusal.name? = some name ∧ refusal.message = phrase ++ name := by
  cases refusal with
  | undefinedVariable name | reservedName name | duplicateLabel name | undefinedLabel name =>
    refine ⟨name, rfl, ?_⟩
    simp [namePhrases, Refusal.code, Code.number] at listed
    rw [listed]
    rfl
  | unexpectedToken | expectedOperand | expectedStatement | expectedComparison =>
    simp [namePhrases, Refusal.code, Code.number] at listed

/-- A failure that is not lexical points at a token, its message gives the line of that token and, if it
is about a name, the name that stands there; the report prints that line. Only where the end of input
stands behind a line feed that the source does not have does the report print the line before. -/
theorem refusal_lines_agree {source : String} {failure : Failure} (file : Option String)
    (failed : compile source = .error failure)
    (notLexical : failure.diagnostic.code.isLexical = false) :
    ∃ here ∈ streamOf source, failure.diagnostic.span = here.span ∧
      ∃ wording line,
        failure.diagnostic.message = wording ++ " (line " ++ toString line ++ ")" ∧
        line = (Location.ofOffset (endLine source.toList) failure.diagnostic.span.start).line ∧
        (∀ phrase, (failure.diagnostic.code.number, phrase) ∈ namePhrases →
          wording = phrase ++
            String.ofList (Text.slice (endLine source.toList) failure.diagnostic.span)) ∧
        ∃ printed column content,
          printed + (if here.isAddedEnd source then 1 else 0) = line ∧
          Location.ofOffset source.toList failure.diagnostic.span.start = ⟨printed, column, content⟩ ∧
          ∃ first margin others,
            Report.plain failure.diagnostic source file = String.join
              (([first,
                "  --> " ++ file.getD unnamedFile ++ ":" ++ toString printed ++ ":" ++ toString column,
                margin,
                toString printed ++ " | " ++ content] ++ others).map (· ++ "\n")) := by
  obtain ⟨used, here, behind, refusal, stream, rfl, named⟩ := exists_refused_token failed notLexical
  obtain ⟨before, stands, lines⟩ := Cursor.exists_standsBehind stream
  have member : here ∈ streamOf source := by
    rw [stream]
    simp
  refine ⟨here, member, rfl, refusal.message, lineEnds used + 1, rfl, ?_, ?_,
    (Location.ofOffset source.toList here.span.start).line, _, _, ?_, rfl, _, _, _, rfl⟩
  · rw [← lines]
    exact stands.line_eq.symm
  · intro phrase listed
    obtain ⟨name, isName, message⟩ := Refusal.message_of_namePhrases listed
    change refusal.message = phrase ++ String.ofList (Text.slice (endLine source.toList) here.span)
    rw [message, stands.slice_eq, named name isName]
    simp [Token.written, Token.text]
  · rw [stands.line_source, lines]

/-- In a source without a final line feed a block is not closed; the message says line 3. -/
theorem refusal_lines_agree_unclosed :
    ∃ failure, compile "INPUT a\nIF a > 0 THEN" = .error failure ∧
      failure.diagnostic.code.isLexical = false ∧
      ∃ here ∈ streamOf "INPUT a\nIF a > 0 THEN", failure.diagnostic.span = here.span ∧
        (∃ wording, failure.diagnostic.message = wording ++ " (line " ++ toString 3 ++ ")") ∧
        ∃ printed column content,
          printed + (if here.isAddedEnd "INPUT a\nIF a > 0 THEN" then 1 else 0) = 3 ∧
          Location.ofOffset "INPUT a\nIF a > 0 THEN".toList failure.diagnostic.span.start =
            ⟨printed, column, content⟩ ∧
          ∃ first margin others,
            Report.plain failure.diagnostic "INPUT a\nIF a > 0 THEN" none = String.join
              (([first, "  --> <input>:" ++ toString printed ++ ":" ++ toString column, margin,
                toString printed ++ " | " ++ content] ++ others).map (· ++ "\n")) := by
  have failed : compile "INPUT a\nIF a > 0 THEN" = .error
      { cause := .refused (.unexpectedToken (.keyword .endIf) .endOfInput) 3
        span := { start := 22, stop := 22 } } := by
    decide +kernel
  have counted : (Location.ofOffset (endLine "INPUT a\nIF a > 0 THEN".toList) 22).line = 3 := by
    decide +kernel
  obtain ⟨here, member, span, wording, line, message, lineOf, -, report⟩ :=
    refusal_lines_agree none failed rfl
  have third : line = 3 := lineOf.trans counted
  subst third
  exact ⟨_, failed, rfl, here, member, span, ⟨wording, message⟩, report⟩

end TeenyBasic
