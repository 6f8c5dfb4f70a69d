import TeenyBasic.Proofs.ErrorLines
import TeenyBasic.Proofs.LexicalFaults

/-!
The carets of the plain report. What a failure points at is a stretch of the text with its final line
feed, and that stretch is a lone line feed or has none (`exists_pointed`). So as much of it as the source
has on the line that is shown starts at the column that is given (`exists_shown`). The carets start there
too, but their number is that of the bytes of the stretch: one caret stands under each of its characters
just when all of them take one byte (`carets_under_stretch`).
-/

set_option autoImplicit false

namespace TeenyBasic

/-! ## Bytes and characters -/

namespace Text

theorem length_le_byteLength (text : List Char) : text.length ≤ byteLength text := by
  induction text with
  | nil => exact Nat.le_refl 0
  | cons c text ih =>
    have positive := Char.utf8Size_pos c
    rw [byteLength_cons, List.length_cons]
    omega

private theorem byteLength_eq_length_iff (text : List Char) :
    byteLength text = text.length ↔ ∀ c ∈ text, c.utf8Size = 1 := by
  induction text with
  | nil => simp
  | cons c text ih =>
    have positive := Char.utf8Size_pos c
    have atLeast := length_le_byteLength text
    rw [byteLength_cons, List.length_cons, List.forall_mem_cons, ← ih]
    omega

/-- Only the empty text has less than one character, and it has no bytes either. -/
theorem max_byteLength_eq_iff (text : List Char) :
    max 1 (byteLength text) = max 1 text.length ↔ ∀ c ∈ text, c.utf8Size = 1 := by
  rw [← byteLength_eq_length_iff]
  cases text with
  | nil => simp
  | cons c text =>
    have atLeast := length_le_byteLength (c :: text)
    rw [List.length_cons] at atLeast ⊢
    omega

end Text

/-! ## What a failure points at -/

/-- The span is that of characters of the text, which are a line feed alone or have none. -/
structure Span.Covers (span : Span) (text before covered after : List Char) : Prop where
  split : text = before ++ (covered ++ after)
  start : span.start = Text.byteLength before
  stop : span.stop = Text.byteLength before + Text.byteLength covered
  oneLine : '\n' ∉ covered ∨ covered = ['\n']

private theorem Offends.newline_notMem {text before blamed : List Char} {number : String}
    {fault : LexicalFault} (offends : Offends text number fault before blamed) : '\n' ∉ blamed := by
  cases offends with
  | unknown noLexeme =>
    intro member
    obtain rfl := List.mem_singleton.mp member
    exact noLexeme .newline [] .newline
  | bang => decide
  | fraction digits =>
    intro member
    rcases List.mem_append.mp member with digit | point
    · exact absurd (digits.2 _ digit) (by decide)
    · exact absurd point (by decide)
  | unterminated plain =>
    intro member
    rcases List.mem_cons.mp member with quote | inside
    · exact absurd quote (by decide)
    · exact plain _ inside (by decide)
  | illegal plain refused =>
    intro member
    obtain rfl := List.mem_singleton.mp member
    exact absurd refused (by decide)

private theorem Broken.covers {text front gap offending before blamed : List Char}
    {error : LexicalError} (broken : Broken text error front gap offending before blamed) :
    ∃ after, error.span.Covers text (front ++ gap ++ before) blamed after := by
  obtain ⟨-, after, split⟩ := broken.exists_rest
  refine ⟨after, split, ?_, ?_, .inl broken.offends.newline_notMem⟩
  · rw [broken.span]
  · rw [broken.span, ← Text.byteLength_append]

private theorem Located.StandsBehind.covers {here : Located} {source : String} {before : List Char}
    (stands : here.StandsBehind (.start (endLine source.toList)) before) :
    ∃ after, here.span.Covers (endLine source.toList) before here.token.written after := by
  obtain ⟨after, split, -⟩ := stands.rest
  refine ⟨after, split, stands.start_eq, by rw [stands.stop, stands.start_eq], ?_⟩
  by_cases newline : '\n' ∈ here.token.written
  · rw [stands.spelled.eq_newline newline]
    exact .inr rfl
  · exact .inl newline

/-- Every failure points at characters of the text with its final line feed. -/
theorem exists_pointed {source : String} {failure : Failure}
    (failed : compile source = .error failure) :
    ∃ before covered after,
      failure.span.Covers (endLine source.toList) before covered after := by
  by_cases isLexical : failure.cause.code.isLexical = true
  · cases fails_of_compile failed with
    | faulty fault =>
      obtain ⟨front, gap, offending, before, blamed, broken⟩ :=
        tokenize_eq_error_iff_broken.mp (tokenize_eq_error.mpr fault)
      exact ⟨_, _, broken.covers⟩
    | refused refuses =>
      obtain ⟨refusal, line, cause⟩ := refuses.refused
      rw [cause, Cause.code, refusal.isLexical_code] at isLexical
      cases isLexical
    | unresolved => cases isLexical
  · obtain ⟨used, here, behind, refusal, stream, rfl, -⟩ :=
      exists_refused_token failed (Bool.eq_false_iff.mpr isLexical)
    obtain ⟨before, stands, -⟩ := Cursor.exists_standsBehind stream
    exact ⟨_, _, stands.covers⟩

/-! ## What is shown of it -/

theorem Location.ofOffset_of_split {text before after : List Char} {offset : Nat}
    (split : Text.splitAtByte text offset = (before, after)) :
    Location.ofOffset text offset =
      { line := before.count '\n' + 1
        column := (lastLine before).length + 1
        content := String.ofList (lastLine before ++ after.takeWhile (· != '\n')) } := by
  rw [Location.ofOffset, split]

/-- The characters of the source at the span, as far as the line goes that they start on. -/
def Span.onLine (span : Span) (source : List Char) : List Char :=
  (Text.slice source span).takeWhile (· != '\n')

/-- The line that is shown of the source has the characters of the span at the column that is given,
and the carets are as many as these have bytes. -/
structure Span.Shown (span : Span) (source front back : List Char) : Prop where
  content : (Location.ofOffset source span.start).content =
    String.ofList (front ++ (span.onLine source ++ back))
  column : (Location.ofOffset source span.start).column = front.length + 1
  carets : Report.caretCount (Location.ofOffset source span.start) span =
    max 1 (Text.byteLength (span.onLine source))

namespace Span.Covers

variable {span : Span} {source before covered after : List Char}

/-- Of the text with its final line feed the source lacks that line feed at most: a span that is not
within the source is that of the line feed or of nothing behind it. -/
theorem within_or_beyond (covers : span.Covers (endLine source) before covered after) :
    (∃ rest, span.Covers source before covered rest) ∨
      Text.byteLength source ≤ span.start ∧ span.length ≤ 1 := by
  obtain ⟨split, start, stop, oneLine⟩ := covers
  by_cases ended : source.getLast? = some '\n'
  · rw [endLine, if_pos ended] at split
    exact .inl ⟨after, split, start, stop, oneLine⟩
  rw [endLine, if_neg ended] at split
  rcases List.eq_nil_or_concat after with rfl | ⟨rest, last, rfl⟩
  · rw [List.append_nil] at split
    right
    rcases oneLine with plain | rfl
    · rcases List.eq_nil_or_concat covered with rfl | ⟨init, last, rfl⟩
      · rw [List.append_nil] at split
        refine ⟨?_, by rw [Span.length, start, stop]; simp⟩
        rw [start, ← split, Text.byteLength_append]
        exact Nat.le_add_right _ _
      · rw [List.concat_eq_append, ← List.append_assoc] at split
        obtain ⟨-, same⟩ := List.append_inj' split rfl
        obtain rfl := List.singleton_inj.mp same
        exact absurd (by simp) plain
    · obtain ⟨rfl, -⟩ := List.append_inj' split rfl
      refine ⟨Nat.le_of_eq start.symm, ?_⟩
      rw [Span.length, start, stop, Nat.add_sub_cancel_left]
      decide
  · rw [List.concat_eq_append, ← List.append_assoc, ← List.append_assoc] at split
    obtain ⟨whole, -⟩ := List.append_inj' split rfl
    exact .inl ⟨rest, by rw [whole, List.append_assoc], start, stop, oneLine⟩

theorem exists_shown (covers : span.Covers source before covered after) :
    ∃ back, span.Shown source (Location.lastLine before) back := by
  obtain ⟨rfl, start, stop, oneLine⟩ := covers
  have slice := Text.slice_append before covered after start stop
  have length : span.length = Text.byteLength covered := by
    rw [Span.length, start, stop, Nat.add_sub_cancel_left]
  have place : Text.splitAtByte (before ++ (covered ++ after)) span.start =
      (before, covered ++ after) := by
    rw [start, Text.splitAtByte_byteLength]
  rcases oneLine with plain | rfl
  · have noFeed := Text.bne_of_notMem plain
    have onLine : span.onLine (before ++ (covered ++ after)) = covered := by
      rw [Span.onLine, slice, List.takeWhile_eq_self_iff.mpr noFeed]
    refine ⟨after.takeWhile (· != '\n'), ?_, ?_, ?_⟩ <;> rw [Location.ofOffset_of_split place]
    · rw [onLine, List.takeWhile_append_of_pos noFeed]
    · -- The bytes of the line exceed the characters before the column by those covered at least.
      have atLeast := Text.length_le_byteLength (Location.lastLine before)
      rw [onLine, Report.caretCount, length, List.takeWhile_append_of_pos noFeed, String.toList_ofList,
        Text.byteLength_append, Text.byteLength_append, Nat.add_sub_cancel]
      omega
  · have onLine : span.onLine (before ++ (['\n'] ++ after)) = [] := by
      rw [Span.onLine, slice]
      rfl
    have one : Text.byteLength ['\n'] = 1 := by decide
    refine ⟨[], ?_, ?_, ?_⟩ <;> rw [Location.ofOffset_of_split place]
    · rw [onLine]
      rfl
    · rw [onLine, Report.caretCount, length, one, Text.byteLength_nil]
      omega

end Span.Covers

private theorem Span.shown_of_beyond {span : Span} {source : List Char}
    (beyond : Text.byteLength source ≤ span.start) (short : span.length ≤ 1) :
    span.Shown source (Location.lastLine source) [] := by
  have place := Text.splitAtByte_of_le beyond
  have onLine : span.onLine source = [] := by
    rw [Span.onLine, Text.slice, place]
    rfl
  refine ⟨?_, ?_, ?_⟩ <;> rw [Location.ofOffset_of_split place]
  · rw [onLine]
    rfl
  · rw [onLine, Report.caretCount, Text.byteLength_nil]
    omega

theorem exists_shown {source : String} {failure : Failure}
    (failed : compile source = .error failure) :
    ∃ front back, failure.span.Shown source.toList front back := by
  obtain ⟨before, covered, after, covers⟩ := exists_pointed failed
  rcases covers.within_or_beyond with ⟨rest, within⟩ | ⟨beyond, short⟩
  · exact ⟨_, within.exists_shown⟩
  · exact ⟨_, _, Span.shown_of_beyond beyond short⟩

/-! ## The report -/

namespace Report

/-- The report gives the place, shows its line and, as far from the margin, blanks and carets. -/
def Underlines (report : String) (file : Option String) (place : Location)
    (blanks carets : Nat) : Prop :=
  ∃ first margin label gutter others,
    report = String.join
      (([first,
        "  --> " ++ file.getD unnamedFile ++ ":" ++ toString place.line ++ ":" ++ toString place.column,
        margin,
        label ++ place.content,
        gutter ++ repeated blanks ' ' ++ repeated carets '^'] ++ others).map (· ++ "\n")) ∧
    gutter.length = label.length ∧ '^' ∉ gutter.toList

private theorem underlines_plain (diagnostic : Diagnostic) (source : String) (file : Option String)
    {place : Location} (found : Location.ofOffset source.toList diagnostic.span.start = place) :
    Underlines (plain diagnostic source file) file place (place.column - 1)
      (caretCount place diagnostic.span) := by
  subst found
  let line := toString (Location.ofOffset source.toList diagnostic.span.start).line
  have gutter : (repeated line.length ' ' ++ " |" ++ " ").length = (line ++ " | ").length := by
    rw [String.append_assoc]
    simp [repeated]
  refine ⟨_, _, line ++ " | ", repeated line.length ' ' ++ " |" ++ " ", _, rfl, gutter, ?_⟩
  simp [repeated]

end Report

/-- The carets of the plain report start under the character at the column it gives, which is the first
of those the failure points at that are on the line it shows. They are as many as these have bytes, and
one at least; so they are as many as these are, and one at least, just when each of these has one byte. -/
theorem carets_under_stretch {source : String} {failure : Failure} (file : Option String)
    (failed : compile source = .error failure) :
    ∃ place front stretch back carets,
      place = Location.ofOffset source.toList failure.diagnostic.span.start ∧
      stretch = (Text.slice source.toList failure.diagnostic.span).takeWhile (· != '\n') ∧
      place.content = String.ofList (front ++ (stretch ++ back)) ∧
      place.column = front.length + 1 ∧
      Report.Underlines (Report.plain failure.diagnostic source file) file place front.length carets ∧
      carets = max 1 (Text.byteLength stretch) ∧
      (carets = max 1 stretch.length ↔ ∀ c ∈ stretch, c.utf8Size = 1) := by
  obtain ⟨front, back, content, column, carets⟩ := exists_shown failed
  have sameSpan : failure.diagnostic.span = failure.span := rfl
  have underlines := Report.underlines_plain failure.diagnostic source file rfl
  rw [sameSpan, column, carets, Nat.add_sub_cancel] at underlines
  exact ⟨_, front, _, back, _, rfl, rfl, content, column, underlines, rfl,
    Text.max_byteLength_eq_iff _⟩

/-- A string that is not closed has three characters, the quote included, and four bytes. -/
theorem carets_under_stretch_accented :
    ∃ failure, compile "PRINT \"né" = .error failure ∧
      ∃ place front back,
        place = Location.ofOffset "PRINT \"né".toList failure.diagnostic.span.start ∧
        place.content = String.ofList (front ++ (['"', 'n', 'é'] ++ back)) ∧
        place.column = front.length + 1 ∧
        Report.Underlines (Report.plain failure.diagnostic "PRINT \"né" none) none place
          front.length 4 := by
  have failed : compile "PRINT \"né" = .error
      { cause := .lexical .unterminatedString, span := { start := 6, stop := 10 } } := by
    decide +kernel
  have slice : (Text.slice "PRINT \"né".toList ⟨6, 10⟩).takeWhile (· != '\n') = ['"', 'n', 'é'] := by
    decide +kernel
  obtain ⟨place, front, stretch, back, carets, found, isStretch, content, column, underlines, rfl, -⟩ :=
    carets_under_stretch none failed
  obtain rfl : stretch = ['"', 'n', 'é'] := isStretch.trans slice
  exact ⟨_, failed, place, front, back, found, content, column, underlines⟩

/-- Under one character of two bytes stand two carets. -/
theorem two_carets_under_one_character :
    ∃ failure, compile "é\n" = .error failure ∧
      Text.slice "é\n".toList failure.diagnostic.span = ['é'] ∧
      Report.plain failure.diagnostic "é\n" none =
        "error[E001]: Unknown token: \\u\x7be9\x7d\n  --> <input>:1:1\n  |\n1 | é\n  | ^^\n" := by
  refine ⟨{ cause := .lexical (.unknownCharacter 'é'), span := { start := 0, stop := 2 } }, ?_, ?_, ?_⟩
  · decide +kernel
  · decide +kernel
  · decide +kernel

end TeenyBasic
