import Mathlib.Data.List.Basic
import TeenyBasic.Proofs.LongestLexeme

/-!
Tokens as a decomposition of the text. A text that has no fault is a gap and a lexeme in turn, every
lexeme being the longest one at its place and every comment reaching up to the end of its line; and a
list of tokens that cuts the text in this way is the list that is read
(`tokenize_eq_ok_iff_decomposition`). Without the condition on comments the second half fails, since a
comment may hold what looks like tokens.

`Munch` is the decomposition token by token, so that reading can be compared with it by one induction
for each direction.
-/

set_option autoImplicit false

namespace TeenyBasic

open Grammar

/-! ## The decomposition -/

/-- For each token, what stands between it and the token before it, and what stands at its span. -/
def cuts (text : List Char) : Nat → List Located → List (List Char × List Char)
  | _, [] => []
  | offset, located :: others =>
    (Text.slice text { start := offset, stop := located.span.start },
      Text.slice text located.span) :: cuts text located.span.stop others

/-- The tokens cut the text into gaps and lexemes, each lexeme the longest at its place. -/
structure Decomposition (text : List Char) (tokens : List Located) : Prop where
  forward : ∀ located ∈ tokens, located.span.start ≤ located.span.stop
  apart : tokens.Pairwise fun first second => first.span.stop ≤ second.span.start
  bounded : ∀ located ∈ tokens, located.span.stop ≤ Text.byteLength text
  boundaries : ∀ located ∈ tokens,
    Text.IsBoundary text located.span.start ∧ Text.IsBoundary text located.span.stop
  lossless : text = (cuts text 0 tokens).flatMap fun cut => cut.1 ++ cut.2
  gaps : ∀ cut ∈ cuts text 0 tokens, Gap cut.1
  lexemes : ∀ located ∈ tokens, located.token ≠ .endOfInput →
    located.kind.Lexeme (Text.slice text located.span)
  texts : ∀ located ∈ tokens, Text.slice text located.span = located.token.written
  maximal : ∀ located ∈ tokens, ∀ kind front back,
    (Text.splitAtByte text located.span.start).2 = front ++ back → Kind.Lexeme kind front →
      front.length ≤ (Text.slice text located.span).length
  /-- A word has no letter right before or right after it. -/
  words : ∀ located ∈ tokens, located.kind.isWord = true →
    Stops Char.isAlpha (Text.splitAtByte text located.span.start).1.reverse ∧
      Stops Char.isAlpha (Text.splitAtByte text located.span.stop).2
  ending : ∃ others line, line.token = .newline ∧
    (∀ located ∈ others, located.token ≠ .endOfInput) ∧
    tokens = others ++ [line,
      { token := .endOfInput
        span := { start := Text.byteLength text, stop := Text.byteLength text } }]

/-- A comment reaches up to the end of its line. -/
def CommentsEndLines (text : List Char) (tokens : List Located) : Prop :=
  ∀ cut ∈ cuts text 0 tokens, '#' ∈ cut.1 → cut.2 = ['\n']

/-! ## Token by token -/

/-- The text from the offset on is a gap and a lexeme in turn, up to its end. -/
inductive Munch : Nat → List Char → List Located → Prop where
  | done (offset : Nat) :
      Munch offset [] [{ token := .endOfInput, span := { start := offset, stop := offset } }]
  | token {offset start stop : Nat} {gap rest : List Char} {token : Token} {others : List Located} :
      Gap gap → ('#' ∈ gap → token = .newline) → token.Readable → token.LongestBefore rest →
      start = offset + Text.byteLength gap → stop = start + Text.byteLength token.written →
      Munch stop rest others →
      Munch offset (gap ++ (token.written ++ rest))
        ({ token := token, span := { start := start, stop := stop } } :: others)

/-- If the text does not end here, it ends in a line feed. -/
def EndsLine (text : List Char) : Prop :=
  ∀ c, text.getLast? = some c → c = '\n'

theorem EndsLine.of_append {front back : List Char} (ends : EndsLine (front ++ back)) :
    EndsLine back := by
  intro c last
  apply ends
  rw [List.getLast?_append, last]
  rfl

theorem EndsLine.eq_nil_of_gap {gap : List Char} (ends : EndsLine gap) (isGap : Gap gap) :
    gap = [] := by
  cases last : gap.getLast? with
  | none => exact List.getLast?_eq_none_iff.mp last
  | some c =>
    obtain rfl := ends c last
    exact absurd (List.mem_of_getLast? last) isGap.newline_notMem

theorem getLast?_endLine (source : List Char) : (endLine source).getLast? = some '\n' := by
  unfold endLine
  split
  · assumption
  · exact List.getLast?_concat

theorem endsLine_endLine (source : List Char) : EndsLine (endLine source) := by
  intro c last
  rw [getLast?_endLine] at last
  exact (Option.some.inj last).symm

private theorem Token.Readable.head_ne_point {token : Token} (readable : token.Readable)
    {rest : List Char} : (token.written ++ rest).head? ≠ some '.' := by
  obtain ⟨c, more, written, -⟩ := readable.spelled.exists_cons readable.notEnd
  rw [written, List.cons_append, List.head?_cons]
  intro isPoint
  obtain rfl := Option.some.inj isPoint
  let cursor := Cursor.start ('.' :: more)
  have read : cursor.readToken = cursor.accept token (cursor.past token.written []) :=
    Cursor.readToken_written readable.spelled readable.notEnd
      (by rw [written, List.append_nil]; rfl) (stops_nil _)
  have refused : cursor.readToken = cursor.readOperator '.' more :=
    Cursor.readToken_of_symbol rfl (by decide)
  rw [refused] at read
  cases read

private theorem Gap.head_ne_point {gap : List Char} (isGap : Gap gap) {c : Char}
    (first : gap.head? = some c) : c ≠ '.' := by
  rintro rfl
  have member := List.mem_of_head? first
  cases isGap with
  | blank blank => exact absurd (blank _ member) (by decide)
  | @comment blanks text blank =>
    cases blanks with
    | nil => cases first
    | cons d blanks =>
      cases first
      exact absurd (blank '.' (.head _)) (by decide)

private theorem Munch.head_ne_point {offset : Nat} {text : List Char} {tokens : List Located}
    (munch : Munch offset text tokens) : text.head? ≠ some '.' := by
  cases munch with
  | done => simp
  | @token _ _ _ gap _ _ _ isGap _ readable =>
    cases gap with
    | nil => exact readable.head_ne_point
    | cons c gap =>
      intro isPoint
      exact isGap.head_ne_point rfl (Option.some.inj isPoint)

theorem Munch.toList_feed {offset : Nat} {text : List Char} {tokens : List Located}
    (munch : Munch offset text tokens) :
    (Cursor.mk offset text).feed.toList = .ok tokens := by
  induction munch with
  | done offset =>
    rw [Cursor.feed]
    rfl
  | @token offset start stop gap rest token others isGap ends readable longest startsAt stopsAt more ih =>
    have takes : (Cursor.mk offset (gap ++ (token.written ++ rest))).Takes gap
        ⟨token, ⟨start, stop⟩⟩ (Cursor.mk stop rest) :=
      ⟨isGap, ends, readable, longest, fun _ => more.head_ne_point, rfl, startsAt, stopsAt, rfl⟩
    rw [Cursor.feed_of_next takes.next_eq readable.notEnd]
    unfold Feed.toList at ih ⊢
    generalize (Cursor.mk stop rest).feed = feed at ih
    obtain ⟨found, ending⟩ := feed
    cases ending with
    | fault error => cases ih
    | endOfInput offset =>
      cases ih
      rfl

theorem Cursor.munch_of_feed (cursor : Cursor) (ends : EndsLine cursor.rest) {tokens : List Located}
    (read : cursor.feed.toList = .ok tokens) : Munch cursor.offset cursor.rest tokens := by
  fun_induction Cursor.feed cursor generalizing tokens with
  | case1 => cases read
  | case2 cursor located after readNext atEnd =>
    obtain ⟨gap, isGap, passes, -⟩ := exists_gap cursor
    have nothing := rest_of_readToken_endOfInput readNext atEnd
    have whole := passes.rest
    rw [nothing, List.append_nil] at whole
    rw [whole] at ends ⊢
    obtain rfl := ends.eq_nil_of_gap isGap
    have start : located.span.start = cursor.offset := by
      rw [(reads_readToken readNext).span]
      exact passes.offset
    simp only [Feed.toList, start] at read
    cases read
    exact .done _
  | case3 cursor located after readNext notEnd others ih =>
    obtain ⟨gap, takes⟩ := takes_of_next readNext notEnd
    have endsAfter : EndsLine after.rest := by
      rw [takes.rest, ← List.append_assoc] at ends
      exact ends.of_append
    have others' : ∃ more, others.toList = .ok more ∧ tokens = located :: more := by
      unfold Feed.toList at read ⊢
      cases ending : others.ending with
      | fault error =>
        rw [ending] at read
        cases read
      | endOfInput offset =>
        rw [ending] at read
        cases read
        exact ⟨_, rfl, rfl⟩
    obtain ⟨more, readMore, rfl⟩ := others'
    have munch := ih endsAfter readMore
    rw [takes.offset] at munch
    rw [takes.rest]
    obtain ⟨token, start, stop⟩ := located
    exact .token takes.isGap takes.comment takes.readable takes.longest takes.start takes.stop munch

/-! ## Words -/

private theorem Token.Readable.last_of_letter {token : Token} (readable : token.Readable) {c : Char}
    (last : token.written.getLast? = some c) (letter : c.isAlpha = true) :
    ∀ d ∈ token.written, d.isAlpha = true := by
  have member := List.mem_of_getLast? last
  cases token with
  | endOfInput => exact absurd rfl readable.notEnd
  | newline =>
    rw [Token.written_newline] at member
    obtain rfl := List.mem_singleton.mp member
    cases letter
  | string body =>
    have quote : (Token.string body).written.getLast? = some '"' := List.getLast?_concat
    rw [quote] at last
    cases last
    cases letter
  | number digits =>
    have isDigit : c.isDigit = true := by
      cases (readable.spelled : Numeral digits) with
      | whole isDigits =>
        rw [Token.written_number] at member
        exact isDigits.2 c member
      | @pointed whole fraction _ isFraction =>
        rw [Token.written_number, List.append_cons, List.getLast?_append,
          List.getLast?_eq_some_getLast isFraction.1] at last
        cases last
        exact isFraction.2 _ (List.getLast_mem _)
    have notLetter := CLanguage.isLetter_of_isDigit isDigit
    simp [CLanguage.isLetter, letter] at notLetter
  | name text => exact (readable.spelled : Name text).letters
  | keyword word => exact word.isAlpha_spelling
  | operator op =>
    rw [op.isAlpha_spelling c member] at letter
    cases letter

theorem Kind.isWord_iff_letters {token : Token} (readable : token.Readable) :
    token.kind.isWord = true ↔ ∀ c ∈ token.written, c.isAlpha = true := by
  constructor
  · intro isWord
    cases token with
    | name text => exact (readable.spelled : Name text).letters
    | keyword word => exact word.isAlpha_spelling
    | _ => cases isWord
  · intro letters
    obtain ⟨c, more, written, -⟩ := readable.spelled.exists_cons readable.notEnd
    have letter := letters c (written ▸ .head _)
    cases token with
    | endOfInput => exact absurd rfl readable.notEnd
    | newline =>
      cases (Token.written_newline.symm.trans written)
      cases letter
    | string body =>
      cases written
      cases letter
    | number digits =>
      obtain ⟨d, others, cons, digit⟩ := Numeral.exists_cons readable.spelled
      cases (cons.symm.trans written)
      have notLetter := CLanguage.isLetter_of_isDigit digit
      simp [CLanguage.isLetter, letter] at notLetter
    | name text => rfl
    | keyword word => rfl
    | operator op =>
      have member : c ∈ op.spelling.toList :=
        (show op.spelling.toList = c :: more from written) ▸ .head _
      rw [op.isAlpha_spelling c member] at letter
      cases letter

private theorem Gap.stops_letter {gap : List Char} (isGap : Gap gap) (noComment : '#' ∉ gap)
    {front : List Char} (nonempty : gap ≠ []) : Stops Char.isAlpha (front ++ gap).reverse := by
  cases isGap with
  | comment => exact absurd (by simp) noComment
  | blank blank =>
    intro c first
    rw [List.head?_reverse, List.getLast?_append, List.getLast?_eq_some_getLast nonempty] at first
    cases first
    have isBlank := blank _ (List.getLast_mem nonempty)
    generalize gap.getLast nonempty = c at isBlank
    simp only [List.mem_cons, List.not_mem_nil, or_false] at isBlank
    rcases isBlank with rfl | rfl | rfl
    · rfl
    · rfl
    · rfl

/-! ## From token to token and back -/

/-- The token is the longest lexeme behind `before`, and no letter joins it there if it is a word. -/
structure Located.Stands (text : List Char) (located : Located) (before after : List Char) :
    Prop where
  text : text = before ++ (located.token.written ++ after)
  start : located.span.start = Text.byteLength before
  stop : located.span.stop = Text.byteLength before + Text.byteLength located.token.written
  readable : located.token ≠ .endOfInput → located.token.Readable
  longest : located.token.LongestBefore after
  parted : located.kind.isWord = true → Stops Char.isAlpha before.reverse

namespace Located.Stands

variable {text before after : List Char} {located : Located}

theorem slice (stands : located.Stands text before after) :
    Text.slice text located.span = located.token.written := by
  rw [stands.text]
  exact Text.slice_append before _ after stands.start stands.stop

private theorem split_start (stands : located.Stands text before after) :
    Text.splitAtByte text located.span.start = (before, located.token.written ++ after) := by
  rw [stands.text, stands.start, Text.splitAtByte_byteLength]

private theorem split_stop (stands : located.Stands text before after) :
    Text.splitAtByte text located.span.stop = (before ++ located.token.written, after) := by
  rw [stands.text, stands.stop, ← Text.byteLength_append, ← List.append_assoc,
    Text.splitAtByte_byteLength]

end Located.Stands

namespace Munch

variable {offset : Nat} {rest : List Char} {tokens : List Located}

private theorem start_le (munch : Munch offset rest tokens) :
    ∀ located ∈ tokens, offset ≤ located.span.start := by
  induction munch with
  | done => simp
  | token _ _ _ _ startsAt stopsAt _ ih =>
    intro located member
    rcases List.mem_cons.mp member with rfl | later
    · simp only [startsAt]
      omega
    · have := ih located later
      omega

private theorem apart (munch : Munch offset rest tokens) :
    tokens.Pairwise fun first second => first.span.stop ≤ second.span.start := by
  induction munch with
  | done => exact List.pairwise_singleton _ _
  | token _ _ _ _ _ _ more ih => exact .cons more.start_le ih

/-- The invariant on what has been read is that a letter at its end is not joined by the rest. -/
theorem stands (munch : Munch offset rest tokens) (front : List Char)
    (here : Text.byteLength front = offset)
    (joined : ∀ c, front.getLast? = some c → c.isAlpha = true → Stops Char.isAlpha rest) :
    ∀ located ∈ tokens, ∃ before after, located.Stands (front ++ rest) before after := by
  induction munch generalizing front with
  | done offset =>
    intro located member
    obtain rfl := List.mem_singleton.mp member
    refine ⟨front, [], by rfl, here.symm, here.symm, fun notEnd => absurd rfl notEnd, ?_,
      fun isWord => nomatch isWord⟩
    intro other readable back same
    rw [(List.append_eq_nil_iff.mp same.symm).1]
    exact Nat.zero_le _
  | @token offset start stop gap rest token others isGap ends readable longest startsAt stopsAt _ ih =>
    intro located member
    rcases List.mem_cons.mp member with rfl | later
    · refine ⟨front ++ gap, rest, by simp, by simp [startsAt, here],
        by simp [stopsAt, startsAt, here], fun _ => readable, longest, fun isWord => ?_⟩
      have letters := (Kind.isWord_iff_letters readable).mp isWord
      by_cases nothing : gap = []
      · subst nothing
        intro c last
        rw [List.append_nil, List.head?_reverse] at last
        refine Bool.eq_false_iff.mpr fun letter => ?_
        obtain ⟨d, more, written, -⟩ := readable.spelled.exists_cons readable.notEnd
        have unjoined := joined c last letter d (by rw [List.nil_append, written]; rfl)
        rw [letters d (written ▸ .head _)] at unjoined
        cases unjoined
      · refine isGap.stops_letter (fun mark => ?_) nothing
        rw [show token = .newline from ends mark] at isWord
        cases isWord
    · have whole : front ++ (gap ++ (token.written ++ rest)) =
          front ++ (gap ++ token.written) ++ rest := by simp
      rw [whole]
      refine ih _ (by simp [stopsAt, startsAt, here, Nat.add_assoc]) (fun c last letter => ?_)
        located later
      obtain ⟨d, more, written, -⟩ := readable.spelled.exists_cons readable.notEnd
      rw [← List.append_assoc, List.getLast?_append_of_ne_nil _ (by simp [written])] at last
      exact longest.stops_letter (readable.last_of_letter last letter)

/-- The cuts put together give the text, and their gaps are gaps. -/
theorem cuts (munch : Munch offset rest tokens) (front : List Char)
    (here : Text.byteLength front = offset) :
    rest = ((TeenyBasic.cuts (front ++ rest) offset tokens).flatMap fun cut => cut.1 ++ cut.2) ∧
      ∀ cut ∈ TeenyBasic.cuts (front ++ rest) offset tokens,
        Gap cut.1 ∧ ('#' ∈ cut.1 → cut.2 = ['\n']) := by
  induction munch generalizing front with
  | done offset =>
    have nothing : Text.slice (front ++ []) ⟨offset, offset⟩ = [] :=
      Text.slice_append front [] [] here.symm (by simp [here])
    simp only [TeenyBasic.cuts, nothing]
    refine ⟨rfl, fun cut member => ?_⟩
    obtain rfl := List.mem_singleton.mp member
    exact ⟨.blank (by simp), by simp⟩
  | @token offset start stop gap rest token others isGap ends readable _ startsAt stopsAt _ ih =>
    have gapSlice : Text.slice (front ++ (gap ++ (token.written ++ rest))) ⟨offset, start⟩ = gap :=
      Text.slice_append front gap _ here.symm (by simp [startsAt, here])
    have tokenSlice : Text.slice (front ++ (gap ++ (token.written ++ rest))) ⟨start, stop⟩ =
        token.written := by
      rw [← List.append_assoc]
      exact Text.slice_append (front ++ gap) _ rest (by simp [startsAt, here])
        (by simp [startsAt, stopsAt, here])
    obtain ⟨whole, facts⟩ := ih (front ++ (gap ++ token.written))
      (by simp [stopsAt, startsAt, here, Nat.add_assoc])
    simp only [List.append_assoc] at whole facts
    simp only [TeenyBasic.cuts, gapSlice, tokenSlice, List.flatMap_cons, List.forall_mem_cons]
    refine ⟨by rw [← whole, List.append_assoc], ⟨isGap, fun mark => ?_⟩, facts⟩
    rw [ends mark, Token.written_newline]

private theorem ending (munch : Munch offset rest tokens) (last : rest.getLast? = some '\n') :
    ∃ others line, line.token = .newline ∧ (∀ located ∈ others, located.token ≠ .endOfInput) ∧
      tokens = others ++ [line,
        { token := .endOfInput
          span := { start := offset + Text.byteLength rest, stop := offset + Text.byteLength rest } }] := by
  induction munch with
  | done => cases last
  | @token offset start stop gap rest token others _ _ readable _ startsAt stopsAt more ih =>
    obtain ⟨c, behind, written, -⟩ := readable.spelled.exists_cons readable.notEnd
    rw [List.getLast?_append_of_ne_nil _ (by simp [written])] at last
    have lengths : offset + Text.byteLength (gap ++ (token.written ++ rest)) =
        stop + Text.byteLength rest := by
      simp only [stopsAt, startsAt, Text.byteLength_append]
      omega
    rw [lengths]
    cases more with
    | done =>
      rw [List.append_nil] at last
      exact ⟨[], _, readable.spelled.eq_newline (List.mem_of_getLast? last), by simp, by rfl⟩
    | @token _ _ _ nextGap nextRest next _ _ _ nextReadable _ _ _ _ =>
      obtain ⟨d, beyond, nextWritten, -⟩ :=
        nextReadable.spelled.exists_cons nextReadable.notEnd
      rw [List.getLast?_append_of_ne_nil _ (by simp [nextWritten])] at last
      obtain ⟨between, line, isNewline, notEnd, tokensEq⟩ := ih last
      refine ⟨_ :: between, line, isNewline, ?_, congrArg (List.cons _) tokensEq⟩
      intro located member
      rcases List.mem_cons.mp member with rfl | later
      · exact readable.notEnd
      · exact notEnd located later

end Munch

theorem Decomposition.of_stands {text : List Char} {tokens : List Located}
    (stands : ∀ located ∈ tokens, ∃ before after, located.Stands text before after)
    (apart : tokens.Pairwise fun first second => first.span.stop ≤ second.span.start)
    (lossless : text = (cuts text 0 tokens).flatMap fun cut => cut.1 ++ cut.2)
    (gaps : ∀ cut ∈ cuts text 0 tokens, Gap cut.1)
    (ending : ∃ others line, line.token = .newline ∧
      (∀ located ∈ others, located.token ≠ .endOfInput) ∧
      tokens = others ++ [line,
        { token := .endOfInput
          span := { start := Text.byteLength text, stop := Text.byteLength text } }]) :
    Decomposition text tokens := by
  refine ⟨?_, apart, ?_, ?_, lossless, gaps, ?_, ?_, ?_, ?_, ending⟩
  · intro located member
    obtain ⟨before, after, here⟩ := stands located member
    rw [here.start, here.stop]
    exact Nat.le_add_right _ _
  · intro located member
    obtain ⟨before, after, here⟩ := stands located member
    rw [here.stop, here.text, Text.byteLength_append, Text.byteLength_append, ← Nat.add_assoc]
    exact Nat.le_add_right _ _
  · intro located member
    obtain ⟨before, after, here⟩ := stands located member
    refine ⟨⟨before, _, here.text, here.start.symm⟩, before ++ located.token.written, after, ?_, ?_⟩
    · rw [List.append_assoc]
      exact here.text
    · rw [Text.byteLength_append]
      exact here.stop.symm
  · intro located member notEnd
    obtain ⟨before, after, here⟩ := stands located member
    rw [here.slice]
    exact (here.readable notEnd).lexeme
  · intro located member
    obtain ⟨before, after, here⟩ := stands located member
    exact here.slice
  · intro located member kind front back split lexeme
    obtain ⟨before, after, here⟩ := stands located member
    obtain ⟨token, readable, -, rfl⟩ := lexeme.exists_readable
    rw [here.split_start] at split
    rw [here.slice]
    exact here.longest token readable back split
  · intro located member isWord
    obtain ⟨before, after, here⟩ := stands located member
    have readable := here.readable fun atEnd => by
      rw [Located.kind, atEnd] at isWord
      cases isWord
    rw [here.split_start, here.split_stop]
    exact ⟨here.parted isWord,
      here.longest.stops_letter ((Kind.isWord_iff_letters readable).mp isWord)⟩

private theorem Decomposition.stands {text : List Char} {tokens : List Located}
    (decomposition : Decomposition text tokens) :
    ∀ located ∈ tokens, ∃ before after, located.Stands text before after := by
  intro located member
  obtain ⟨⟨before, back, rfl, starts⟩, stopBoundary⟩ := decomposition.boundaries located member
  obtain ⟨middle, after, rfl, stops⟩ :=
    stopBoundary.split (starts ▸ decomposition.forward located member)
  have slice : Text.slice (before ++ (middle ++ after)) located.span = middle :=
    Text.slice_append before middle after starts.symm stops
  have written := decomposition.texts located member
  rw [slice] at written
  subst written
  refine ⟨before, after, rfl, starts.symm, stops, fun notEnd => ?_, ?_, fun isWord => ?_⟩
  · have lexeme := decomposition.lexemes located member notEnd
    rw [slice] at lexeme
    exact Token.readable_of_lexeme lexeme
  · intro other readable rest same
    have shorter := decomposition.maximal located member other.kind other.written rest
      (by rw [← starts, Text.splitAtByte_byteLength, same]) readable.lexeme
    rwa [slice] at shorter
  · have parted := (decomposition.words located member isWord).1
    rwa [← starts, Text.splitAtByte_byteLength] at parted

/-- The induction is on the tokens still to come, `front` being what the ones before them cover. -/
theorem munch_of_stands {text : List Char} (tokens : List Located) (front rest : List Char)
    (whole : text = front ++ rest) (ends : EndsLine rest)
    (stands : ∀ located ∈ tokens, ∃ before after, located.Stands text before after)
    (apart : tokens.Pairwise fun first second => first.span.stop ≤ second.span.start)
    (later : ∀ located ∈ tokens, Text.byteLength front ≤ located.span.start)
    (cut : ∀ cut ∈ cuts text (Text.byteLength front) tokens,
      Gap cut.1 ∧ ('#' ∈ cut.1 → cut.2 = ['\n']))
    (ending : ∃ others, (∀ located ∈ others, located.token ≠ .endOfInput) ∧
      tokens = others ++ [{ token := .endOfInput
                            span := { start := Text.byteLength text, stop := Text.byteLength text } }]) :
    Munch (Text.byteLength front) rest tokens := by
  induction tokens generalizing front rest with
  | nil =>
    obtain ⟨others, -, nothing⟩ := ending
    simp at nothing
  | cons located tokens ih =>
    obtain ⟨before, after, here⟩ := stands located (.head _)
    obtain ⟨gap, rfl, rfl⟩ := Text.isPrefix_of_byteLength_le (whole.symm.trans here.text)
      (here.start ▸ later located (.head _))
    have startsAt := here.start
    have stopsAt := here.stop
    rw [Text.byteLength_append] at startsAt stopsAt
    have gapSlice : Text.slice text ⟨Text.byteLength front, located.span.start⟩ = gap := by
      rw [whole]
      exact Text.slice_append front gap _ rfl startsAt
    simp only [cuts, List.forall_mem_cons, gapSlice, here.slice] at cut
    obtain ⟨⟨isGap, comment⟩, cutOthers⟩ := cut
    obtain ⟨others, notEnd, tokensEq⟩ := ending
    cases others with
    | nil =>
      obtain ⟨rfl, rfl⟩ := List.cons.inj tokensEq
      have lengths := congrArg Text.byteLength here.text
      simp only [Text.byteLength_append] at startsAt lengths
      obtain rfl := Text.eq_nil_of_byteLength (show Text.byteLength after = 0 by omega)
      have noGap : gap = [] := EndsLine.eq_nil_of_gap (by simpa [Token.written, Token.text] using ends) isGap
      subst noGap
      rw [startsAt]
      exact .done _
    | cons first others =>
      obtain ⟨rfl, rfl⟩ := List.cons.inj tokensEq
      have readable := here.readable (notEnd located (.head _))
      have newline : '#' ∈ gap → located.token = .newline := fun mark =>
        readable.written_inj Token.readable_newline ((comment mark).trans Token.written_newline.symm)
      have beyond : Text.byteLength (front ++ (gap ++ located.token.written)) = located.span.stop := by
        rw [stopsAt, Text.byteLength_append, Text.byteLength_append, Nat.add_assoc]
      have munch := ih (front ++ (gap ++ located.token.written)) after
        (by simpa using whole) (by rw [← List.append_assoc] at ends; exact ends.of_append)
        (fun other member => stands other (.tail _ member)) (List.pairwise_cons.mp apart).2
        (by rw [beyond]; exact (List.pairwise_cons.mp apart).1) (by rw [beyond]; exact cutOthers)
        ⟨others, fun other member => notEnd other (.tail _ member), rfl⟩
      rw [beyond] at munch
      obtain ⟨token, start, stop⟩ := located
      exact .token isGap newline readable here.longest startsAt
        (stopsAt.trans (congrArg (· + Text.byteLength token.written) startsAt.symm)) munch

/-- The tokens of a source are the one list that cuts its text into gaps and longest lexemes and
leaves every comment whole. -/
theorem tokenize_eq_ok_iff_decomposition (source : String) (tokens : List Located) :
    tokenize source = .ok tokens ↔
      Decomposition (endLine source.toList) tokens ∧
        CommentsEndLines (endLine source.toList) tokens := by
  have last := getLast?_endLine source.toList
  constructor
  · intro read
    have munch := (Cursor.start (endLine source.toList)).munch_of_feed
      (endsLine_endLine source.toList) read
    obtain ⟨lossless, gaps⟩ := munch.cuts [] rfl
    have ending := munch.ending last
    rw [show (Cursor.start (endLine source.toList)).offset = 0 from rfl, Nat.zero_add] at ending
    exact ⟨.of_stands (munch.stands [] rfl (by simp)) munch.apart lossless
        (fun cut member => (gaps cut member).1) ending,
      fun cut member => (gaps cut member).2⟩
  · intro ⟨decomposition, comments⟩
    obtain ⟨others, line, isNewline, notEnd, ending⟩ := decomposition.ending
    have munch := munch_of_stands tokens [] (endLine source.toList) rfl
      (endsLine_endLine source.toList) decomposition.stands decomposition.apart
      (fun located _ => Nat.zero_le _)
      (fun cut member => ⟨decomposition.gaps cut member, comments cut member⟩)
      ⟨others ++ [line], by
        intro located member
        rcases List.mem_append.mp member with among | isLine
        · exact notEnd located among
        · rw [List.mem_singleton.mp isLine, isNewline]
          exact Token.noConfusion, by rw [ending, List.append_assoc]; rfl⟩
    exact munch.toList_feed

/-- A comment that is cut short leaves a second list that decomposes the text. -/
theorem decomposition_of_short_comment :
    Decomposition (endLine "#a\n".toList)
        [⟨.name "a", ⟨1, 2⟩⟩, ⟨.newline, ⟨2, 3⟩⟩, ⟨.endOfInput, ⟨3, 3⟩⟩] ∧
      tokenize "#a\n" = .ok [⟨.newline, ⟨2, 3⟩⟩, ⟨.endOfInput, ⟨3, 3⟩⟩] := by
  have readWord : (Cursor.mk 1 ['a', '\n']).readToken =
      (.ok ⟨.name "a", ⟨1, 2⟩⟩, ⟨2, ['\n']⟩) := by rfl
  have readLine : (Cursor.mk 2 ['\n']).readToken = (.ok ⟨.newline, ⟨2, 3⟩⟩, ⟨3, []⟩) := by rfl
  have readEnd : (Cursor.mk 3 []).readToken = (.ok ⟨.endOfInput, ⟨3, 3⟩⟩, ⟨3, []⟩) := by rfl
  have readable : (Token.name "a").Readable :=
    ⟨⟨by decide, List.all_eq_true.mp (by decide), by decide⟩, by decide⟩
  have word : Located.Stands ['#', 'a', '\n'] ⟨.name "a", ⟨1, 2⟩⟩ ['#'] ['\n'] :=
    ⟨by decide, rfl, rfl, fun _ => readable, Cursor.longest_of_readToken readWord,
      fun _ => stops_cons.mpr (by decide)⟩
  have line : Located.Stands ['#', 'a', '\n'] ⟨.newline, ⟨2, 3⟩⟩ ['#', 'a'] [] :=
    ⟨by decide, rfl, rfl, fun _ => Token.readable_newline, Cursor.longest_of_readToken readLine,
      nofun⟩
  have last : Located.Stands ['#', 'a', '\n'] ⟨.endOfInput, ⟨3, 3⟩⟩ ['#', 'a', '\n'] [] :=
    ⟨by decide, rfl, rfl, fun notEnd => absurd rfl notEnd, Cursor.longest_of_readToken readEnd, nofun⟩
  refine ⟨.of_stands ?_ (by decide) (by decide) ?_ ⟨[_], _, rfl, by decide, rfl⟩, by decide +kernel⟩
  · simp only [List.forall_mem_cons, List.not_mem_nil, false_implies, implies_true, and_true]
    exact ⟨⟨_, _, word⟩, ⟨_, _, line⟩, ⟨_, _, last⟩⟩
  · rw [show cuts _ 0 _ = [(['#'], ['a']), ([], ['\n']), ([], [])] by decide]
    simp only [List.forall_mem_cons, List.not_mem_nil, false_implies, implies_true, and_true]
    have mark : Gap ([] ++ '#' :: []) := .comment (by simp) (by simp)
    exact ⟨mark, .blank (by simp), .blank (by simp)⟩

end TeenyBasic
