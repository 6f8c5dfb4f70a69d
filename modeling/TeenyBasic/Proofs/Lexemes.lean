import TeenyBasic.Proofs.CLanguage.Lexing
import TeenyBasic.Proofs.Spelling

/-!
Tokens and the text they are read from. A text is what stands between its tokens and what they are
written as, in turn (`Cursor.next_split`), so tokens come in the order of the text and no two have the
same span. Conversely a spelled token is read from what it is written as, wherever nothing follows
that would be read with it (`Cursor.next_written`); so every list of spelled tokens is the token list
of some text (`exists_feedOf`).
-/

set_option autoImplicit false

namespace TeenyBasic

open Grammar

/-- What a token is written as; a string stands between quotes. -/
def Token.written : Token → List Char
  | .string body => '"' :: body.toList ++ ['"']
  | token => token.text.toList

@[simp] theorem Token.written_newline : Token.newline.written = ['\n'] := by
  decide

/-! ## Fixed spellings -/

theorem Keyword.ofWord?_spelling (word : Keyword) : Keyword.ofWord? word.spelling = some word := by
  cases word <;> rfl

theorem Keyword.spelling_ne_nil (word : Keyword) : word.spelling.toList ≠ [] := by
  cases word <;> decide

theorem Keyword.isAlpha_spelling (word : Keyword) : ∀ c ∈ word.spelling.toList, c.isAlpha = true :=
  List.all_eq_true.mp (by cases word <;> decide)

theorem Operator.exists_symbol (op : Operator) :
    ∃ c more, op.spelling.toList = c :: more ∧
      (!(c = '\n' || c = '"' || c.isDigit || c.isAlpha)) = true := by
  cases op with
  | assign => exact ⟨_, _, rfl, by decide⟩
  | sign sign => cases sign <;> exact ⟨_, _, rfl, by decide⟩
  | scaling scaling => cases scaling <;> exact ⟨_, _, rfl, by decide⟩
  | comparison comparison => cases comparison <;> exact ⟨_, _, rfl, by decide⟩

/-! ## Reading -/

theorem Operator.read?_split {text rest : List Char} {op : Operator}
    (read : Operator.read? text = some (op, rest)) : text = op.spelling.toList ++ rest := by
  unfold Operator.read? at read
  split at read <;> cases read <;> rfl

theorem Token.written_ofWord (word : List Char) :
    (Token.ofWord (String.ofList word)).written = word := by
  unfold Token.ofWord
  split
  · rename_i keyword found
    have spelled := List.find?_some found
    rw [beq_iff_eq] at spelled
    change keyword.spelling.toList = word
    rw [spelled, String.toList_ofList]
  · exact String.toList_ofList

namespace Cursor

/-- The cursor `after` stands right after `taken`. -/
structure Passes (cursor : Cursor) (taken : List Char) (after : Cursor) : Prop where
  rest : cursor.rest = taken ++ after.rest
  offset : after.offset = cursor.offset + Text.byteLength taken

theorem Passes.trans {cursor between after : Cursor} {front back : List Char}
    (first : cursor.Passes front between) (second : between.Passes back after) :
    cursor.Passes (front ++ back) after where
  rest := by rw [first.rest, second.rest, List.append_assoc]
  offset := by rw [second.offset, first.offset, Text.byteLength_append, Nat.add_assoc]

theorem passes_past {cursor : Cursor} (taken : List Char) {rest : List Char}
    (split : cursor.rest = taken ++ rest) : cursor.Passes taken (cursor.past taken rest) :=
  ⟨split, rfl⟩

theorem passes_skipWhile (skipped : Char → Bool) (cursor : Cursor) :
    cursor.Passes (cursor.rest.takeWhile skipped) (cursor.skipWhile skipped) :=
  passes_past _ List.takeWhile_append_dropWhile.symm

theorem passes_skipGap (cursor : Cursor) :
    ∃ gap, '\n' ∉ gap ∧ cursor.Passes gap cursor.skipGap := by
  have blanks : '\n' ∉ cursor.rest.takeWhile isGap := fun member =>
    absurd (isTrue_of_mem_takeWhile member) (by decide)
  have comment : '\n' ∉ (cursor.skipWhile isGap).rest.takeWhile (· != '\n') := fun member =>
    absurd (isTrue_of_mem_takeWhile member) (by decide)
  unfold skipGap
  dsimp only
  split
  · refine ⟨_, ?_, (passes_skipWhile isGap cursor).trans (passes_skipWhile _ _)⟩
    simp [blanks, comment]
  · exact ⟨_, blanks, passes_skipWhile isGap cursor⟩

/-- The token stands at the cursor and reaches up to `after`. -/
structure Reads (cursor : Cursor) (located : Located) (after : Cursor) : Prop where
  passes : cursor.Passes located.token.written after
  span : located.span = cursor.spanTo after

variable {cursor after : Cursor} {located : Located}

private theorem reads_readNumber (read : cursor.readNumber = (.ok located, after)) :
    cursor.Reads located after := by
  have whole := passes_skipWhile Char.isDigit cursor
  unfold readNumber at read
  dsimp only at read
  split at read
  · rename_i rest found
    split at read
    · cases read
    · cases read
      refine ⟨?_, rfl⟩
      have point := passes_past ['.'] found
      simpa [Token.written, Token.text] using
        (whole.trans point).trans (passes_skipWhile Char.isDigit _)
  · cases read
    refine ⟨?_, rfl⟩
    simpa [Token.written, Token.text] using whole

private theorem reads_readString {body : List Char} (found : cursor.rest = '"' :: body)
    (read : cursor.readString body = (.ok located, after)) : cursor.Reads located after := by
  have opening := passes_past ['"'] found
  unfold readString at read
  dsimp only at read
  split at read
  · rename_i rest closes
    cases read
    refine ⟨?_, rfl⟩
    have inside := passes_skipWhile isStringBody (cursor.past ['"'] body)
    have closing := passes_past ['"'] closes
    simpa [Token.written] using (opening.trans inside).trans closing
  · split at read <;> cases read
  · cases read

theorem reads_readToken (read : cursor.readToken = (.ok located, after)) :
    cursor.Reads located after := by
  unfold readToken at read
  split at read
  · cases read
    exact ⟨⟨rfl, rfl⟩, rfl⟩
  rename_i c rest found
  split at read
  · rename_i newline
    cases read
    subst newline
    exact ⟨by simpa using passes_past ['\n'] found, rfl⟩
  split at read
  · rename_i quote
    subst quote
    exact reads_readString found read
  split at read
  · exact reads_readNumber read
  split at read
  · cases read
    refine ⟨?_, rfl⟩
    rw [Token.written_ofWord]
    exact passes_skipWhile Char.isAlpha cursor
  · unfold readOperator at read
    split at read
    · rename_i op rest found
      cases read
      exact ⟨passes_past _ (Operator.read?_split found), rfl⟩
    · cases read

/-- A text goes on with a gap, the token that is read and the rest. -/
theorem next_split (read : cursor.next = (.ok located, after)) :
    ∃ gap start, '\n' ∉ gap ∧ cursor.Passes gap start ∧ start.Reads located after := by
  obtain ⟨gap, plain, passes⟩ := passes_skipGap cursor
  exact ⟨gap, _, plain, passes, reads_readToken read⟩

end Cursor

private theorem isGap_of_isAlpha {c : Char} (letter : c.isAlpha = true) :
    isGap c = false ∧ c ≠ '#' := by
  refine ⟨Bool.eq_false_iff.mpr fun gap => ?_, by rintro rfl; cases letter⟩
  simp only [isGap, Bool.or_eq_true, decide_eq_true_eq] at gap
  rcases gap with (rfl | rfl) | rfl <;> cases letter

theorem isGap_of_isDigit {c : Char} (digit : c.isDigit = true) : isGap c = false ∧ c ≠ '#' := by
  refine ⟨Bool.eq_false_iff.mpr fun gap => ?_, by rintro rfl; cases digit⟩
  simp only [isGap, Bool.or_eq_true, decide_eq_true_eq] at gap
  rcases gap with (rfl | rfl) | rfl <;> cases digit

theorem Token.Spelled.exists_cons {token : Token} (spelled : token.Spelled)
    (notEnd : token ≠ .endOfInput) :
    ∃ c rest, token.written = c :: rest ∧ isGap c = false ∧ c ≠ '#' := by
  cases token with
  | endOfInput => exact absurd rfl notEnd
  | newline => exact ⟨'\n', [], Token.written_newline, by decide, by decide⟩
  | string body => exact ⟨'"', _, rfl, by decide, by decide⟩
  | number digits =>
    obtain ⟨c, rest, cons, digit⟩ := Numeral.exists_cons spelled
    exact ⟨c, rest, cons, isGap_of_isDigit digit⟩
  | name text =>
    obtain ⟨c, rest, cons, letter⟩ := Name.exists_cons spelled
    exact ⟨c, rest, cons, isGap_of_isAlpha letter⟩
  | keyword word => cases word <;> exact ⟨_, _, rfl, by decide, by decide⟩
  | operator op =>
    cases op with
    | assign => exact ⟨_, _, rfl, by decide, by decide⟩
    | sign sign => cases sign <;> exact ⟨_, _, rfl, by decide, by decide⟩
    | scaling scaling => cases scaling <;> exact ⟨_, _, rfl, by decide, by decide⟩
    | comparison comparison => cases comparison <;> exact ⟨_, _, rfl, by decide, by decide⟩

/-! ## Order -/

/-- Where the tokens of a feed stand: one after the other, from the given offset on. -/
structure Feed.Ordered (feed : Feed) (offset : Nat) : Prop where
  nonempty : ∀ located ∈ feed.tokens, located.span.start < located.span.stop
  bounded : ∀ located ∈ feed.tokens, offset ≤ located.span.start
  ascending : feed.tokens.Pairwise fun first second => first.span.stop ≤ second.span.start
  ending : ∀ stop, feed.ending = .endOfInput stop →
    offset ≤ stop ∧ ∀ located ∈ feed.tokens, located.span.stop ≤ stop

private theorem Cursor.ordered_feed (cursor : Cursor) : cursor.feed.Ordered cursor.offset := by
  fun_induction Cursor.feed cursor with
  | case1 => exact ⟨by simp, by simp, .nil, by simp⟩
  | case2 cursor located after read atEnd =>
    obtain ⟨gap, start, -, passes, reads⟩ := next_split read
    refine ⟨by simp, by simp, .nil, fun stop ending => ?_⟩
    cases ending
    rw [reads.span]
    have := passes.offset
    exact ⟨by simp [spanTo]; omega, by simp⟩
  | case3 cursor located after read notEnd others ih =>
    obtain ⟨gap, start, -, passes, reads⟩ := next_split read
    have spelled : located.token.Spelled := spelled_readToken read
    obtain ⟨c, rest, written, -⟩ := spelled.exists_cons notEnd
    have startOffset : located.span.start = start.offset := by rw [reads.span]; rfl
    have stopOffset : located.span.stop = after.offset := by rw [reads.span]; rfl
    have startBound := passes.offset
    have stopBound := reads.passes.offset
    have positive := Char.utf8Size_pos c
    rw [written, Text.byteLength_cons] at stopBound
    refine ⟨?_, ?_, ?_, fun stop ending => ?_⟩
    · intro member inside
      cases inside with
      | head => omega
      | tail _ inside => exact ih.nonempty member inside
    · intro member inside
      cases inside with
      | head => omega
      | tail _ inside =>
        have := ih.bounded member inside
        omega
    · refine .cons (fun member inside => ?_) ih.ascending
      have := ih.bounded member inside
      omega
    · obtain ⟨stopBounded, all⟩ := ih.ending stop ending
      refine ⟨by omega, fun member inside => ?_⟩
      cases inside with
      | head => omega
      | tail _ inside => exact all member inside

theorem Feed.Ordered.ascending_start {feed : Feed} {offset : Nat} (ordered : feed.Ordered offset) :
    feed.tokens.Pairwise fun first second => first.span.start < second.span.start :=
  ordered.ascending.imp_of_mem fun inside _ stops =>
    Nat.lt_of_lt_of_le (ordered.nonempty _ inside) stops

/-! ## The last line end -/

theorem Token.Spelled.eq_newline {token : Token} (spelled : token.Spelled)
    (member : '\n' ∈ token.written) : token = .newline := by
  cases token with
  | newline => rfl
  | endOfInput => cases member
  | string body =>
    simp only [Token.written, List.cons_append, List.mem_cons, List.mem_append] at member
    rcases member with unequal | inside | unequal | nothing
    · cases unequal
    · exact absurd (spelled _ inside) (by decide)
    · cases unequal
    · cases nothing
  | number digits =>
    change '\n' ∈ digits.toList at member
    cases (spelled : Numeral digits) with
    | whole isDigits =>
      rw [String.toList_ofList] at member
      exact absurd (isDigits.2 _ member) (by decide)
    | pointed isWhole isFraction =>
      rw [String.toList_ofList, List.mem_append, List.mem_cons] at member
      rcases member with inWhole | point | inFraction
      · exact absurd (isWhole.2 _ inWhole) (by decide)
      · cases point
      · exact absurd (isFraction.2 _ inFraction) (by decide)
  | name text => exact absurd ((spelled : Name text).letters _ member) (by decide)
  | keyword word =>
    revert member
    cases word <;> decide
  | operator op =>
    revert member
    cases op with
    | assign => decide
    | sign sign => cases sign <;> decide
    | scaling scaling => cases scaling <;> decide
    | comparison comparison => cases comparison <;> decide

namespace Cursor

theorem rest_of_readToken_endOfInput {cursor after : Cursor} {located : Located}
    (read : cursor.readToken = (.ok located, after)) (atEnd : located.token = .endOfInput) :
    cursor.rest = [] := by
  cases found : cursor.rest with
  | nil => rfl
  | cons c rest =>
    have shorter := length_readToken_lt found
    have passes := (reads_readToken read).passes.rest
    rw [read] at shorter
    rw [passes, atEnd] at shorter
    exact absurd shorter (Nat.lt_irrefl _)

theorem next_of_rest_nil {cursor : Cursor} (empty : cursor.rest = []) :
    cursor.next =
      (.ok { token := .endOfInput, span := { start := cursor.offset, stop := cursor.offset } }, cursor) := by
  obtain ⟨offset, rest⟩ := cursor
  cases empty
  rfl

theorem feed_of_rest_nil {cursor : Cursor} (empty : cursor.rest = []) :
    ∃ offset, cursor.feed = { tokens := [], ending := .endOfInput offset } := by
  have read := next_of_rest_nil empty
  rw [Cursor.feed]
  split
  · rename_i found
    rw [read] at found
    cases found
  · rename_i located after found
    rw [read] at found
    cases found
    exact ⟨_, rfl⟩

/-- A text that ends in a line feed and has no fault has a line end as its last token. -/
theorem getLast?_feed (cursor : Cursor) (ended : cursor.rest.getLast? = some '\n') {stop : Nat}
    (ending : cursor.feed.ending = .endOfInput stop) :
    (cursor.feed.tokens.map (·.token)).getLast? = some .newline := by
  fun_induction Cursor.feed cursor with
  | case1 => cases ending
  | case2 cursor located after read atEnd =>
    obtain ⟨gap, plain, passes⟩ := passes_skipGap cursor
    rw [passes.rest, rest_of_readToken_endOfInput read atEnd, List.append_nil] at ended
    exact absurd (List.mem_of_getLast? ended) plain
  | case3 cursor located after read notEnd others ih =>
    obtain ⟨gap, start, plain, passes, reads⟩ := next_split read
    have spelled : located.token.Spelled := spelled_readToken read
    rw [passes.rest, reads.passes.rest] at ended
    cases more : after.rest with
    | nil =>
      rw [more, List.append_nil] at ended
      have member : '\n' ∈ located.token.written := by
        rcases List.mem_append.mp (List.mem_of_getLast? ended) with inGap | inToken
        · exact absurd inGap plain
        · exact inToken
      obtain ⟨offset, nothing⟩ := feed_of_rest_nil more
      have none : others.tokens = [] := congrArg Feed.tokens nothing
      simp [none, spelled.eq_newline member]
    | cons c rest =>
      have endedRest : after.rest.getLast? = some '\n' := by
        rw [← List.append_assoc, List.getLast?_append, more, List.getLast?_cons, Option.some_or]
          at ended
        rw [more, List.getLast?_cons, ended]
      rw [List.map_cons, List.getLast?_cons, ih endedRest ending]
      rfl

end Cursor

/-! ## Writing -/

/-- Whether a token that stands before the character might be read as a longer one. -/
def continuesToken (c : Char) : Bool :=
  c.isAlpha || c.isDigit || c = '.' || c = '='

namespace Cursor

variable {cursor : Cursor} {rest : List Char}

theorem past_past (cursor : Cursor) (front back between rest : List Char) :
    (cursor.past front between).past back rest = cursor.past (front ++ back) rest := by
  simp [past, Nat.add_assoc]

private theorem readWord_of_rest {word : List Char} (letters : ∀ c ∈ word, c.isAlpha = true)
    (found : cursor.rest = word ++ rest) (stops : Stops continuesToken rest) :
    cursor.readWord = cursor.accept (Token.ofWord (String.ofList word)) (cursor.past word rest) := by
  have beyond : Stops Char.isAlpha rest := stops.mono fun c => by simp +contextual [continuesToken]
  simp only [readWord, skipWhile, found, beyond.takeWhile_append letters,
    beyond.dropWhile_append letters]

private theorem readNumber_of_rest {digits : String} (numeral : Numeral digits)
    (found : cursor.rest = digits.toList ++ rest) (stops : Stops continuesToken rest) :
    cursor.readNumber = cursor.accept (.number digits) (cursor.past digits.toList rest) := by
  have beyond : Stops Char.isDigit rest := stops.mono fun c => by simp +contextual [continuesToken]
  cases numeral with
  | whole isDigits =>
    rw [String.toList_ofList] at found ⊢
    simp only [readNumber, skipWhile, found, beyond.takeWhile_append isDigits.2,
      beyond.dropWhile_append isDigits.2, rest_past]
    split
    · cases stops_cons.mp stops
    · rfl
  | @pointed whole fraction isWhole isFraction =>
    rw [String.toList_ofList] at found ⊢
    rw [List.append_assoc, List.cons_append] at found
    have point : Stops Char.isDigit ('.' :: (fraction ++ rest)) := stops_cons.mpr (by decide)
    simp only [readNumber, skipWhile, found, point.takeWhile_append isWhole.2,
      point.dropWhile_append isWhole.2, rest_past, beyond.takeWhile_append isFraction.2,
      beyond.dropWhile_append isFraction.2, List.isEmpty_eq_false_iff.mpr isFraction.1, past_past,
      Bool.false_eq_true, if_false, List.append_assoc, List.singleton_append]

theorem readString_of_rest (cursor : Cursor) (rest : List Char) {body : List Char}
    (legal : ∀ c ∈ body, isStringBody c = true) :
    cursor.readString (body ++ '"' :: rest) =
      cursor.accept (.string (String.ofList body)) (cursor.past ('"' :: body ++ ['"']) rest) := by
  have quote : Stops isStringBody ('"' :: rest) := stops_cons.mpr (by decide)
  simp only [readString, skipWhile, rest_past, quote.takeWhile_append legal,
    quote.dropWhile_append legal, past_past, List.singleton_append]

theorem read?_spelling (op : Operator) (stops : Stops continuesToken rest) :
    Operator.read? (op.spelling.toList ++ rest) = some (op, rest) := by
  cases op with
  | assign =>
    change Operator.read? ('=' :: rest) = _
    unfold Operator.read?
    split <;> simp_all [stops_cons, continuesToken]
  | sign sign => cases sign <;> rfl
  | scaling scaling => cases scaling <;> rfl
  | comparison comparison =>
    cases comparison with
    | less =>
      change Operator.read? ('<' :: rest) = _
      unfold Operator.read?
      split <;> simp_all [stops_cons, continuesToken]
    | greater =>
      change Operator.read? ('>' :: rest) = _
      unfold Operator.read?
      split <;> simp_all [stops_cons, continuesToken]
    | _ => rfl

section Start

variable {c : Char} {more : List Char} (found : cursor.rest = c :: more)

include found

theorem readToken_of_digit (digit : c.isDigit = true) : cursor.readToken = cursor.readNumber := by
  have notNewline : c ≠ '\n' := by rintro rfl; cases digit
  have notQuote : c ≠ '"' := by rintro rfl; cases digit
  simp [readToken, found, notNewline, notQuote, digit]

theorem readToken_of_letter (letter : c.isAlpha = true) : cursor.readToken = cursor.readWord := by
  have notNewline : c ≠ '\n' := by rintro rfl; cases letter
  have notQuote : c ≠ '"' := by rintro rfl; cases letter
  have notDigit : c.isDigit = false := by
    rw [Bool.eq_false_iff]
    intro digit
    have notLetter := CLanguage.isLetter_of_isDigit digit
    simp [CLanguage.isLetter, letter] at notLetter
  simp [readToken, found, notNewline, notQuote, notDigit, letter]

theorem readToken_of_symbol
    (symbol : (!(c = '\n' || c = '"' || c.isDigit || c.isAlpha)) = true) :
    cursor.readToken = cursor.readOperator c more := by
  simp only [Bool.not_eq_true', Bool.or_eq_false_iff, decide_eq_false_iff_not] at symbol
  simp [readToken, found, symbol]

end Start

theorem readToken_of_quote {body : List Char} (found : cursor.rest = '"' :: body) :
    cursor.readToken = cursor.readString body := by
  simp [readToken, found]

theorem readToken_of_numeral {digits : String} (numeral : Numeral digits)
    (found : cursor.rest = digits.toList ++ rest) : cursor.readToken = cursor.readNumber := by
  obtain ⟨c, more, cons, digit⟩ := numeral.exists_cons
  exact readToken_of_digit (found.trans (congrArg (· ++ rest) cons)) digit

theorem readToken_of_word {word : List Char} (nonempty : word ≠ [])
    (letters : ∀ c ∈ word, c.isAlpha = true) (found : cursor.rest = word ++ rest) :
    cursor.readToken = cursor.readWord := by
  obtain ⟨c, more, rfl⟩ := List.exists_cons_of_ne_nil nonempty
  exact readToken_of_letter found (letters c (.head _))

theorem readToken_of_operator (op : Operator) (found : cursor.rest = op.spelling.toList ++ rest) :
    ∃ c more, cursor.readToken = cursor.readOperator c more := by
  obtain ⟨c, more, cons, symbol⟩ := op.exists_symbol
  exact ⟨c, more ++ rest, readToken_of_symbol (found.trans (congrArg (· ++ rest) cons)) symbol⟩

theorem readToken_written {token : Token} (spelled : token.Spelled) (notEnd : token ≠ .endOfInput)
    (found : cursor.rest = token.written ++ rest) (stops : Stops continuesToken rest) :
    cursor.readToken = cursor.accept token (cursor.past token.written rest) := by
  cases token with
  | endOfInput => exact absurd rfl notEnd
  | newline =>
    rw [Token.written_newline] at found ⊢
    simp [readToken, found]
  | string body =>
    have quoted : cursor.rest = '"' :: (body.toList ++ '"' :: rest) := by
      simpa [Token.written] using found
    have read := readString_of_rest cursor rest spelled
    rw [String.ofList_toList] at read
    rw [readToken_of_quote quoted]
    exact read
  | number digits =>
    rw [readToken_of_numeral spelled found]
    exact readNumber_of_rest spelled found stops
  | name text =>
    have isName : Name text := spelled
    rw [readToken_of_word isName.nonempty isName.letters found,
      readWord_of_rest isName.letters found stops, String.ofList_toList, Token.ofWord,
      isName.notKeyword]
    rfl
  | keyword word =>
    rw [readToken_of_word word.spelling_ne_nil word.isAlpha_spelling found,
      readWord_of_rest word.isAlpha_spelling found stops, String.ofList_toList, Token.ofWord,
      word.ofWord?_spelling]
    rfl
  | operator op =>
    obtain ⟨c, more, dispatched⟩ := readToken_of_operator op found
    have read : Operator.read? cursor.rest = some (op, rest) :=
      (congrArg Operator.read? found).trans (read?_spelling op stops)
    rw [dispatched, readOperator, read]
    rfl

private theorem rest_skipGap {gap : List Char} {c : Char} {more : List Char}
    (found : cursor.rest = gap ++ c :: more) (blank : ∀ c ∈ gap, isGap c = true)
    (notBlank : isGap c = false) (notComment : c ≠ '#') : cursor.skipGap.rest = c :: more := by
  have stops : Stops isGap (c :: more) := stops_cons.mpr notBlank
  have skipped : (cursor.skipWhile isGap).rest = c :: more := by
    rw [skipWhile, found, rest_past, stops.dropWhile_append blank]
  rw [skipGap, skipped, if_neg (by simpa using notComment)]
  exact skipped

/-- Blanks, what a token is written as, and nothing that would be read with it. -/
theorem next_written (gap : List Char) {token : Token} (spelled : token.Spelled)
    (notEnd : token ≠ .endOfInput) (blank : ∀ c ∈ gap, isGap c = true)
    (found : cursor.rest = gap ++ (token.written ++ rest)) (stops : Stops continuesToken rest) :
    ∃ span after, cursor.next = (.ok ⟨token, span⟩, after) ∧ after.rest = rest := by
  obtain ⟨c, more, written, notBlank, notComment⟩ := spelled.exists_cons notEnd
  have skipped : cursor.skipGap.rest = token.written ++ rest := by
    rw [written, List.cons_append] at found ⊢
    exact rest_skipGap found blank notBlank notComment
  exact ⟨_, _, readToken_written spelled notEnd skipped stops, rfl⟩

theorem feed_of_next {located : Located} {after : Cursor} (read : cursor.next = (.ok located, after))
    (notEnd : located.token ≠ .endOfInput) :
    cursor.feed = { tokens := located :: after.feed.tokens, ending := after.feed.ending } := by
  rw [Cursor.feed]
  split
  · rename_i failed
    rw [read] at failed
    cases failed
  · rename_i found
    rw [read] at found
    cases found
    rw [dif_neg notEnd]

end Cursor

/-- Tokens as they are written, each after a blank. -/
def spacedOut (tokens : List Token) : List Char :=
  tokens.flatMap fun token => ' ' :: token.written

/-- A token behind blanks is the first one of the feed, and the others are those of the text after it. -/
theorem Cursor.feed_written {cursor : Cursor} (gap : List Char) {token : Token} {rest : List Char}
    (readable : token.Readable) (blank : ∀ c ∈ gap, isGap c = true)
    (found : cursor.rest = gap ++ (token.written ++ rest)) (stops : Stops continuesToken rest) :
    ∃ after : Cursor, after.rest = rest ∧ cursor.feed.ending = after.feed.ending ∧
      cursor.feed.tokens.map (·.token) = token :: after.feed.tokens.map (·.token) := by
  obtain ⟨span, after, read, same⟩ :=
    next_written gap readable.spelled readable.notEnd blank found stops
  refine ⟨after, same, ?_⟩
  rw [feed_of_next read readable.notEnd]
  exact ⟨rfl, rfl⟩

theorem Cursor.feed_spacedOut (cursor : Cursor) {tokens : List Token} {rest : List Char}
    (readable : ∀ token ∈ tokens, token.Readable) (found : cursor.rest = spacedOut tokens ++ rest)
    (stops : Stops continuesToken rest) :
    ∃ after : Cursor, after.rest = rest ∧ cursor.feed.ending = after.feed.ending ∧
      cursor.feed.tokens.map (·.token) = tokens ++ after.feed.tokens.map (·.token) := by
  induction tokens generalizing cursor with
  | nil => exact ⟨cursor, found, rfl, rfl⟩
  | cons token tokens ih =>
    have behind : Stops continuesToken (spacedOut tokens ++ rest) := by
      cases tokens with
      | nil => exact stops
      | cons next tokens => exact stops_cons.mpr (by decide)
    have split : cursor.rest = [' '] ++ (token.written ++ (spacedOut tokens ++ rest)) := by
      simpa [spacedOut] using found
    obtain ⟨between, restBetween, ending, first⟩ := feed_written [' '] (readable token (.head _))
      (List.all_eq_true.mp (by decide)) split behind
    obtain ⟨after, restAfter, endingAfter, others⟩ :=
      ih between (fun other member => readable other (.tail _ member)) restBetween
    exact ⟨after, restAfter, ending.trans endingAfter, by rw [first, others, List.cons_append]⟩

/-- Every list of readable tokens that ends in a line end is the token list of some source. -/
theorem exists_feedOf {tokens : List Token} (readable : ∀ token ∈ tokens, token.Readable)
    (ended : tokens.getLast? = some .newline) :
    ∃ source offset, (feedOf source).tokens.map (·.token) = tokens ∧
      (feedOf source).ending = .endOfInput offset := by
  refine ⟨String.ofList (spacedOut tokens), ?_⟩
  have lastLine : (spacedOut tokens).getLast? = some '\n' := by
    obtain ⟨front, rfl⟩ := List.getLast?_eq_some_iff.mp ended
    simp [spacedOut]
  have text : endLine (String.ofList (spacedOut tokens)).toList = spacedOut tokens := by
    rw [String.toList_ofList, endLine, if_pos lastLine]
  obtain ⟨after, nothing, ending, read⟩ := (Cursor.start (endLine _)).feed_spacedOut readable
    (text.trans (List.append_nil _).symm) (stops_nil _)
  obtain ⟨offset, feed⟩ := Cursor.feed_of_rest_nil nothing
  rw [feed] at ending read
  exact ⟨offset, read.trans (List.append_nil _), ending⟩

/-- A source without a fault ends in a line end. -/
theorem getLast?_feedOf {source : String} {offset : Nat}
    (ending : (feedOf source).ending = .endOfInput offset) :
    ((feedOf source).tokens.map (·.token)).getLast? = some .newline := by
  refine Cursor.getLast?_feed _ ?_ ending
  change (endLine source.toList).getLast? = _
  unfold endLine
  split
  · assumption
  · simp

theorem ordered_feedOf (source : String) : (feedOf source).Ordered 0 :=
  (Cursor.start (endLine source.toList)).ordered_feed

end TeenyBasic
