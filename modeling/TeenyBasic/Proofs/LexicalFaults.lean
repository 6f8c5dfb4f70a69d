import Mathlib.Data.List.TakeWhile
import TeenyBasic.Proofs.Lookahead
import TeenyBasic.Proofs.MaximalMunch

/-!
What is no token. A text that cannot be read is a front that can, blanks, and after them one of five
offences (`Offends`). Which of the five it is and where it is shown is determined by the text from there
on (`Offends.unique`), and reading fails with just this fault (`tokenize_eq_error_iff_offends`).

Every text ends in a line feed, which ends strings, so neither a string nor an exclamation mark is ever
followed by the end of the text (`EndsLine.dropWhile_ne_nil`, `EndsLine.ne_nil_of_bang`).
-/

set_option autoImplicit false

namespace TeenyBasic

open Grammar

/-- From one place to the other the text is gaps and longest lexemes in turn. -/
inductive Lexed : Cursor → List Located → Cursor → Prop where
  | nothing (cursor : Cursor) : Lexed cursor [] cursor
  | token {cursor between after : Cursor} {gap : List Char} {located : Located}
      {others : List Located} :
      cursor.Takes gap located between → Lexed between others after →
      Lexed cursor (located :: others) after

/-- The text starts with something that is no token: the number and the fault it is reported with, and
the characters it is shown at, which stand behind the others. -/
inductive Offends : List Char → String → LexicalFault → List Char → List Char → Prop where
  /-- A character that starts neither a lexeme nor a gap. -/
  | unknown {c : Char} {rest : List Char} : (∀ kind more, ¬ Kind.Lexeme kind (c :: more)) →
      c ∉ [' ', '\t', '\r', '#'] → Offends (c :: rest) "E001" (.unknownCharacter c) [] [c]
  /-- An exclamation mark and something other than an equals sign. -/
  | bang {next : Char} {rest : List Char} : next ≠ '=' →
      Offends ('!' :: next :: rest) "E002" (.loneBang (some next)) [] ['!']
  /-- Digits and a point, and no digit after them. -/
  | fraction {digits rest : List Char} : Digits digits → Stops Char.isDigit rest →
      Offends (digits ++ '.' :: rest) "E025" .missingFraction [] (digits ++ ['.'])
  /-- A quote, and a line feed before anything that would end the string otherwise. -/
  | unterminated {body rest : List Char} : (∀ c ∈ body, c ∉ ['"', '\n', '\r', '\\', '%']) →
      Offends ('"' :: body ++ '\n' :: rest) "E010" .unterminatedString [] ('"' :: body)
  /-- A quote, and a character that no string holds before a quote or a line feed. -/
  | illegal {c : Char} {body rest : List Char} :
      (∀ c ∈ body, c ∉ ['"', '\n', '\r', '\\', '%']) → c ∈ ['\r', '\\', '%'] →
      Offends ('"' :: body ++ c :: rest) "E011" (.illegalInString c) ('"' :: body) [c]

/-! ## What is read of a lexed text -/

namespace Cursor

theorem Takes.passes {cursor after : Cursor} {gap : List Char} {located : Located}
    (takes : cursor.Takes gap located after) :
    cursor.Passes (gap ++ located.token.written) after where
  rest := by rw [takes.rest, List.append_assoc]
  offset := by
    rw [takes.offset, takes.stop, takes.start, Text.byteLength_append, Nat.add_assoc]

end Cursor

namespace Lexed

variable {cursor after : Cursor} {tokens : List Located}

private theorem exists_passes (lexed : Lexed cursor tokens after) :
    ∃ taken, cursor.Passes taken after := by
  induction lexed with
  | nothing cursor => exact ⟨[], rfl, rfl⟩
  | token takes _ ih =>
    obtain ⟨taken, passes⟩ := ih
    exact ⟨_, takes.passes.trans passes⟩

private theorem feed_eq (lexed : Lexed cursor tokens after) :
    cursor.feed = { tokens := tokens ++ after.feed.tokens, ending := after.feed.ending } := by
  induction lexed with
  | nothing cursor => rfl
  | token takes _ ih =>
    rw [Cursor.feed_of_next takes.next_eq takes.readable.notEnd, ih]
    rfl

end Lexed

/-! ## Characters that start no lexeme -/

private theorem Operator.exists_read?_of_head {op : Operator} {c : Char} {more : List Char}
    (spelled : op.spelling.toList = c :: more) (notBang : c ≠ '!') (rest : List Char) :
    ∃ found, Operator.read? (c :: rest) = some found := by
  have single : ∀ first : Operator, first.spelling.toList = [c] →
      ∃ found, Operator.read? (c :: rest) = some found := by
    intro first spelledFirst
    have read := first.isSome_read? rest
    rwa [spelledFirst] at read
  cases op with
  | assign => exact single .assign (by cases spelled; rfl)
  | sign sign => exact single (.sign sign) (by cases sign <;> cases spelled <;> rfl)
  | scaling scaling => exact single (.scaling scaling) (by cases scaling <;> cases spelled <;> rfl)
  | comparison comparison =>
    cases comparison with
    | equal => exact single .assign (by cases spelled; rfl)
    | notEqual =>
      cases spelled
      exact absurd rfl notBang
    | less => exact single (.comparison .less) (by cases spelled; rfl)
    | lessEqual => exact single (.comparison .less) (by cases spelled; rfl)
    | greater => exact single (.comparison .greater) (by cases spelled; rfl)
    | greaterEqual => exact single (.comparison .greater) (by cases spelled; rfl)

/-- A character that starts no lexeme is none of those that a token is told by. -/
theorem symbol_of_no_lexeme {c : Char} (noLexeme : ∀ kind more, ¬ Kind.Lexeme kind (c :: more)) :
    (!(c = '\n' || c = '"' || c.isDigit || c.isAlpha)) = true ∧ c ≠ '!' := by
  have notNewline : c ≠ '\n' := by
    intro same
    exact noLexeme .newline [] (same ▸ .newline)
  have notQuote : c ≠ '"' := by
    intro same
    exact noLexeme .string ['"'] (same ▸ @Kind.Lexeme.string [] (by simp))
  have notDigit : c.isDigit = false := by
    refine Bool.eq_false_iff.mpr fun digit => noLexeme .number [] (.whole ⟨by simp, ?_⟩)
    simpa using digit
  have notLetter : c.isAlpha = false := by
    refine Bool.eq_false_iff.mpr fun letter => ?_
    have letters : ∀ d ∈ [c], d.isAlpha = true := by simpa using letter
    cases found : Keyword.ofWord? (String.ofList [c]) with
    | none => exact noLexeme .name [] (.name (by simp) letters found)
    | some word => exact noLexeme (.keyword word) [] (.keyword letters found)
  refine ⟨by simp [notNewline, notQuote, notDigit, notLetter], fun same => ?_⟩
  exact noLexeme (.operator (.comparison .notEqual)) ['='] (same ▸ .operator _)

private theorem no_lexeme_of_symbol {c : Char} {rest : List Char}
    (symbol : (!(c = '\n' || c = '"' || c.isDigit || c.isAlpha)) = true) (notBang : c ≠ '!')
    (unread : Operator.read? (c :: rest) = none) (kind : Kind) (more : List Char) :
    ¬ Kind.Lexeme kind (c :: more) := by
  intro lexeme
  simp only [Bool.not_eq_true', Bool.or_eq_false_iff, decide_eq_false_iff_not] at symbol
  obtain ⟨⟨⟨notNewline, notQuote⟩, notDigit⟩, notLetter⟩ := symbol
  generalize written : c :: more = text at lexeme
  cases lexeme with
  | newline => exact notNewline (List.cons.inj written).1
  | whole isDigits =>
    have digit := isDigits.2 c (written ▸ .head _)
    rw [notDigit] at digit
    cases digit
  | pointed isWhole _ =>
    obtain ⟨d, others, rfl, digit⟩ := isWhole.exists_cons
    rw [← (List.cons.inj written).1, notDigit] at digit
    cases digit
  | name _ letters _ =>
    have letter := letters c (written ▸ .head _)
    rw [notLetter] at letter
    cases letter
  | keyword letters _ =>
    have letter := letters c (written ▸ .head _)
    rw [notLetter] at letter
    cases letter
  | string _ => exact notQuote (List.cons.inj written).1
  | operator op =>
    obtain ⟨found, read⟩ := Operator.exists_read?_of_head written.symm notBang rest
    rw [unread] at read
    cases read

/-! ## Offences and faults -/

theorem Offends.exists_split {text before blamed : List Char} {number : String} {fault : LexicalFault}
    (offends : Offends text number fault before blamed) :
    blamed ≠ [] ∧ ∃ rest, text = before ++ (blamed ++ rest) := by
  cases offends with
  | @unknown c rest => exact ⟨by simp, rest, rfl⟩
  | @bang next rest => exact ⟨by simp, next :: rest, rfl⟩
  | @fraction digits rest => exact ⟨by simp, rest, by simp⟩
  | @unterminated body rest => exact ⟨by simp, '\n' :: rest, by simp⟩
  | @illegal c body rest => exact ⟨by simp, rest, by simp⟩

private theorem Offends.number_eq {text before blamed : List Char} {number : String}
    {fault : LexicalFault}
    (offends : Offends text number fault before blamed) : number = fault.code.number := by
  cases offends <;> rfl

/-- The fault, shown at the characters that stand behind the others from the offset on. -/
def LexicalFault.shown (fault : LexicalFault) (offset : Nat) (before blamed : List Char) :
    LexicalError where
  fault := fault
  span :=
    { start := offset + Text.byteLength before
      stop := offset + Text.byteLength before + Text.byteLength blamed }

namespace Cursor

variable {cursor : Cursor} {text before blamed : List Char} {number : String} {fault : LexicalFault}

private theorem read?_of_no_lexeme {c : Char} {rest : List Char}
    (noLexeme : ∀ kind more, ¬ Kind.Lexeme kind (c :: more)) : Operator.read? (c :: rest) = none := by
  cases read : Operator.read? (c :: rest) with
  | none => rfl
  | some found =>
    obtain ⟨op, after⟩ := found
    have split := Operator.read?_split read
    obtain ⟨d, more, spelled, -⟩ := op.exists_symbol
    rw [spelled] at split
    obtain ⟨rfl, -⟩ := List.cons.inj split
    exact absurd (spelled ▸ Kind.Lexeme.operator op) (noLexeme _ more)

/-- A string is given up at the first character that does not go on with it and is no quote. -/
theorem readString_of_stopped (cursor : Cursor) {body : List Char} {c : Char} (rest : List Char)
    (legal : ∀ d ∈ body, isStringBody d = true) (stopped : isStringBody c = false)
    (notQuote : c ≠ '"') :
    cursor.readString (body ++ c :: rest) =
      if isIllegalInString c then
        (cursor.past ('"' :: body) (c :: rest)).reject (.illegalInString c)
          ((cursor.past ('"' :: body) (c :: rest)).past [c] rest) (cursor.past ('"' :: body) (c :: rest))
      else
        cursor.reject .unterminatedString (cursor.past ('"' :: body) (c :: rest))
          (cursor.past ('"' :: body) (c :: rest)) := by
  have stops : Stops isStringBody (c :: rest) := stops_cons.mpr stopped
  simp only [readString, skipWhile, rest_past, stops.takeWhile_append legal,
    stops.dropWhile_append legal, past_past, List.singleton_append]

theorem readToken_of_offends (cursor : Cursor) (found : cursor.rest = text)
    (offends : Offends text number fault before blamed) :
    ∃ after, cursor.readToken = (.error (fault.shown cursor.offset before blamed), after) := by
  cases offends with
  | @unknown c rest noLexeme _ =>
    obtain ⟨symbol, notBang⟩ := symbol_of_no_lexeme noLexeme
    rw [readToken_of_symbol found symbol, readOperator, found, read?_of_no_lexeme noLexeme]
    simp only [notBang, if_false]
    exact ⟨_, rfl⟩
  | @bang next rest notEquals =>
    have unread : Operator.read? ('!' :: next :: rest) = none := by
      unfold Operator.read?
      split <;> simp_all
    rw [readToken_of_symbol found (by decide), readOperator, found, unread]
    exact ⟨_, rfl⟩
  | @fraction digits rest isDigits stops =>
    obtain ⟨c, more, cons, digit⟩ := isDigits.exists_cons
    have point : Stops Char.isDigit ('.' :: rest) := stops_cons.mpr (by decide)
    have nothing : rest.takeWhile Char.isDigit = [] :=
      @Stops.takeWhile_append _ _ [] _ stops (by simp)
    rw [readToken_of_digit (found.trans (congrArg (· ++ '.' :: rest) cons)) digit]
    simp only [readNumber, skipWhile, found, point.takeWhile_append isDigits.2,
      point.dropWhile_append isDigits.2, rest_past, nothing, List.isEmpty_nil, if_true, past_past]
    exact ⟨_, rfl⟩
  | @unterminated body rest legal =>
    rw [List.cons_append] at found
    rw [readToken_of_quote found, readString_of_stopped cursor rest
      (fun c member => isStringBody_iff.mpr (legal c member)) (by decide) (by decide)]
    exact ⟨_, rfl⟩
  | @illegal c body rest legal illegal =>
    have isIllegal : isIllegalInString c = true := by simpa [isIllegalInString, or_assoc] using illegal
    have notQuote : c ≠ '"' := by
      intro same
      rw [same] at isIllegal
      cases isIllegal
    rw [List.cons_append] at found
    rw [readToken_of_quote found, readString_of_stopped cursor rest
      (fun c member => isStringBody_iff.mpr (legal c member)) (by simp [isStringBody, isIllegal])
      notQuote, if_pos isIllegal]
    exact ⟨_, rfl⟩

end Cursor

/-- An offence is determined by the text that it starts. -/
theorem Offends.unique {text before blamed front back : List Char} {number otherNumber : String}
    {fault other : LexicalFault} (first : Offends text number fault before blamed)
    (second : Offends text otherNumber other front back) :
    otherNumber = number ∧ other = fault ∧ front = before ∧ back = blamed := by
  obtain ⟨_, readFirst⟩ := Cursor.readToken_of_offends (Cursor.start text) rfl first
  obtain ⟨_, readSecond⟩ := Cursor.readToken_of_offends (Cursor.start text) rfl second
  have same := readSecond.symm.trans readFirst
  simp only [Prod.mk.injEq, Except.error.injEq, LexicalFault.shown, LexicalError.mk.injEq,
    Span.mk.injEq] at same
  obtain ⟨⟨sameFault, sameStart, sameStop⟩, -⟩ := same
  obtain ⟨-, restFirst, splitFirst⟩ := first.exists_split
  obtain ⟨-, restSecond, splitSecond⟩ := second.exists_split
  obtain ⟨rfl, sameRest⟩ :=
    Text.append_inj_of_byteLength (splitSecond.symm.trans splitFirst) (by omega)
  exact ⟨by rw [first.number_eq, second.number_eq, sameFault], sameFault, rfl,
    (Text.append_inj_of_byteLength sameRest (by omega)).1⟩

/-! ## The end of the text is not reached -/

theorem EndsLine.dropWhile_ne_nil {body : List Char} (ends : EndsLine ('"' :: body)) :
    body.dropWhile isStringBody ≠ [] := by
  intro nothing
  have legal := List.dropWhile_eq_nil_iff.mp nothing
  cases last : ('"' :: body).getLast? with
  | none => simp at last
  | some c =>
    obtain rfl := ends c last
    rcases List.mem_cons.mp (List.mem_of_getLast? last) with unequal | inside
    · cases unequal
    · cases legal _ inside

theorem EndsLine.ne_nil_of_bang {rest : List Char} (ends : EndsLine ('!' :: rest)) : rest ≠ [] := by
  intro nothing
  subst nothing
  cases ends '!' rfl

/-! ## From faults to offences -/

/-- Whether a gap starts with the character. -/
def startsGap (c : Char) : Bool :=
  isGap c || c = '#'

private theorem stops_of_takeWhile {p : Char → Bool} {rest : List Char}
    (nothing : rest.takeWhile p = []) : Stops p rest := by
  cases rest with
  | nil => exact stops_nil _
  | cons c rest =>
    refine stops_cons.mpr (Bool.eq_false_iff.mpr fun passes => ?_)
    rw [List.takeWhile_cons_of_pos passes] at nothing
    cases nothing

theorem stops_dropWhile (p : Char → Bool) (text : List Char) : Stops p (text.dropWhile p) := by
  intro c first
  have stopped := List.head?_dropWhile_not p text
  rw [first] at stopped
  simpa using stopped

namespace Cursor

variable {cursor after : Cursor} {error : LexicalError}

private theorem stops_skipGap (cursor : Cursor) : Stops startsGap cursor.skipGap.rest := by
  unfold skipGap
  dsimp only
  split
  · intro c first
    have stopped := stops_dropWhile (· != '\n') (cursor.skipWhile isGap).rest c first
    simp only [bne_eq_false_iff_eq] at stopped
    rw [stopped]
    rfl
  · rename_i noMark
    intro c first
    have notBlank := stops_dropWhile isGap cursor.rest c first
    have notMark : c ≠ '#' := fun same => noMark (same ▸ first)
    simp [startsGap, notBlank, notMark]

private theorem offends_of_readString {body : List Char} (found : cursor.rest = '"' :: body)
    (ends : EndsLine cursor.rest) (read : cursor.readString body = (.error error, after)) :
    ∃ before blamed, Offends cursor.rest error.fault.code.number error.fault before blamed ∧
      error = error.fault.shown cursor.offset before blamed := by
  rw [found] at ends ⊢
  obtain ⟨c, rest, stopsAt⟩ := List.exists_cons_of_ne_nil ends.dropWhile_ne_nil
  have legal : ∀ d ∈ body.takeWhile isStringBody, isStringBody d = true :=
    fun _ member => isTrue_of_mem_takeWhile member
  have stopped : isStringBody c = false := stops_dropWhile isStringBody body c (by rw [stopsAt]; rfl)
  have split : body = body.takeWhile isStringBody ++ c :: rest := by
    rw [← stopsAt, List.takeWhile_append_dropWhile]
  generalize body.takeWhile isStringBody = plain at legal split
  subst split
  have plainLegal : ∀ d ∈ plain, d ∉ ['"', '\n', '\r', '\\', '%'] :=
    fun d member => isStringBody_iff.mp (legal d member)
  by_cases quote : c = '"'
  · rw [quote, readString_of_rest cursor rest legal] at read
    cases read
  rw [readString_of_stopped cursor rest legal stopped quote] at read
  by_cases illegal : isIllegalInString c = true
  · rw [if_pos illegal] at read
    cases read
    exact ⟨_, _, .illegal plainLegal (by simpa [isIllegalInString, or_assoc] using illegal), rfl⟩
  · rw [if_neg illegal] at read
    cases read
    have lineFeed : c = '\n' := by simpa [isStringBody, quote, illegal] using stopped
    subst lineFeed
    exact ⟨_, _, .unterminated plainLegal, rfl⟩

private theorem offends_of_readNumber {c : Char} {rest : List Char} (found : cursor.rest = c :: rest)
    (digit : c.isDigit = true) (read : cursor.readNumber = (.error error, after)) :
    ∃ before blamed, Offends cursor.rest error.fault.code.number error.fault before blamed ∧
      error = error.fault.shown cursor.offset before blamed := by
  have whole : Digits (cursor.rest.takeWhile Char.isDigit) := by
    rw [found]
    exact digits_takeWhile digit
  unfold readNumber at read
  dsimp only at read
  split at read
  · rename_i behind point
    split at read
    · rename_i noFraction
      cases read
      have split : cursor.rest = cursor.rest.takeWhile Char.isDigit ++ '.' :: behind :=
        (passes_skipWhile Char.isDigit cursor).rest.trans (congrArg _ point)
      have offends := Offends.fraction whole (stops_of_takeWhile (List.isEmpty_iff.mp noFraction))
      rw [← split] at offends
      exact ⟨_, _, offends, by simp [LexicalFault.shown, spanTo, past, skipWhile, Nat.add_assoc]⟩
    · cases read
  · cases read

private theorem offends_of_readOperator {c : Char} {rest : List Char} (found : cursor.rest = c :: rest)
    (ends : EndsLine cursor.rest) (notGap : startsGap c = false)
    (symbol : (!(c = '\n' || c = '"' || c.isDigit || c.isAlpha)) = true)
    (read : cursor.readOperator c rest = (.error error, after)) :
    ∃ before blamed, Offends cursor.rest error.fault.code.number error.fault before blamed ∧
      error = error.fault.shown cursor.offset before blamed := by
  unfold readOperator at read
  rw [found] at read ends ⊢
  split at read
  · cases read
  · rename_i unread
    cases read
    by_cases isBang : c = '!'
    · subst isBang
      obtain ⟨next, more, rfl⟩ := List.exists_cons_of_ne_nil ends.ne_nil_of_bang
      have notEquals : next ≠ '=' := by
        intro same
        subst same
        cases unread
      exact ⟨_, _, .bang notEquals, rfl⟩
    · have notBlank : c ∉ [' ', '\t', '\r', '#'] := by
        simpa [startsGap, isGap, and_assoc] using notGap
      have offends : Offends (c :: rest) "E001" (.unknownCharacter c) [] [c] :=
        .unknown (no_lexeme_of_symbol symbol isBang unread) notBlank
      simp only [if_neg isBang]
      exact ⟨_, _, offends, rfl⟩

private theorem offends_of_readToken (read : cursor.readToken = (.error error, after))
    (ends : EndsLine cursor.rest) (notGap : Stops startsGap cursor.rest) :
    '\n' ∉ cursor.rest.head? ∧ ∃ before blamed, Offends cursor.rest error.fault.code.number error.fault before blamed ∧
      error = error.fault.shown cursor.offset before blamed := by
  unfold readToken at read
  split at read
  · cases read
  rename_i c rest found
  split at read
  · cases read
  rename_i notNewline
  refine ⟨by simpa [found] using notNewline, ?_⟩
  split at read
  · rename_i quote
    subst quote
    exact offends_of_readString found ends read
  rename_i notQuote
  split at read
  · rename_i digit
    exact offends_of_readNumber found digit read
  rename_i notDigit
  split at read
  · cases read
  rename_i notLetter
  refine offends_of_readOperator found ends (notGap c (by rw [found]; rfl)) ?_ read
  simp [notNewline, notQuote, notDigit, notLetter]

end Cursor

/-! ## Texts with a fault -/

theorem Offends.exists_cons {text before blamed : List Char} {number : String} {fault : LexicalFault}
    (offends : Offends text number fault before blamed) :
    ∃ c more, text = c :: more ∧ isGap c = false ∧ c ≠ '#' := by
  cases offends with
  | @unknown c rest _ notGap =>
    have apart : (isGap c = false) ∧ c ≠ '#' := by simpa [isGap, and_assoc] using notGap
    exact ⟨c, rest, rfl, apart⟩
  | @bang next rest => exact ⟨'!', next :: rest, rfl, by decide, by decide⟩
  | @fraction digits rest isDigits =>
    obtain ⟨c, more, rfl, digit⟩ := isDigits.exists_cons
    exact ⟨c, _, rfl, isGap_of_isDigit digit⟩
  | @unterminated body rest => exact ⟨'"', _, rfl, by decide, by decide⟩
  | @illegal c body rest => exact ⟨'"', _, rfl, by decide, by decide⟩

namespace Cursor

variable {cursor : Cursor} {error : LexicalError}

private theorem feed_of_fault {after : Cursor} (read : cursor.next = (.error error, after)) :
    cursor.feed = { tokens := [], ending := .fault error } := by
  rw [Cursor.feed]
  split
  · rename_i found
    rw [read] at found
    cases found
    rfl
  · rename_i found
    rw [read] at found
    cases found

/-- A gap before an offence is blank: a comment would go on up to the line feed. -/
theorem exists_offends_of_next {after : Cursor} (read : cursor.next = (.error error, after))
    (ends : EndsLine cursor.rest) :
    ∃ gap offending before blamed, cursor.rest = gap ++ offending ∧
      (∀ c ∈ gap, c ∈ [' ', '\t', '\r']) ∧ Offends offending error.fault.code.number error.fault before blamed ∧
      error = error.fault.shown (cursor.offset + Text.byteLength gap) before blamed := by
  obtain ⟨gap, isGap, passes, comment⟩ := exists_gap cursor
  have endsBehind : EndsLine cursor.skipGap.rest := by
    rw [passes.rest] at ends
    exact ends.of_append
  obtain ⟨notNewline, before, blamed, offends, shown⟩ :=
    offends_of_readToken read endsBehind (stops_skipGap cursor)
  refine ⟨gap, cursor.skipGap.rest, before, blamed, passes.rest, ?_, offends, passes.offset ▸ shown⟩
  cases isGap with
  | blank blank => exact blank
  | comment _ _ =>
    obtain ⟨c, more, found, -⟩ := offends.exists_cons
    have stopped := comment (by simp) c (by rw [found]; rfl)
    simp only [bne_eq_false_iff_eq] at stopped
    rw [found, stopped] at notNewline
    exact absurd rfl notNewline

private theorem next_of_offends (cursor : Cursor) {gap offending before blamed : List Char}
    {number : String} {fault : LexicalFault}
    (found : cursor.rest = gap ++ offending) (blank : ∀ c ∈ gap, c ∈ [' ', '\t', '\r'])
    (offends : Offends offending number fault before blamed) :
    ∃ after, cursor.next =
      (.error (fault.shown (cursor.offset + Text.byteLength gap) before blamed), after) := by
  obtain ⟨c, more, rfl, notBlank, notComment⟩ := offends.exists_cons
  have noMark : '#' ∈ gap → c = '\n' := fun mark => absurd (blank _ mark) (by decide)
  rw [next, skipGap_of_gap (.blank blank) noMark found notBlank notComment]
  exact readToken_of_offends _ rfl offends

/-- The induction is that of the reader: tokens are taken until one cannot be read. -/
theorem exists_lexed_of_fault (cursor : Cursor) (ends : EndsLine cursor.rest)
    (fault : cursor.feed.ending = .fault error) :
    ∃ tokens here gap offending before blamed, Lexed cursor tokens here ∧
      here.rest = gap ++ offending ∧ (∀ c ∈ gap, c ∈ [' ', '\t', '\r']) ∧
      Offends offending error.fault.code.number error.fault before blamed ∧
      error = error.fault.shown (here.offset + Text.byteLength gap) before blamed := by
  fun_induction Cursor.feed cursor with
  | case1 cursor found after read =>
    cases fault
    obtain ⟨gap, offending, before, blamed, offence⟩ := exists_offends_of_next read ends
    exact ⟨[], cursor, gap, offending, before, blamed, .nothing cursor, offence⟩
  | case2 => cases fault
  | case3 cursor located after read notEnd others ih =>
    obtain ⟨gap, takes⟩ := takes_of_next read notEnd
    have endsAfter : EndsLine after.rest := by
      rw [takes.passes.rest] at ends
      exact ends.of_append
    obtain ⟨tokens, here, last, offending, before, blamed, lexed, offence⟩ := ih endsAfter fault
    exact ⟨located :: tokens, here, last, offending, before, blamed, .token takes lexed, offence⟩

end Cursor

/-- The text is a front that is gaps and longest lexemes in turn, blanks, and an offence, which the error
is shown at. -/
structure Broken (text : List Char) (error : LexicalError)
    (front gap offending before blamed : List Char) : Prop where
  split : text = front ++ (gap ++ offending)
  lexed : ∃ tokens, Lexed (.start text) tokens ⟨Text.byteLength front, gap ++ offending⟩
  blank : ∀ c ∈ gap, c ∈ [' ', '\t', '\r']
  offends : Offends offending error.failure.diagnostic.code.number error.fault before blamed
  span : error.span =
    { start := Text.byteLength (front ++ gap ++ before)
      stop := Text.byteLength (front ++ gap ++ before ++ blamed) }

namespace Broken

variable {text front gap offending before blamed : List Char} {error : LexicalError}

private theorem feed_ending (broken : Broken text error front gap offending before blamed) :
    (Cursor.start text).feed.ending = .fault error := by
  obtain ⟨tokens, reaches⟩ := broken.lexed
  obtain ⟨after, read⟩ := Cursor.next_of_offends ⟨Text.byteLength front, gap ++ offending⟩ rfl
    broken.blank broken.offends
  have shown : error.fault.shown (Text.byteLength front + Text.byteLength gap) before blamed = error := by
    obtain ⟨fault, span⟩ := error
    have sameSpan : span = _ := broken.span
    simp [LexicalFault.shown, sameSpan, Nat.add_assoc]
  rw [reaches.feed_eq, Cursor.feed_of_fault read, shown]

theorem exists_rest (broken : Broken text error front gap offending before blamed) :
    blamed ≠ [] ∧ ∃ rest, text = front ++ gap ++ before ++ (blamed ++ rest) := by
  obtain ⟨nonempty, rest, split⟩ := broken.offends.exists_split
  refine ⟨nonempty, rest, ?_⟩
  rw [broken.split, split]
  simp

private theorem whole_characters (broken : Broken text error front gap offending before blamed) :
    error.span.start < error.span.stop ∧ error.span.stop ≤ Text.byteLength text ∧
      Text.IsBoundary text error.span.start ∧ Text.IsBoundary text error.span.stop := by
  obtain ⟨nonempty, rest, split⟩ := broken.exists_rest
  rw [broken.span]
  refine ⟨?_, ?_, ⟨_, _, split, rfl⟩, _, rest, by simpa using split, rfl⟩
  · rw [Text.byteLength_append _ blamed]
    exact Nat.lt_add_of_pos_right (Text.byteLength_pos nonempty)
  · rw [split, ← List.append_assoc, Text.byteLength_append _ rest]
    exact Nat.le_add_right _ _

end Broken

theorem tokenize_eq_error_iff_broken {source : String} {error : LexicalError} :
    tokenize source = .error error ↔
      ∃ front gap offending before blamed,
        Broken (endLine source.toList) error front gap offending before blamed := by
  rw [tokenize_eq_error]
  constructor
  · intro fault
    obtain ⟨tokens, here, gap, offending, before, blamed, lexed, split, blank, offends, shown⟩ :=
      (Cursor.start (endLine source.toList)).exists_lexed_of_fault (endsLine_endLine _) fault
    obtain ⟨taken, passes⟩ := lexed.exists_passes
    have offset : here.offset = Text.byteLength taken := by
      rw [passes.offset]
      exact Nat.zero_add _
    have place : here = ⟨Text.byteLength taken, gap ++ offending⟩ := by
      rw [← offset, ← split]
    refine ⟨taken, gap, offending, before, blamed, split ▸ passes.rest, ⟨tokens, place ▸ lexed⟩, blank,
      offends, ?_⟩
    rw [shown, offset]
    simp [LexicalFault.shown, Nat.add_assoc]
  · intro found
    obtain ⟨front, gap, offending, before, blamed, broken⟩ := found
    exact broken.feed_ending

/-- A source cannot be read just when it is gaps and longest lexemes so far and goes on, behind blanks,
with an offence, whose number is reported. There is only one that fits, and the error is shown at one or
more whole characters of the text. Wherever a quote or an exclamation mark stands, the text does not end
before the string does or right after the mark. -/
theorem tokenize_eq_error_iff_offends (source : String) :
    (∀ error, tokenize source = .error error ↔
      ∃ front gap offending before blamed,
        Broken (endLine source.toList) error front gap offending before blamed ∧
        ∀ number fault otherBefore otherBlamed,
          Offends offending number fault otherBefore otherBlamed →
          number = error.failure.diagnostic.code.number ∧ fault = error.fault ∧
            otherBefore = before ∧ otherBlamed = blamed) ∧
    (∀ error, tokenize source = .error error →
      error.span.start < error.span.stop ∧
      error.span.stop ≤ Text.byteLength (endLine source.toList) ∧
      Text.IsBoundary (endLine source.toList) error.span.start ∧
      Text.IsBoundary (endLine source.toList) error.span.stop) ∧
    ∀ front cursor, (Cursor.start (endLine source.toList)).Passes front cursor →
      (∀ body, cursor.rest = '"' :: body →
        ((cursor.past ['"'] body).skipWhile isStringBody).rest ≠ []) ∧
      ∀ rest, cursor.rest = '!' :: rest → rest ≠ [] := by
  refine ⟨fun error => ?_, fun error failed => ?_, fun front cursor passes => ?_⟩
  · rw [tokenize_eq_error_iff_broken]
    constructor
    · intro found
      obtain ⟨front, gap, offending, before, blamed, broken⟩ := found
      exact ⟨front, gap, offending, before, blamed, broken, fun _ _ _ _ => broken.offends.unique⟩
    · intro found
      obtain ⟨front, gap, offending, before, blamed, broken, -⟩ := found
      exact ⟨front, gap, offending, before, blamed, broken⟩
  · obtain ⟨front, gap, offending, before, blamed, broken⟩ := tokenize_eq_error_iff_broken.mp failed
    exact broken.whole_characters
  · have ends : EndsLine cursor.rest := by
      have whole := endsLine_endLine source.toList
      rw [show endLine source.toList = front ++ cursor.rest from passes.rest] at whole
      exact whole.of_append
    refine ⟨fun body quote => ?_, fun rest bang => ?_⟩
    · rw [quote] at ends
      exact ends.dropWhile_ne_nil
    · rw [bang] at ends
      exact ends.ne_nil_of_bang

end TeenyBasic
