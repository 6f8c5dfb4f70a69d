import TeenyBasic.Proofs.Decoding

/-!
Lexemes and gaps. A readable token is written as a lexeme of its kind, and what is read from a text is
the longest lexeme that stands there (`Cursor.length_le_readToken`). Conversely a lexeme that no longer
one covers is read, unless a point follows it (`Cursor.readToken_of_longest`): a number and a point
without a digit after it are a fault and not a shorter number.
-/

set_option autoImplicit false

namespace TeenyBasic

open Grammar

/-! ## Slices -/

namespace Text

/-- The characters of a text at a span. -/
def slice (text : List Char) (span : Span) : List Char :=
  (splitAtByte (splitAtByte text span.start).2 (span.stop - span.start)).1

/-- The offset does not fall inside a character. -/
def IsBoundary (text : List Char) (offset : Nat) : Prop :=
  ∃ front back, text = front ++ back ∧ byteLength front = offset

theorem bne_of_notMem {mark : Char} {text : List Char} (absent : mark ∉ text) :
    ∀ c ∈ text, (c != mark) = true :=
  fun _ member => bne_iff_ne.mpr fun same => absent (same ▸ member)

theorem splitAtByte_byteLength (front back : List Char) :
    splitAtByte (front ++ back) (byteLength front) = (front, back) := by
  induction front with
  | nil =>
    cases back with
    | nil => rfl
    | cons c back =>
      have positive := Char.utf8Size_pos c
      simp only [List.nil_append, byteLength_nil, splitAtByte]
      rw [if_neg (by omega)]
  | cons c front ih => simp [splitAtByte, ih]

theorem splitAtByte_of_le {text : List Char} {offset : Nat} (beyond : byteLength text ≤ offset) :
    splitAtByte text offset = (text, []) := by
  induction text generalizing offset with
  | nil => rfl
  | cons c text ih =>
    rw [byteLength_cons] at beyond
    rw [splitAtByte, if_pos (by omega), ih (by omega)]

theorem slice_append (front middle back : List Char) {span : Span}
    (start : span.start = byteLength front)
    (stop : span.stop = byteLength front + byteLength middle) :
    slice (front ++ (middle ++ back)) span = middle := by
  rw [slice, start, splitAtByte_byteLength, stop, Nat.add_sub_cancel_left, splitAtByte_byteLength]

theorem eq_nil_of_byteLength {text : List Char} (nothing : byteLength text = 0) : text = [] := by
  cases text with
  | nil => rfl
  | cons c text =>
    have positive := Char.utf8Size_pos c
    simp only [byteLength_cons] at nothing
    omega

theorem byteLength_pos {text : List Char} (nonempty : text ≠ []) : 0 < byteLength text :=
  Nat.pos_of_ne_zero fun nothing => nonempty (eq_nil_of_byteLength nothing)

theorem isPrefix_of_byteLength_le {front back first second : List Char}
    (same : front ++ back = first ++ second) (shorter : byteLength front ≤ byteLength first) :
    ∃ middle, first = front ++ middle ∧ back = middle ++ second := by
  rcases List.append_eq_append_iff.mp same with ⟨middle, rfl, rfl⟩ | ⟨middle, rfl, rfl⟩
  · exact ⟨middle, rfl, rfl⟩
  · rw [byteLength_append] at shorter
    obtain rfl := eq_nil_of_byteLength (show byteLength middle = 0 by omega)
    exact ⟨[], by simp, rfl⟩

theorem append_inj_of_byteLength {front back first second : List Char}
    (same : front ++ back = first ++ second) (lengths : byteLength front = byteLength first) :
    front = first ∧ back = second := by
  obtain ⟨middle, rfl, rfl⟩ := isPrefix_of_byteLength_le same (Nat.le_of_eq lengths)
  rw [byteLength_append] at lengths
  obtain rfl := eq_nil_of_byteLength (show byteLength middle = 0 by omega)
  exact ⟨(List.append_nil _).symm, rfl⟩

/-- Behind a boundary a text splits at every later boundary. -/
theorem IsBoundary.split {front rest : List Char} {offset : Nat}
    (boundary : IsBoundary (front ++ rest) offset) (later : byteLength front ≤ offset) :
    ∃ middle back, rest = middle ++ back ∧ offset = byteLength front + byteLength middle := by
  obtain ⟨first, second, same, rfl⟩ := boundary
  obtain ⟨middle, rfl, rfl⟩ := isPrefix_of_byteLength_le same later
  exact ⟨middle, second, rfl, byteLength_append front middle⟩

end Text

/-! ## Lexemes and gaps -/

/-- What a token of the kind may be written as. -/
inductive Kind.Lexeme : Kind → List Char → Prop where
  | newline : Lexeme .newline ['\n']
  | whole {digits : List Char} : Digits digits → Lexeme .number digits
  | pointed {whole fraction : List Char} : Digits whole → Digits fraction →
      Lexeme .number (whole ++ '.' :: fraction)
  | name {word : List Char} : word ≠ [] → (∀ c ∈ word, c.isAlpha = true) →
      Keyword.ofWord? (String.ofList word) = none → Lexeme .name word
  | keyword {word : List Char} {keyword : Keyword} : (∀ c ∈ word, c.isAlpha = true) →
      Keyword.ofWord? (String.ofList word) = some keyword → Lexeme (.keyword keyword) word
  | string {body : List Char} : (∀ c ∈ body, c ∉ ['"', '\n', '\r', '\\', '%']) →
      Lexeme .string ('"' :: body ++ ['"'])
  | operator (op : Operator) : Lexeme (.operator op) op.spelling.toList

/-- Whether tokens of this kind are runs of letters. -/
def Kind.isWord : Kind → Bool
  | name | keyword _ => true
  | _ => false

/-- What may stand between two tokens: blanks, and after them a comment or nothing. -/
inductive Gap : List Char → Prop where
  | blank {blanks : List Char} : (∀ c ∈ blanks, c ∈ [' ', '\t', '\r']) → Gap blanks
  | comment {blanks text : List Char} : (∀ c ∈ blanks, c ∈ [' ', '\t', '\r']) → '\n' ∉ text →
      Gap (blanks ++ '#' :: text)

/-! ## Readable tokens -/

theorem isStringBody_iff {c : Char} :
    isStringBody c = true ↔ c ∉ ['"', '\n', '\r', '\\', '%'] := by
  simp [isStringBody, isIllegalInString, and_assoc]

private theorem letters_of_ofWord? {word : List Char} {keyword : Keyword}
    (found : Keyword.ofWord? (String.ofList word) = some keyword) :
    word = keyword.spelling.toList := by
  have spelled := List.find?_some found
  rw [beq_iff_eq] at spelled
  rw [spelled, String.toList_ofList]

theorem Token.written_number (digits : List Char) :
    (Token.number (String.ofList digits)).written = digits := String.toList_ofList

theorem Token.Readable.lexeme {token : Token} (readable : token.Readable) :
    token.kind.Lexeme token.written := by
  cases token with
  | endOfInput => exact absurd rfl readable.notEnd
  | newline =>
    rw [Token.written_newline]
    exact .newline
  | number digits =>
    cases (readable.spelled : Numeral digits) with
    | whole isDigits =>
      rw [Token.written_number]
      exact .whole isDigits
    | pointed isWhole isFraction =>
      rw [Token.written_number]
      exact .pointed isWhole isFraction
  | name text =>
    have isName : Name text := readable.spelled
    refine .name isName.nonempty isName.letters ?_
    change Keyword.ofWord? (String.ofList text.toList) = none
    rw [String.ofList_toList]
    exact isName.notKeyword
  | string body => exact .string fun c member => isStringBody_iff.mp (readable.spelled c member)
  | keyword word =>
    refine .keyword word.isAlpha_spelling ?_
    change Keyword.ofWord? (String.ofList word.spelling.toList) = some word
    rw [String.ofList_toList]
    exact word.ofWord?_spelling
  | operator op => exact .operator op

/-- Every lexeme is what some readable token of its kind is written as. -/
theorem Kind.Lexeme.exists_readable {kind : Kind} {text : List Char} (lexeme : kind.Lexeme text) :
    ∃ token : Token, token.Readable ∧ token.kind = kind ∧ token.written = text := by
  cases lexeme with
  | newline => exact ⟨.newline, Token.readable_newline, rfl, Token.written_newline⟩
  | whole isDigits =>
    exact ⟨.number (String.ofList text), ⟨.whole isDigits, by simp⟩, rfl, String.toList_ofList⟩
  | pointed isWhole isFraction =>
    exact ⟨.number (String.ofList _), ⟨.pointed isWhole isFraction, by simp⟩, rfl,
      String.toList_ofList⟩
  | name nonempty letters notKeyword =>
    refine ⟨.name (String.ofList text), ⟨⟨?_, ?_, notKeyword⟩, by simp⟩, rfl, String.toList_ofList⟩
    · rwa [String.toList_ofList]
    · rwa [String.toList_ofList]
  | keyword _ found =>
    exact ⟨.keyword _, Token.readable_keyword _, rfl, (letters_of_ofWord? found).symm⟩
  | @string body legal =>
    refine ⟨.string (String.ofList body), ⟨?_, by simp⟩, rfl, by simp [Token.written]⟩
    intro c member
    rw [String.toList_ofList] at member
    exact isStringBody_iff.mpr (legal c member)
  | operator op => exact ⟨.operator op, Token.readable_operator op, rfl, rfl⟩

/-- A readable token is determined by what it is written as. -/
theorem Token.Readable.written_inj {first second : Token} (firstReadable : first.Readable)
    (secondReadable : second.Readable) (same : first.written = second.written) : first = second := by
  let cursor := Cursor.start first.written
  have readFirst : cursor.readToken = cursor.accept first (cursor.past first.written []) :=
    Cursor.readToken_written firstReadable.spelled firstReadable.notEnd (List.append_nil _).symm
      (stops_nil _)
  have readSecond : cursor.readToken = cursor.accept second (cursor.past second.written []) :=
    Cursor.readToken_written secondReadable.spelled secondReadable.notEnd
      (same.trans (List.append_nil _).symm) (stops_nil _)
  have equal := readFirst.symm.trans readSecond
  simp only [Cursor.accept, Prod.mk.injEq, Except.ok.injEq, Located.mk.injEq] at equal
  exact equal.1.1

/-- A token of a lexeme's kind that is written as the lexeme is readable. -/
theorem Token.readable_of_lexeme {token : Token} (lexeme : token.kind.Lexeme token.written) :
    token.Readable := by
  obtain ⟨other, readable, sameKind, sameWritten⟩ := lexeme.exists_readable
  have sameText : other.text = token.text := by
    cases token <;> cases other <;>
      simp_all [Token.kind, Token.written, Token.text, String.toList_inj]
  rwa [← Token.eq_of_kind_of_text sameKind sameText]

/-! ## The longest lexeme -/

theorem length_le_takeWhile {p : Char → Bool} {front : List Char} (back : List Char)
    (inside : ∀ c ∈ front, p c = true) : front.length ≤ ((front ++ back).takeWhile p).length := by
  rw [List.takeWhile_append_of_pos inside, List.length_append]
  exact Nat.le_add_right _ _

/-- An operator of one character is read where an operator stands; one of two characters is read
whatever follows. -/
theorem Operator.length_spelling_le_of_read? {op found : Operator} {back rest : List Char}
    (read : Operator.read? (op.spelling.toList ++ back) = some (found, rest)) :
    op.spelling.toList.length ≤ found.spelling.toList.length := by
  have positive : 0 < found.spelling.toList.length := by
    obtain ⟨c, more, cons, -⟩ := found.exists_symbol
    simp [cons]
  cases op with
  | assign => exact positive
  | sign sign => cases sign <;> exact positive
  | scaling scaling => cases scaling <;> exact positive
  | comparison comparison =>
    cases comparison with
    | less => exact positive
    | greater => exact positive
    | equal =>
      cases read
      exact Nat.le_refl _
    | notEqual =>
      cases read
      exact Nat.le_refl _
    | lessEqual =>
      cases read
      exact Nat.le_refl _
    | greaterEqual =>
      cases read
      exact Nat.le_refl _

theorem Operator.isSome_read? (op : Operator) (back : List Char) :
    ∃ found, Operator.read? (op.spelling.toList ++ back) = some found := by
  cases op with
  | assign =>
    change ∃ found, Operator.read? ('=' :: back) = some found
    unfold Operator.read?
    split <;> first | exact ⟨_, rfl⟩ | simp_all
  | sign sign => cases sign <;> exact ⟨_, rfl⟩
  | scaling scaling => cases scaling <;> exact ⟨_, rfl⟩
  | comparison comparison =>
    cases comparison with
    | less =>
      change ∃ found, Operator.read? ('<' :: back) = some found
      unfold Operator.read?
      split <;> first | exact ⟨_, rfl⟩ | simp_all
    | greater =>
      change ∃ found, Operator.read? ('>' :: back) = some found
      unfold Operator.read?
      split <;> first | exact ⟨_, rfl⟩ | simp_all
    | _ => exact ⟨_, rfl⟩

theorem Operator.isAlpha_spelling (op : Operator) :
    ∀ c ∈ op.spelling.toList, c.isAlpha = false := by
  have noLetter : op.spelling.toList.any Char.isAlpha = false := by
    cases op with
    | assign => decide
    | sign sign => cases sign <;> decide
    | scaling scaling => cases scaling <;> decide
    | comparison comparison => cases comparison <;> decide
  intro c member
  exact Bool.eq_false_iff.mpr (List.any_eq_false.mp noLetter c member)

namespace Cursor

variable {cursor after : Cursor} {located : Located} {other : Token} {back : List Char}

/-- A number with a fraction is read with all the digits that follow. -/
theorem readNumber_of_pointed {whole fraction : List Char} (isWhole : Digits whole)
    (isFraction : Digits fraction)
    (found : cursor.rest = whole ++ '.' :: fraction ++ back) :
    ∃ located after, cursor.readNumber = (.ok located, after) ∧
      (whole ++ '.' :: fraction).length ≤ located.token.written.length := by
  rw [List.append_assoc, List.cons_append] at found
  have inside := length_le_takeWhile back isFraction.2
  have point : Stops Char.isDigit ('.' :: (fraction ++ back)) := stops_cons.mpr (by decide)
  have nonempty : ((fraction ++ back).takeWhile Char.isDigit).isEmpty = false := by
    rw [List.isEmpty_eq_false_iff, ← List.length_pos_iff]
    exact Nat.lt_of_lt_of_le (List.length_pos_iff.mpr isFraction.1) inside
  simp only [readNumber, skipWhile, found, point.takeWhile_append isWhole.2,
    point.dropWhile_append isWhole.2, rest_past, nonempty, Bool.false_eq_true, if_false]
  refine ⟨_, _, rfl, ?_⟩
  simpa [Token.written, Token.text] using inside

private theorem length_le_readNumber {digits : String} (numeral : Numeral digits)
    (found : cursor.rest = digits.toList ++ back) (read : cursor.readNumber = (.ok located, after)) :
    digits.toList.length ≤ located.token.written.length := by
  cases numeral with
  | @whole ds isDigits =>
    rw [String.toList_ofList] at found ⊢
    have inside := length_le_takeWhile back isDigits.2
    rw [← found] at inside
    unfold readNumber at read
    dsimp only at read
    split at read
    · split at read
      · cases read
      · cases read
        simp only [Token.written, Token.text, String.toList_ofList, List.length_append]
        omega
    · cases read
      simpa [Token.written, Token.text] using inside
  | pointed isWhole isFraction =>
    rw [String.toList_ofList] at found ⊢
    obtain ⟨found', after', read', longer⟩ := readNumber_of_pointed isWhole isFraction found
    rw [read] at read'
    cases read'
    exact longer

private theorem length_le_readWord {word : List Char} (letters : ∀ c ∈ word, c.isAlpha = true)
    (found : cursor.rest = word ++ back) (read : cursor.readWord = (.ok located, after)) :
    word.length ≤ located.token.written.length := by
  cases read
  rw [Token.written_ofWord, found]
  exact length_le_takeWhile back letters

/-- What is read is at least as long as any lexeme at its place. -/
theorem length_le_readToken (read : cursor.readToken = (.ok located, after))
    (readable : other.Readable) (found : cursor.rest = other.written ++ back) :
    other.written.length ≤ located.token.written.length := by
  cases other with
  | endOfInput => exact absurd rfl readable.notEnd
  | newline =>
    rw [Token.written_newline] at found
    simp only [readToken, found, List.singleton_append, if_true] at read
    cases read
    exact Nat.le_refl _
  | string body =>
    have quoted : cursor.rest = '"' :: (body.toList ++ '"' :: back) := by
      simpa [Token.written] using found
    rw [readToken_of_quote quoted, readString_of_rest cursor back readable.spelled] at read
    cases read
    simp only [String.ofList_toList, Nat.le_refl]
  | number digits =>
    rw [readToken_of_numeral readable.spelled found] at read
    exact length_le_readNumber readable.spelled found read
  | name text =>
    have isName : Name text := readable.spelled
    rw [readToken_of_word isName.nonempty isName.letters found] at read
    exact length_le_readWord isName.letters found read
  | keyword word =>
    rw [readToken_of_word word.spelling_ne_nil word.isAlpha_spelling found] at read
    exact length_le_readWord word.isAlpha_spelling found read
  | operator op =>
    obtain ⟨c, more, dispatched⟩ := readToken_of_operator op found
    rw [dispatched, readOperator] at read
    split at read
    · rename_i op' rest readOperator
      cases read
      rw [found] at readOperator
      exact Operator.length_spelling_le_of_read? readOperator
    · cases read

end Cursor

/-- No readable token is written as a longer front of the text that starts with the token. -/
def Token.LongestBefore (token : Token) (rest : List Char) : Prop :=
  ∀ other : Token, other.Readable → ∀ back, token.written ++ rest = other.written ++ back →
    other.written.length ≤ token.written.length

private theorem Token.LongestBefore.stops_digit {digits rest : List Char} (isDigits : Digits digits)
    (longest : (Token.number (String.ofList digits)).LongestBefore rest) :
    Stops Char.isDigit rest := by
  cases rest with
  | nil => exact stops_nil _
  | cons d rest =>
    refine stops_cons.mpr (Bool.eq_false_iff.mpr fun digit => ?_)
    have longer : Digits (digits ++ [d]) := by
      refine ⟨by simp, ?_⟩
      simpa [or_imp, forall_and] using ⟨isDigits.2, digit⟩
    have shorter := longest (.number (String.ofList (digits ++ [d]))) ⟨.whole longer, by simp⟩ rest
      (by rw [Token.written_number, Token.written_number, List.append_cons])
    simp only [Token.written_number, List.length_append, List.length_singleton] at shorter
    omega

theorem Token.LongestBefore.stops_letter {token : Token} {rest : List Char}
    (longest : token.LongestBefore rest)
    (letters : ∀ c ∈ token.written, c.isAlpha = true) : Stops Char.isAlpha rest := by
  cases rest with
  | nil => exact stops_nil _
  | cons d rest =>
    refine stops_cons.mpr (Bool.eq_false_iff.mpr fun letter => ?_)
    have allLetters : ∀ c ∈ token.written ++ [d], c.isAlpha = true := by
      simpa [or_imp, forall_and] using ⟨letters, letter⟩
    have spelled := Token.spelled_ofWord (by simp : token.written ++ [d] ≠ []) allLetters
    have notEnd : Token.ofWord (String.ofList (token.written ++ [d])) ≠ .endOfInput := by
      unfold Token.ofWord
      split <;> simp
    have shorter := longest _ ⟨spelled, notEnd⟩ rest (by rw [Token.written_ofWord]; simp)
    simp only [Token.written_ofWord, List.length_append, List.length_singleton] at shorter
    omega

namespace Cursor

variable {cursor after : Cursor} {located : Located} {token : Token} {rest : List Char}

private theorem exists_readNumber {digits : String} (numeral : Numeral digits)
    (found : cursor.rest = digits.toList ++ rest)
    (longest : (Token.number digits).LongestBefore rest)
    (parted : Digits digits.toList → rest.head? ≠ some '.') :
    ∃ located after, cursor.readNumber = (.ok located, after) := by
  cases numeral with
  | @whole ds isDigits =>
    rw [String.toList_ofList] at found parted
    have notPoint := parted isDigits
    have beyond := longest.stops_digit isDigits
    simp only [readNumber, skipWhile, found, beyond.takeWhile_append isDigits.2,
      beyond.dropWhile_append isDigits.2, rest_past]
    split
    · simp at notPoint
    · exact ⟨_, _, rfl⟩
  | pointed isWhole isFraction =>
    rw [String.toList_ofList] at found
    obtain ⟨located, after, read, -⟩ := readNumber_of_pointed isWhole isFraction found
    exact ⟨located, after, read⟩

private theorem exists_readToken (readable : token.Readable)
    (found : cursor.rest = token.written ++ rest)
    (longest : token.LongestBefore rest) (parted : Digits token.written → rest.head? ≠ some '.') :
    ∃ located after, cursor.readToken = (.ok located, after) := by
  cases token with
  | endOfInput => exact absurd rfl readable.notEnd
  | newline =>
    rw [Token.written_newline] at found
    simp only [readToken, found, List.singleton_append, if_true]
    exact ⟨_, _, rfl⟩
  | string body =>
    have quoted : cursor.rest = '"' :: (body.toList ++ '"' :: rest) := by
      simpa [Token.written] using found
    rw [readToken_of_quote quoted, readString_of_rest cursor rest readable.spelled]
    exact ⟨_, _, rfl⟩
  | number digits =>
    rw [readToken_of_numeral readable.spelled found]
    exact exists_readNumber readable.spelled found longest parted
  | name text =>
    have isName : Name text := readable.spelled
    rw [readToken_of_word isName.nonempty isName.letters found]
    exact ⟨_, _, rfl⟩
  | keyword word =>
    rw [readToken_of_word word.spelling_ne_nil word.isAlpha_spelling found]
    exact ⟨_, _, rfl⟩
  | operator op =>
    obtain ⟨c, more, dispatched⟩ := readToken_of_operator op found
    obtain ⟨⟨op', after⟩, read⟩ := op.isSome_read? rest
    have readRest : Operator.read? cursor.rest = some (op', after) :=
      (congrArg Operator.read? found).trans read
    rw [dispatched, readOperator, readRest]
    exact ⟨_, _, rfl⟩

/-- The longest lexeme is read, unless a point after it makes it a number without its fraction. -/
theorem readToken_of_longest (readable : token.Readable)
    (found : cursor.rest = token.written ++ rest) (longest : token.LongestBefore rest)
    (parted : Digits token.written → rest.head? ≠ some '.') :
    cursor.readToken = cursor.accept token (cursor.past token.written rest) := by
  obtain ⟨located, after, read⟩ := exists_readToken readable found longest parted
  have reads := reads_readToken read
  have atLeast := length_le_readToken read readable found
  have notEnd : located.token ≠ .endOfInput := by
    intro atEnd
    have nothing := rest_of_readToken_endOfInput read atEnd
    obtain ⟨c, more, written, -⟩ := readable.spelled.exists_cons readable.notEnd
    rw [found, written] at nothing
    cases nothing
  have readableHere : located.token.Readable := ⟨spelled_readToken read, notEnd⟩
  have atMost := longest located.token readableHere after.rest (found.symm.trans reads.passes.rest)
  obtain ⟨sameWritten, sameRest⟩ :=
    List.append_inj (found.symm.trans reads.passes.rest) (Nat.le_antisymm atLeast atMost)
  obtain rfl := readable.written_inj readableHere sameWritten
  have sameAfter : after = cursor.past located.token.written rest := by
    obtain ⟨offset, behind⟩ := after
    simp only [past, Cursor.mk.injEq]
    exact ⟨reads.passes.offset, sameRest.symm⟩
  rw [read, sameAfter, accept, Prod.mk.injEq, Except.ok.injEq]
  obtain ⟨token, span⟩ := located
  cases reads.span
  rw [sameAfter]
  exact ⟨rfl, rfl⟩

theorem longest_of_readToken (read : cursor.readToken = (.ok located, after)) :
    located.token.LongestBefore after.rest := by
  intro other readable back same
  exact length_le_readToken read readable ((reads_readToken read).passes.rest.trans same)

/-- No point follows a number without one. -/
theorem parted_of_readToken (read : cursor.readToken = (.ok located, after))
    (isWhole : Digits located.token.written) : after.rest.head? ≠ some '.' := by
  intro point
  obtain ⟨fraction, behind⟩ := List.head?_eq_some_iff.mp point
  obtain ⟨c, more, cons, digit⟩ := isWhole.exists_cons
  have found := (reads_readToken read).passes.rest
  rw [behind] at found
  rw [readToken_of_digit (found.trans (congrArg (· ++ '.' :: fraction) cons)) digit] at read
  generalize written : located.token.written = digits at isWhole found
  have stops : Stops Char.isDigit ('.' :: fraction) := stops_cons.mpr (by decide)
  simp only [readNumber, skipWhile, found, stops.takeWhile_append isWhole.2,
    stops.dropWhile_append isWhole.2, rest_past] at read
  split at read
  · cases read
  · cases read
    rw [Token.written_number] at written
    simpa using congrArg List.length written

end Cursor

/-! ## Gaps -/

theorem isGap_iff {c : Char} : isGap c = true ↔ c ∈ [' ', '\t', '\r'] := by
  simp [isGap, or_assoc]

theorem Gap.newline_notMem {gap : List Char} (isGap : Gap gap) : '\n' ∉ gap := by
  cases isGap with
  | blank blank =>
    intro member
    exact absurd (blank _ member) (by decide)
  | comment blank oneLine =>
    intro member
    rcases List.mem_append.mp member with inBlanks | inComment
    · exact absurd (blank _ inBlanks) (by decide)
    · rcases List.mem_cons.mp inComment with unequal | inText
      · cases unequal
      · exact oneLine inText

namespace Cursor

/-- What is skipped before a token is a gap, and a comment in it reaches up to the end of its line. -/
theorem exists_gap (cursor : Cursor) :
    ∃ gap, Gap gap ∧ cursor.Passes gap cursor.skipGap ∧
      ('#' ∈ gap → Stops (· != '\n') cursor.skipGap.rest) := by
  have blanks : ∀ c ∈ cursor.rest.takeWhile isGap, c ∈ [' ', '\t', '\r'] := fun c member =>
    isGap_iff.mp (isTrue_of_mem_takeWhile member)
  have noMark : '#' ∉ cursor.rest.takeWhile isGap := fun member =>
    absurd (isTrue_of_mem_takeWhile member) (by decide)
  have passes := passes_skipWhile isGap cursor
  unfold skipGap
  dsimp only
  split
  · rename_i mark
    obtain ⟨text, found⟩ := List.head?_eq_some_iff.mp mark
    have passesComment := passes_skipWhile (· != '\n') (cursor.skipWhile isGap)
    have comment : (cursor.skipWhile isGap).rest.takeWhile (· != '\n') =
        '#' :: text.takeWhile (· != '\n') := by
      rw [found]
      rfl
    refine ⟨_, ?_, passes.trans passesComment, fun _ => ?_⟩
    · rw [comment]
      refine .comment blanks fun member => ?_
      exact absurd (isTrue_of_mem_takeWhile member) (by decide)
    · intro c first
      have stopped := List.head?_dropWhile_not (· != '\n') (cursor.skipWhile isGap).rest
      rw [show ((cursor.skipWhile isGap).rest.dropWhile (· != '\n')).head? = some c from first]
        at stopped
      simpa using stopped
  · exact ⟨_, .blank blanks, passes, fun member => absurd member noMark⟩

theorem skipGap_of_gap {cursor : Cursor} {gap more : List Char} {c : Char} (isGap : Gap gap)
    (ends : '#' ∈ gap → c = '\n') (found : cursor.rest = gap ++ c :: more)
    (notBlank : TeenyBasic.isGap c = false) (notComment : c ≠ '#') :
    cursor.skipGap = cursor.past gap (c :: more) := by
  cases isGap with
  | blank blank =>
    have stops : Stops TeenyBasic.isGap (c :: more) := stops_cons.mpr notBlank
    have inside : ∀ c ∈ gap, TeenyBasic.isGap c = true := fun c member => isGap_iff.mpr (blank c member)
    have skipped : cursor.skipWhile TeenyBasic.isGap = cursor.past gap (c :: more) := by
      rw [skipWhile, found, stops.takeWhile_append inside, stops.dropWhile_append inside]
    rw [skipGap, skipped]
    exact if_neg (by simpa using notComment)
  | @comment blanks text blank oneLine =>
    obtain rfl := ends (by simp)
    have mark : Stops TeenyBasic.isGap ('#' :: text ++ '\n' :: more) := stops_cons.mpr (by decide)
    have inside : ∀ c ∈ blanks, TeenyBasic.isGap c = true := fun c member =>
      isGap_iff.mpr (blank c member)
    rw [List.append_assoc] at found
    have skipped : cursor.skipWhile TeenyBasic.isGap =
        cursor.past blanks ('#' :: text ++ '\n' :: more) := by
      rw [skipWhile, found, mark.takeWhile_append inside, mark.dropWhile_append inside]
    have lineEnd : Stops (· != '\n') ('\n' :: more) := stops_cons.mpr (by decide)
    have plain : ∀ c ∈ '#' :: text, (c != '\n') = true := by
      intro c member
      rw [bne_iff_ne]
      rintro rfl
      rcases List.mem_cons.mp member with unequal | inText
      · cases unequal
      · exact oneLine inText
    rw [skipGap, skipped]
    refine (if_pos rfl).trans ?_
    rw [skipWhile, rest_past, lineEnd.takeWhile_append plain, lineEnd.dropWhile_append plain, past_past]

/-! ## The next token -/

/-- The token stands behind the gap, the longest lexeme there, and the text goes on at `after`. -/
structure Takes (cursor : Cursor) (gap : List Char) (located : Located) (after : Cursor) : Prop where
  isGap : Gap gap
  /-- A comment reaches up to the end of its line. -/
  comment : '#' ∈ gap → located.token = .newline
  readable : located.token.Readable
  longest : located.token.LongestBefore after.rest
  /-- A number whose fraction is missing is no token. -/
  parted : Digits located.token.written → after.rest.head? ≠ some '.'
  rest : cursor.rest = gap ++ (located.token.written ++ after.rest)
  start : located.span.start = cursor.offset + Text.byteLength gap
  stop : located.span.stop = located.span.start + Text.byteLength located.token.written
  offset : after.offset = located.span.stop

theorem takes_of_next {cursor after : Cursor} {located : Located}
    (read : cursor.next = (.ok located, after)) (notEnd : located.token ≠ .endOfInput) :
    ∃ gap, cursor.Takes gap located after := by
  obtain ⟨gap, isGap, passes, ends⟩ := exists_gap cursor
  have reads := reads_readToken read
  have readable : located.token.Readable := ⟨spelled_readToken read, notEnd⟩
  refine ⟨gap, isGap, fun mark => ?_, readable, longest_of_readToken read, parted_of_readToken read,
    by rw [passes.rest, reads.passes.rest], ?_, ?_, ?_⟩
  · obtain ⟨c, behind, written, -⟩ := readable.spelled.exists_cons readable.notEnd
    have stopped := ends mark c (by rw [reads.passes.rest, written]; rfl)
    simp only [bne_eq_false_iff_eq] at stopped
    exact readable.spelled.eq_newline (by rw [written, stopped]; exact .head _)
  · rw [reads.span]
    exact passes.offset
  · rw [reads.span]
    exact reads.passes.offset
  · rw [reads.span]
    rfl

theorem Takes.next_eq {cursor after : Cursor} {gap : List Char} {located : Located}
    (takes : cursor.Takes gap located after) : cursor.next = (.ok located, after) := by
  obtain ⟨c, behind, written, notBlank, notComment⟩ :=
    takes.readable.spelled.exists_cons takes.readable.notEnd
  have endsLine : '#' ∈ gap → c = '\n' := by
    intro mark
    rw [takes.comment mark, Token.written_newline] at written
    exact (List.cons.inj written).1.symm
  have found : cursor.rest = gap ++ c :: (behind ++ after.rest) := by
    rw [takes.rest, written, List.cons_append]
  have skipped : cursor.skipGap = cursor.past gap (located.token.written ++ after.rest) := by
    rw [skipGap_of_gap takes.isGap endsLine found notBlank notComment, written, List.cons_append]
  rw [next, skipped,
    readToken_of_longest takes.readable rfl takes.longest takes.parted, accept, Prod.mk.injEq,
    Except.ok.injEq]
  have start := takes.start
  have stop := takes.stop
  have offset := takes.offset
  obtain ⟨token, span⟩ := located
  obtain ⟨position, rest⟩ := after
  simp only [past, spanTo, Located.mk.injEq, Cursor.mk.injEq, true_and, and_true] at start stop offset ⊢
  obtain ⟨first, last⟩ := span
  simp only [Span.mk.injEq] at start stop offset ⊢
  omega

end Cursor

end TeenyBasic
