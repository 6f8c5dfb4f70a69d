import TeenyBasic.Token.Lexing

/-!
How the tokens of a text are spelled: numbers are digits with or without a fraction, names are letters
that make no keyword, strings hold no character that a string must not hold.
-/

set_option autoImplicit false

namespace TeenyBasic

def Digits (text : List Char) : Prop :=
  text ≠ [] ∧ ∀ c ∈ text, c.isDigit = true

inductive Numeral : String → Prop where
  | whole {digits : List Char} : Digits digits → Numeral (String.ofList digits)
  | pointed {whole fraction : List Char} : Digits whole → Digits fraction →
      Numeral (String.ofList (whole ++ '.' :: fraction))

structure Name (text : String) : Prop where
  nonempty : text.toList ≠ []
  letters : ∀ c ∈ text.toList, c.isAlpha = true
  notKeyword : Keyword.ofWord? text = none

theorem Digits.exists_cons {digits : List Char} (isDigits : Digits digits) :
    ∃ c rest, digits = c :: rest ∧ c.isDigit = true := by
  obtain ⟨c, rest, rfl⟩ := List.exists_cons_of_ne_nil isDigits.1
  exact ⟨c, rest, rfl, isDigits.2 c (.head _)⟩

theorem Numeral.exists_cons {digits : String} (numeral : Numeral digits) :
    ∃ c more, digits.toList = c :: more ∧ c.isDigit = true := by
  cases numeral with
  | whole isDigits =>
    obtain ⟨c, more, rfl, digit⟩ := isDigits.exists_cons
    exact ⟨c, more, String.toList_ofList, digit⟩
  | pointed isWhole _ =>
    obtain ⟨c, more, rfl, digit⟩ := isWhole.exists_cons
    exact ⟨c, _, String.toList_ofList, digit⟩

theorem Name.exists_cons {name : String} (isName : Name name) :
    ∃ c more, name.toList = c :: more ∧ c.isAlpha = true := by
  obtain ⟨c, more, cons⟩ := List.exists_cons_of_ne_nil isName.nonempty
  exact ⟨c, more, cons, isName.letters c (cons ▸ .head _)⟩

def Token.Spelled : Token → Prop
  | .number digits => Numeral digits
  | .name text => Name text
  | .string body => ∀ c ∈ body.toList, isStringBody c = true
  | _ => True

/-- The token can stand in a text before its end. -/
structure Token.Readable (token : Token) : Prop where
  spelled : token.Spelled
  notEnd : token ≠ .endOfInput

theorem Token.readable_keyword (word : Keyword) : (Token.keyword word).Readable :=
  ⟨trivial, by simp⟩

theorem Token.readable_operator (op : Operator) : (Token.operator op).Readable :=
  ⟨trivial, by simp⟩

theorem Token.readable_newline : Token.newline.Readable :=
  ⟨trivial, by simp⟩

theorem Numeral.zero : Numeral "0" :=
  @Numeral.whole ['0'] ⟨by simp, List.all_eq_true.mp (by decide)⟩

theorem Token.readable_zero : (Token.number "0").Readable :=
  ⟨.zero, by simp⟩

theorem Token.readable_x : (Token.name "x").Readable :=
  ⟨⟨by decide, List.all_eq_true.mp (by decide), by decide⟩, by simp⟩

theorem Token.readable_empty : (Token.string "").Readable :=
  ⟨by simp [Token.Spelled], by simp⟩

/-- Every kind but the end of input has a token that can stand in a text. -/
theorem exists_readable {kind : Kind} (notEnd : kind ≠ .endOfInput) :
    ∃ token : Token, token.Readable ∧ token.kind = kind := by
  cases kind with
  | endOfInput => exact absurd rfl notEnd
  | newline => exact ⟨.newline, Token.readable_newline, rfl⟩
  | number => exact ⟨.number "0", Token.readable_zero, rfl⟩
  | name => exact ⟨.name "x", Token.readable_x, rfl⟩
  | string => exact ⟨.string "", Token.readable_empty, rfl⟩
  | keyword word => exact ⟨.keyword word, Token.readable_keyword word, rfl⟩
  | operator op => exact ⟨.operator op, Token.readable_operator op, rfl⟩

theorem isTrue_of_mem_takeWhile {p : Char → Bool} {text : List Char} {c : Char}
    (member : c ∈ text.takeWhile p) : p c = true :=
  List.all_eq_true.mp List.all_takeWhile c member

theorem digits_takeWhile {c : Char} {rest : List Char} (digit : c.isDigit = true) :
    Digits ((c :: rest).takeWhile Char.isDigit) := by
  refine ⟨?_, fun _ member => isTrue_of_mem_takeWhile member⟩
  rw [List.takeWhile_cons_of_pos digit]
  simp

theorem Token.spelled_ofWord {word : List Char} (nonempty : word ≠ [])
    (letters : ∀ c ∈ word, c.isAlpha = true) : (Token.ofWord (String.ofList word)).Spelled := by
  unfold Token.ofWord
  split
  · trivial
  · rename_i notKeyword
    exact ⟨by simpa using nonempty, by simpa using letters, notKeyword⟩

namespace Cursor

variable {cursor after : Cursor} {located : Located}

theorem spelled_readNumber {c : Char} {rest : List Char} (found : cursor.rest = c :: rest)
    (digit : c.isDigit = true) (read : cursor.readNumber = (.ok located, after)) :
    located.token.Spelled := by
  have whole : Digits (cursor.rest.takeWhile Char.isDigit) := by
    rw [found]
    exact digits_takeWhile digit
  unfold readNumber at read
  dsimp only at read
  split at read
  · split at read
    · cases read
    · rename_i fraction
      cases read
      refine .pointed whole ⟨by simpa using fraction, fun _ member => isTrue_of_mem_takeWhile member⟩
  · cases read
    exact .whole whole

theorem spelled_readString {body : List Char}
    (read : cursor.readString body = (.ok located, after)) : located.token.Spelled := by
  unfold readString at read
  dsimp only at read
  split at read
  · cases read
    simp only [Token.Spelled, String.toList_ofList]
    exact fun _ member => isTrue_of_mem_takeWhile member
  · split at read <;> cases read
  · cases read

theorem spelled_readToken (read : cursor.readToken = (.ok located, after)) :
    located.token.Spelled := by
  unfold readToken at read
  split at read
  · cases read
    trivial
  rename_i c rest found
  split at read
  · cases read
    trivial
  split at read
  · exact spelled_readString read
  split at read
  · rename_i digit
    exact spelled_readNumber found digit read
  split at read
  · rename_i letter
    cases read
    refine Token.spelled_ofWord ?_ fun _ member => isTrue_of_mem_takeWhile member
    rw [found, List.takeWhile_cons_of_pos letter]
    simp
  · unfold readOperator at read
    split at read
    · cases read
      trivial
    · cases read

theorem spelled_of_mem_feed (cursor : Cursor) :
    ∀ located ∈ cursor.feed.tokens, located.token.Spelled := by
  fun_induction Cursor.feed cursor with
  | case1 => simp
  | case2 => simp
  | case3 cursor located after read notEnd others ih =>
    intro member inside
    cases inside with
    | head => exact spelled_readToken read
    | tail _ inside => exact ih member inside

end Cursor

theorem spelled_of_mem_tokens (source : String) {token : Token}
    (member : token ∈ (feedOf source).tokens.map (·.token)) : token.Spelled := by
  obtain ⟨located, inside, rfl⟩ := List.mem_map.mp member
  exact (Cursor.start (endLine source.toList)).spelled_of_mem_feed located inside

end TeenyBasic
