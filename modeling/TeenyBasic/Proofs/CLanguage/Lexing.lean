import TeenyBasic.Proofs.Grammar.Separable

/-!
How C cuts a text into lexemes. White space is dropped; at each other place the longest lexeme is
taken (maximal munch). Comments are kept as lexemes of their own, so that a text without any is seen
to have none.

`readLexeme` is given the first character of a lexeme and the text after it, and says how many of the
characters after the first one belong to the lexeme.
-/

set_option autoImplicit false

namespace TeenyBasic.CLanguage

open Grammar

inductive Lexeme where
  /-- An identifier or a keyword. -/
  | word (text : String)
  /-- A preprocessing number. -/
  | number (text : String)
  /-- A string literal or a character constant, with its quotes. -/
  | literal (text : String)
  | punctuator (text : String)
  | comment
  /-- A character that belongs to no other lexeme. -/
  | stray (c : Char)
  deriving DecidableEq, Repr

/-- The text of a lexeme; a comment counts as one space. -/
def Lexeme.text : Lexeme → String
  | word text => text
  | number text => text
  | literal text => text
  | punctuator text => text
  | comment => " "
  | stray c => c.toString

def isSpace (c : Char) : Bool :=
  c = ' ' || c = '\t' || c = '\n' || c = '\r' || c = '\x0b' || c = '\x0c'

def isLetter (c : Char) : Bool :=
  c.isAlpha || c = '_'

def isWordChar (c : Char) : Bool :=
  isLetter c || c.isDigit

/-! ## Numbers -/

/-- Whether two characters go on with a number together: an exponent's sign, or a digit after a
separating quote. -/
def continueNumber (first second : Char) : Bool :=
  (first = 'e' || first = 'E' || first = 'p' || first = 'P') && (second = '+' || second = '-') ||
    first = '\'' && isWordChar second

def continuesNumber (c : Char) : Bool :=
  isWordChar c || c = '.'

/-- How many characters go on with a number. -/
def numberLength : List Char → Nat
  | [] => 0
  | [c] => if continuesNumber c then 1 else 0
  | first :: second :: rest =>
    if continueNumber first second then numberLength rest + 2
    else if continuesNumber first then numberLength (second :: rest) + 1
    else 0

/-! ## Literals -/

/-- How many characters there are up to the closing quote and with it, if the line has one. -/
def closingLength? (quote : Char) : List Char → Option Nat
  | [] => none
  | '\\' :: _ :: rest => (closingLength? quote rest).map (· + 2)
  | c :: rest =>
    if c = quote then some 1
    else if c = '\n' then none
    else (closingLength? quote rest).map (· + 1)

def isQuote (c : Char) : Bool :=
  c = '"' || c = '\''

/-- How long the literal is that a text starts with, if it starts with one. -/
def literalLength? : List Char → Option Nat
  | [] => none
  | c :: rest => if isQuote c then (closingLength? c rest).map (· + 1) else none

/-- Words that may stand before an opening quote. -/
def encodings : List String :=
  ["u8", "u", "U", "L"]

/-! ## Punctuators -/

def punctuators : List String :=
  ["[", "]", "(", ")", "\x7b", "\x7d", ".", "->", "++", "--", "&", "*", "+", "-", "~", "!", "/", "%",
   "<<", ">>", "<", ">", "<=", ">=", "==", "!=", "^", "|", "&&", "||", "?", ":", "::", ";", "...",
   "=", "*=", "/=", "%=", "+=", "-=", "<<=", ">>=", "&=", "^=", "|=", ",", "#", "##",
   "<:", ":>", "<%", "%>", "%:", "%:%:"]

/-- The longest punctuator that a text starts with. -/
def punctuator? (text : List Char) : Option (List Char) :=
  [text.take 4, text.take 3, text.take 2, text.take 1].find? fun taken =>
    decide (String.ofList taken ∈ punctuators)

/-! ## Comments -/

/-- How many characters there are up to the end of a comment and with it. -/
def blockLength : List Char → Nat
  | [] => 0
  | '*' :: '/' :: _ => 2
  | _ :: rest => blockLength rest + 1

/-- How long the comment is that a text starts with, if it starts with one. -/
def commentLength? : List Char → Option Nat
  | '/' :: '/' :: rest => some ((rest.takeWhile (· != '\n')).length + 2)
  | '/' :: '*' :: rest => some (blockLength rest + 2)
  | _ => none

/-! ## Lexemes -/

def readWord (c : Char) (rest : List Char) : Lexeme × Nat :=
  let letters := rest.takeWhile isWordChar
  let word := String.ofList (c :: letters)
  match if word ∈ encodings then literalLength? (rest.dropWhile isWordChar) else none with
  | some length =>
    (.literal (String.ofList (c :: rest.take (letters.length + length))), letters.length + length)
  | none => (.word word, letters.length)

def readSymbol (c : Char) (rest : List Char) : Lexeme × Nat :=
  match commentLength? (c :: rest) with
  | some length => (.comment, length - 1)
  | none =>
    match punctuator? (c :: rest) with
    | some taken => (.punctuator (String.ofList taken), taken.length - 1)
    | none => (.stray c, 0)

def startsNumber (c : Char) (rest : List Char) : Bool :=
  c.isDigit || c = '.' && rest.head?.any Char.isDigit

def readLexeme (c : Char) (rest : List Char) : Lexeme × Nat :=
  if isLetter c then readWord c rest
  else if startsNumber c rest then
    (.number (String.ofList (c :: rest.take (numberLength rest))), numberLength rest)
  else
    match literalLength? (c :: rest) with
    | some length => (.literal (String.ofList ((c :: rest).take length)), length - 1)
    | none => readSymbol c rest

def lexemes : List Char → List Lexeme
  | [] => []
  | c :: rest =>
    if isSpace c then lexemes rest
    else (readLexeme c rest).1 :: lexemes (rest.drop (readLexeme c rest).2)
termination_by text => text.length
decreasing_by
  · simp
  · simp only [List.length_drop, List.length_cons]
    omega

/-- The lexemes of a text. -/
def lex (text : String) : List Lexeme :=
  lexemes text.toList

/-! ## Characters -/

private theorem isWordChar_of_isSpace {c : Char} (space : isSpace c = true) : isWordChar c = false := by
  simp only [isSpace, Bool.or_eq_true, decide_eq_true_eq] at space
  rcases space with ((((rfl | rfl) | rfl) | rfl) | rfl) | rfl <;> rfl

theorem isSpace_of_isWordChar {c : Char} (inWord : isWordChar c = true) : isSpace c = false := by
  cases space : isSpace c with
  | false => rfl
  | true => rw [isWordChar_of_isSpace space] at inWord; cases inWord

theorem isLetter_of_isDigit {c : Char} (digit : c.isDigit = true) : isLetter c = false := by
  have belowLetters : c.toNat ≤ 57 := (Char.isDigit_iff_toNat.mp digit).2
  have notUpper : c.isUpper ≠ true := by
    intro upper
    have atLeast : 65 ≤ c.toNat := UInt32.le_iff_toNat_le.mp (of_decide_eq_true upper).1
    omega
  have notLower : c.isLower ≠ true := by
    intro lower
    have bounds := Bool.and_eq_true_iff.mp lower
    have atLeast : 97 ≤ c.toNat := UInt32.le_iff_toNat_le.mp (of_decide_eq_true bounds.1)
    omega
  have notUnderscore : c ≠ '_' := by
    rintro rfl
    cases digit
  change ((c.isUpper || c.isLower) || decide (c = '_')) = false
  simp [notUpper, notLower, notUnderscore]

/-! ## Reading one lexeme -/

theorem lexemes_space {c : Char} (space : isSpace c = true) (rest : List Char) :
    lexemes (c :: rest) = lexemes rest := by
  rw [lexemes, if_pos space]

theorem lexemes_of_readLexeme {c : Char} {more rest : List Char} {lexeme : Lexeme}
    (notSpace : isSpace c = false)
    (read : readLexeme c (more ++ rest) = (lexeme, more.length)) :
    lexemes (c :: (more ++ rest)) = lexeme :: lexemes rest := by
  rw [lexemes, if_neg (by simp [notSpace]), read, List.drop_left]

/-- Whether a word or a number could go on with a character, or be part of a literal before it. -/
def continuesOperand (c : Char) : Bool :=
  isWordChar c || c = '.' || isQuote c

theorem literalLength?_of_stops {rest : List Char} (stops : Stops isQuote rest) :
    literalLength? rest = none := by
  cases rest with
  | nil => rfl
  | cons c rest => simp [literalLength?, stops_cons.mp stops]

theorem lexemes_word {c : Char} {more rest : List Char} (letter : isLetter c = true)
    (inWord : ∀ other ∈ more, isWordChar other = true) (stops : Stops continuesOperand rest) :
    lexemes (c :: (more ++ rest)) = .word (String.ofList (c :: more)) :: lexemes rest := by
  have beyond : Stops isWordChar rest := stops.mono fun other => by simp +contextual [continuesOperand]
  have unquoted : Stops isQuote rest := stops.mono fun other => by simp +contextual [continuesOperand]
  apply lexemes_of_readLexeme (isSpace_of_isWordChar (by simp [isWordChar, letter]))
  rw [readLexeme, if_pos letter, readWord]
  simp [beyond.takeWhile_append inWord, beyond.dropWhile_append inWord,
    literalLength?_of_stops unquoted]

private theorem numberLength_cons {c : Char} (continues : continuesNumber c = true)
    (plain : ∀ other, continueNumber c other = false) (rest : List Char) :
    numberLength (c :: rest) = numberLength rest + 1 := by
  cases rest with
  | nil => simp [numberLength, continues]
  | cons other rest => simp [numberLength, continues, plain]

theorem numberLength_of_stops {rest : List Char} (stops : Stops continuesOperand rest) :
    numberLength rest = 0 := by
  cases rest with
  | nil => rfl
  | cons first rest =>
    have stopped := stops_cons.mp stops
    simp only [continuesOperand, Bool.or_eq_false_iff] at stopped
    obtain ⟨⟨notWord, notPoint⟩, notQuote⟩ := stopped
    have continues : continuesNumber first = false := by simp [continuesNumber, notWord, notPoint]
    have plain : ∀ second, continueNumber first second = false := by
      intro second
      rw [Bool.eq_false_iff]
      intro together
      simp only [continueNumber, Bool.or_eq_true, Bool.and_eq_true, decide_eq_true_eq] at together
      rcases together with ⟨letters, _⟩ | ⟨rfl, _⟩
      · rcases letters with ((rfl | rfl) | rfl) | rfl <;> cases notWord
      · cases notQuote
    cases rest with
    | nil => simp [numberLength, continues]
    | cons second rest => simp [numberLength, continues, plain]

/-- Whether a character belongs to a number of the language. -/
def isNumeral (c : Char) : Bool :=
  c.isDigit || c = '.'

private theorem numeral_continues {c : Char} (numeral : isNumeral c = true) :
    continuesNumber c = true ∧ ∀ other, continueNumber c other = false := by
  simp only [isNumeral, Bool.or_eq_true, decide_eq_true_eq] at numeral
  rcases numeral with digit | rfl
  · refine ⟨by simp [continuesNumber, isWordChar, digit], fun other => ?_⟩
    rw [Bool.eq_false_iff]
    intro together
    simp only [continueNumber, Bool.or_eq_true, Bool.and_eq_true, decide_eq_true_eq] at together
    rcases together with ⟨(((rfl | rfl) | rfl) | rfl), _⟩ | ⟨rfl, _⟩ <;> cases digit
  · exact ⟨rfl, fun _ => rfl⟩

theorem lexemes_number {c : Char} {more rest : List Char} (digit : c.isDigit = true)
    (numerals : ∀ other ∈ more, isNumeral other = true) (stops : Stops continuesOperand rest) :
    lexemes (c :: (more ++ rest)) = .number (String.ofList (c :: more)) :: lexemes rest := by
  have length : numberLength (more ++ rest) = more.length := by
    induction more with
    | nil => exact numberLength_of_stops stops
    | cons other more ih =>
      obtain ⟨continues, plain⟩ := numeral_continues (numerals other (.head _))
      rw [List.cons_append, numberLength_cons continues plain,
        ih fun member inside => numerals member (.tail _ inside), List.length_cons]
  apply lexemes_of_readLexeme (isSpace_of_isWordChar (by simp [isWordChar, digit]))
  rw [readLexeme, if_neg (by simp [isLetter_of_isDigit digit]), if_pos (by simp [startsNumber, digit])]
  simp [length]

/-- A punctuator is over before a character that neither a longer one nor a comment goes on with. -/
def Parts (op : List Char) (next : Char) : Prop :=
  ∀ longer ∈ "//" :: "/*" :: punctuators, ¬ (op ++ [next]) <+: longer.toList

instance (op : List Char) (next : Char) : Decidable (Parts op next) :=
  inferInstanceAs
    (Decidable (∀ longer ∈ "//" :: "/*" :: punctuators, ¬ (op ++ [next]) <+: longer.toList))

private theorem not_mem_of_parts {op : List Char} {next : Char} (parts : Parts op next)
    (more : List Char) : String.ofList (op ++ next :: more) ∉ punctuators := by
  intro member
  apply parts _ (.tail _ (.tail _ member))
  rw [String.toList_ofList]
  exact ⟨more, by simp⟩

/-- No punctuator holds a character of a word, a quote or white space. -/
theorem symbol_of_mem_punctuators {op : String} (member : op ∈ "//" :: "/*" :: punctuators) {c : Char}
    (inside : c ∈ op.toList) :
    isLetter c = false ∧ c.isDigit = false ∧ isQuote c = false ∧ isSpace c = false := by
  have symbols : (("//" :: "/*" :: punctuators).all fun op => op.toList.all fun c =>
      !(isLetter c || c.isDigit || isQuote c || isSpace c)) = true := by decide
  have symbol := List.all_eq_true.mp (List.all_eq_true.mp symbols op member) c inside
  simpa [and_assoc] using symbol

theorem parts_of_isWordChar {op : List Char} {next : Char}
    (plain : isWordChar next = true ∨ isSpace next = true) : Parts op next := by
  intro longer member starts
  obtain ⟨notLetter, notDigit, -, notSpace⟩ :=
    symbol_of_mem_punctuators member (starts.subset (by simp : next ∈ op ++ [next]))
  simp [isWordChar, notLetter, notDigit, notSpace] at plain

section Punctuator

variable {c next : Char} {more rest : List Char}
  (member : String.ofList (c :: more) ∈ punctuators) (parts : Parts (c :: more) next)

include member parts

private theorem punctuator?_of_parts (short : more.length ≤ 1) :
    punctuator? (c :: (more ++ next :: rest)) = some (c :: more) := by
  have longer := not_mem_of_parts parts
  match more with
  | [] =>
    have two := longer []
    have three := longer (rest.take 1)
    have four := longer (rest.take 2)
    simp_all [punctuator?]
  | [_] =>
    have three := longer []
    have four := longer (rest.take 1)
    simp_all [punctuator?]
  | _ :: _ :: _ => simp at short

private theorem commentLength?_of_parts : commentLength? (c :: (more ++ next :: rest)) = none := by
  have inside : ∀ op ∈ punctuators,
      ¬ ['/', '/'] <+: op.toList ∧ ¬ ['/', '*'] <+: op.toList := by decide
  have opening : ∀ second after, second = '/' ∨ second = '*' →
      c :: (more ++ next :: rest) ≠ '/' :: second :: after := by
    rintro second after isOpening text
    cases more with
    | nil =>
      cases text
      rcases isOpening with rfl | rfl
      · exact parts "//" (.head _) (List.prefix_refl _)
      · exact parts "/*" (.tail _ (.head _)) (List.prefix_refl _)
    | cons _ more =>
      cases text
      obtain ⟨notLine, notBlock⟩ := inside _ member
      rcases isOpening with rfl | rfl
      · exact notLine ⟨more, by simp⟩
      · exact notBlock ⟨more, by simp⟩
  unfold commentLength?
  split
  · rename_i after text
    exact absurd text (opening _ after (.inl rfl))
  · rename_i after text
    exact absurd text (opening _ after (.inr rfl))
  · rfl

theorem lexemes_punctuator (short : more.length ≤ 1) (notPoint : c ≠ '.') :
    lexemes (c :: (more ++ next :: rest)) =
      .punctuator (String.ofList (c :: more)) :: lexemes (next :: rest) := by
  have inside : c ∈ (String.ofList (c :: more)).toList := by simp
  obtain ⟨notLetter, notDigit, notQuote, notSpace⟩ :=
    symbol_of_mem_punctuators (.tail _ (.tail _ member)) inside
  apply lexemes_of_readLexeme notSpace
  simp [readLexeme, notLetter, startsNumber, notDigit, notPoint, literalLength?, notQuote, readSymbol,
    commentLength?_of_parts member parts, punctuator?_of_parts member parts short]

end Punctuator

end TeenyBasic.CLanguage
