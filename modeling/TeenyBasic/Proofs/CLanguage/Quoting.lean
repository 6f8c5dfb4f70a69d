import TeenyBasic.Proofs.CLanguage.Lexing

/-!
Literals and comments of a C text. A text without quotes and slashes has neither, whatever its lexemes
are, if the character after it is one that no lexeme goes on with (`raw_lexemes_quiet`). So it is
enough to follow the quotes and the slashes of a text. Before it is cut into lexemes, a file loses each
line feed that stands right after a backslash.

The name of a header is cut like any other text. It is no string literal, and it has no quotes.
-/

set_option autoImplicit false

namespace TeenyBasic.CLanguage

open Grammar

/-! ## Joined lines -/

/-- Drops each line feed that stands right after a backslash, with the backslash. -/
def joinLines : List Char → List Char
  | [] => []
  | '\\' :: '\n' :: rest => joinLines rest
  | c :: rest => c :: joinLines rest

def lexFile (text : String) : List Lexeme :=
  lexemes (joinLines text.toList)

theorem joinLines_line {line : List Char} (oneLine : '\n' ∉ line) (ends : line.getLast? ≠ some '\\')
    (rest : List Char) : joinLines (line ++ '\n' :: rest) = line ++ '\n' :: joinLines rest := by
  induction line with
  | nil => rfl
  | cons c line ih =>
    have apart : ∀ after, c = '\\' → line ++ '\n' :: rest = '\n' :: after → False := by
      intro after backslash text
      cases line with
      | nil => simp [backslash] at ends
      | cons next line =>
        obtain ⟨rfl, -⟩ := List.cons.inj text
        simp at oneLine
    have endsAfter : line.getLast? ≠ some '\\' := by
      cases line with
      | nil => simp
      | cons next line => simpa using ends
    rw [List.cons_append, joinLines.eq_3 _ _ apart,
      ih (fun inside => oneLine (.tail _ inside)) endsAfter, List.cons_append]

/-! ## Literals -/

def Lexeme.isRaw : Lexeme → Bool
  | literal _ | comment => true
  | _ => false

/-- The lexemes whose text is not itself read as lexemes. -/
def raw (found : List Lexeme) : List Lexeme :=
  found.filter Lexeme.isRaw

def Lexeme.literal? : Lexeme → Option String
  | literal text => some text
  | _ => none

/-- The string literals and character constants. -/
def literals (found : List Lexeme) : List String :=
  found.filterMap Lexeme.literal?

theorem not_comment_of_raw {found : List Lexeme} {texts : List String}
    (same : raw found = texts.map .literal) : .comment ∉ found := by
  intro member
  have inside : .comment ∈ raw found := List.mem_filter.mpr ⟨member, rfl⟩
  simp [same] at inside

private theorem literals_raw (found : List Lexeme) : literals (raw found) = literals found := by
  rw [literals, raw, List.filterMap_filter, literals]
  congr 1
  funext lexeme
  cases lexeme <;> rfl

theorem literals_of_raw {found : List Lexeme} {texts : List String}
    (same : raw found = texts.map .literal) : literals found = texts := by
  rw [← literals_raw, same, literals, List.filterMap_map]
  exact List.filterMap_some

/-- Nothing ends a string literal in these characters. -/
theorem closingLength?_append {inside : List Char} (plain : ∀ c ∈ inside, c ∉ ['"', '\\', '\n'])
    (rest : List Char) :
    closingLength? '"' (inside ++ rest) = (closingLength? '"' rest).map (· + inside.length) := by
  induction inside with
  | nil => simp
  | cons c inside ih =>
    have notSpecial := plain c (.head _)
    simp only [List.mem_cons, List.not_mem_nil, or_false, not_or] at notSpecial
    obtain ⟨notQuote, notBackslash, notEnd⟩ := notSpecial
    rw [List.cons_append, closingLength?.eq_3 _ _ _ fun _ _ backslash => absurd backslash notBackslash,
      if_neg notQuote, if_neg notEnd, ih fun other member => plain other (.tail _ member),
      Option.map_map]
    rfl

theorem lexemes_literal {inside rest : List Char}
    (closes : closingLength? '"' (inside ++ '"' :: rest) = some (inside.length + 1)) :
    lexemes ('"' :: (inside ++ '"' :: rest)) =
      .literal (String.ofList ('"' :: (inside ++ ['"']))) :: lexemes rest := by
  have read : readLexeme '"' (inside ++ '"' :: rest) =
      (.literal (String.ofList ('"' :: (inside ++ ['"']))), (inside ++ ['"']).length) := by
    have whole : (inside ++ '"' :: rest).take (inside.length + 1) = inside ++ ['"'] := by
      rw [List.append_cons, List.take_left' (by simp)]
    have letter : isLetter '"' = false := by decide
    have number : startsNumber '"' (inside ++ '"' :: rest) = false := by simp [startsNumber]
    have quote : isQuote '"' = true := by decide
    simp [readLexeme, letter, number, literalLength?, quote, closes, whole]
  rw [List.append_cons] at read ⊢
  exact lexemes_of_readLexeme (by decide) read

/-- The characters that are escaped by a backslash. -/
def escapes : List Char → List Char
  | [] => []
  | '\\' :: c :: rest => c :: escapes rest
  | _ :: rest => escapes rest

theorem escapes_append {front : List Char} (plain : '\\' ∉ front) (rest : List Char) :
    escapes (front ++ rest) = escapes rest := by
  induction front with
  | nil => rfl
  | cons c front ih =>
    have notBackslash : c ≠ '\\' := fun same => plain (same ▸ .head _)
    rw [List.cons_append, escapes.eq_3 _ _ fun _ _ backslash => absurd backslash notBackslash,
      ih fun inside => plain (.tail _ inside)]

/-! ## Text without literals and comments -/

def isQuiet (c : Char) : Bool :=
  !(isQuote c || c = '/')

/-- Whether no lexeme goes on with the character. -/
def isFirm (c : Char) : Bool :=
  isSpace c || c = '('

theorem continuesOperand_of_isFirm {c : Char} (firm : isFirm c = true) :
    continuesOperand c = false := by
  simp only [isFirm, isSpace, Bool.or_eq_true, decide_eq_true_eq] at firm
  rcases firm with (((((rfl | rfl) | rfl) | rfl) | rfl) | rfl) | rfl <;> rfl

section Quiet

variable {front rest : List Char} {stop : Char} (firm : isFirm stop = true)

include firm

private theorem length_takeWhile_le :
    ((front ++ stop :: rest).takeWhile isWordChar).length ≤ front.length := by
  have ended := continuesOperand_of_isFirm firm
  simp only [continuesOperand, Bool.or_eq_false_iff] at ended
  induction front with
  | nil => simp [ended.1.1]
  | cons c front ih =>
    rw [List.cons_append, List.takeWhile_cons]
    split
    · exact Nat.succ_le_succ ih
    · exact Nat.zero_le _

private theorem continueNumber_of_isFirm (c : Char) : continueNumber c stop = false := by
  have ended := continuesOperand_of_isFirm firm
  have notSign : stop ≠ '+' ∧ stop ≠ '-' := by
    constructor <;> intro sign <;> subst sign <;> cases firm
  simp only [continuesOperand, Bool.or_eq_false_iff] at ended
  simp [continueNumber, notSign, ended.1.1]

private theorem numberLength_le : numberLength (front ++ stop :: rest) ≤ front.length := by
  have ended : numberLength (stop :: rest) = 0 :=
    numberLength_of_stops (stops_cons.mpr (continuesOperand_of_isFirm firm))
  fun_induction numberLength front with
  | case1 => exact Nat.le_of_eq ended
  | case2 c | case3 c =>
    simp only [List.singleton_append, numberLength, continueNumber_of_isFirm firm c, ended,
      Bool.false_eq_true, if_false]
    split <;> simp
  | case4 first second more both ih =>
    simpa [numberLength, both] using ih
  | case5 first second more alone continues ih =>
    simpa [numberLength, alone, continues] using ih
  | case6 first second more alone stops =>
    simp [numberLength, alone, stops]

private theorem stops_dropWhile (quiet : ∀ c ∈ front, isQuiet c = true) :
    Stops isQuote ((front ++ stop :: rest).dropWhile isWordChar) := by
  have ended := continuesOperand_of_isFirm firm
  simp only [continuesOperand, Bool.or_eq_false_iff] at ended
  induction front with
  | nil =>
    rw [List.nil_append, List.dropWhile_cons_of_neg (by simp [ended.1.1])]
    exact stops_cons.mpr ended.2
  | cons c front ih =>
    have here := quiet c (.head _)
    simp only [isQuiet, Bool.not_eq_true', Bool.or_eq_false_iff] at here
    rw [List.cons_append, List.dropWhile_cons]
    split
    · exact ih fun other member => quiet other (.tail _ member)
    · exact stops_cons.mpr here.1

private theorem length_le_of_punctuator? {c : Char} {taken : List Char}
    (found : punctuator? (c :: (front ++ stop :: rest)) = some taken) :
    taken.length ≤ front.length + 1 := by
  have inside : (punctuators.all fun op => op.toList.tail.all fun c => !isFirm c) = true := by decide
  have isPunctuator : String.ofList taken ∈ punctuators := by simpa using List.find?_some found
  have starts : taken <+: (c :: front) ++ stop :: rest := by
    have member := List.mem_of_find?_eq_some found
    simp only [List.mem_cons, List.not_mem_nil, or_false] at member
    rcases member with rfl | rfl | rfl | rfl <;> exact List.take_prefix _ _
  obtain ⟨back, text⟩ := starts
  rcases List.append_eq_append_iff.mp text with ⟨more, whole, -⟩ | ⟨more, whole, others⟩
  · have lengths := congrArg List.length whole
    simp only [List.length_cons, List.length_append] at lengths
    omega
  · cases more with
    | nil => simp [whole]
    | cons first more =>
      obtain ⟨rfl, -⟩ := List.cons.inj others
      have beyond : stop ∈ (String.ofList taken).toList.tail := by simp [whole]
      have parted := List.all_eq_true.mp (List.all_eq_true.mp inside _ isPunctuator) stop beyond
      rw [firm] at parted
      cases parted

/-- The first lexeme of a text without quotes and slashes ends before the character after it. -/
theorem readLexeme_quiet {c : Char} (quiet : ∀ other ∈ c :: front, isQuiet other = true) :
    (readLexeme c (front ++ stop :: rest)).2 ≤ front.length ∧
      (readLexeme c (front ++ stop :: rest)).1.isRaw = false := by
  have here := quiet c (.head _)
  simp only [isQuiet, Bool.not_eq_true', Bool.or_eq_false_iff, decide_eq_false_iff_not] at here
  obtain ⟨notQuote, notSlash⟩ := here
  unfold readLexeme
  split
  · have unquoted : Stops isQuote ((front ++ stop :: rest).dropWhile isWordChar) :=
      stops_dropWhile firm fun other member => quiet other (.tail _ member)
    simp only [readWord, literalLength?_of_stops unquoted, ite_self]
    exact ⟨length_takeWhile_le firm, rfl⟩
  · split
    · exact ⟨numberLength_le firm, rfl⟩
    · have noComment : commentLength? (c :: (front ++ stop :: rest)) = none := by
        simp [commentLength?, notSlash]
      simp only [literalLength?, notQuote, Bool.false_eq_true, if_false, readSymbol, noComment]
      cases found : punctuator? (c :: (front ++ stop :: rest)) with
      | none => exact ⟨Nat.zero_le _, rfl⟩
      | some taken =>
        have short := length_le_of_punctuator? firm found
        exact ⟨by simp only; omega, rfl⟩

end Quiet

private theorem punctuator?_opening (rest : List Char) : punctuator? ('(' :: rest) = some ['('] := by
  have alone : ∀ op ∈ punctuators, op.toList.head? = some '(' → op.toList = ['('] := by decide
  cases found : punctuator? ('(' :: rest) with
  | none =>
    have absent := List.find?_eq_none.mp found ['('] (by simp)
    exact absurd (by decide) absent
  | some taken =>
    have isPunctuator : String.ofList taken ∈ punctuators := by simpa using List.find?_some found
    have starts : taken.head? = some '(' := by
      have member := List.mem_of_find?_eq_some found
      simp only [List.mem_cons, List.not_mem_nil, or_false] at member
      rcases member with rfl | rfl | rfl | rfl <;> rfl
    have single := alone _ isPunctuator (by simpa using starts)
    rw [String.toList_ofList] at single
    rw [single]

private theorem raw_lexemes_firm {stop : Char} (firm : isFirm stop = true) (rest : List Char) :
    raw (lexemes (stop :: rest)) = raw (lexemes rest) := by
  rcases Bool.or_eq_true_iff.mp firm with space | opening
  · rw [lexemes_space space]
  · obtain rfl := of_decide_eq_true opening
    have read : readLexeme '(' ([] ++ rest) = (.punctuator "(", 0) := by
      simp [readLexeme, isLetter, startsNumber, literalLength?, isQuote, readSymbol, commentLength?,
        punctuator?_opening]
    have cut := lexemes_of_readLexeme (by decide) read
    rw [List.nil_append] at cut
    rw [cut]
    rfl

/-- A text without quotes and slashes has neither literals nor comments. -/
theorem raw_lexemes_quiet {front : List Char} {stop : Char} (firm : isFirm stop = true)
    (quiet : ∀ c ∈ front, isQuiet c = true) (rest : List Char) :
    raw (lexemes (front ++ stop :: rest)) = raw (lexemes rest) := by
  induction length : front.length using Nat.strongRecOn generalizing front with
  | ind _ ih =>
    cases front with
    | nil => exact raw_lexemes_firm firm rest
    | cons c front =>
      rw [List.length_cons] at length
      rw [List.cons_append, lexemes]
      split
      · exact ih _ (by omega) (fun other member => quiet other (.tail _ member)) rfl
      · obtain ⟨short, shows⟩ := @readLexeme_quiet front rest stop firm c quiet
        rw [List.drop_append_of_le_length short, raw, List.filter_cons_of_neg (by simp [shows])]
        refine ih _ ?_ (fun other member => quiet other (.tail _ (List.mem_of_mem_drop member))) rfl
        rw [List.length_drop]
        omega

end TeenyBasic.CLanguage
