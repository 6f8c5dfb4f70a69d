import TeenyBasic.Proofs.CLanguage.Grammar
import TeenyBasic.Proofs.Grammar.Reference
import TeenyBasic.Proofs.Spelling

/-!
The emitted text of an expression or a condition, cut into lexemes by C, is the list of its tokens. An
operand ends before any character that cannot go on with it, and every operator ends before what may
follow it in the text: an operand, or a sign unless the operator is a plus or a minus itself. In that
case there is a space between the two.
-/

set_option autoImplicit false

namespace TeenyBasic

open Grammar CLanguage

/-- The lexeme that a token of an expression becomes. -/
def Token.lexeme : Token → Lexeme
  | .number digits => .number digits
  | .name text => .word text
  | other => .punctuator other.text

theorem Token.text_lexeme (token : Token) : token.lexeme.text = token.text := by
  cases token <;> rfl

namespace CLanguage

/-- The text is cut into these lexemes wherever it stands before a rest that may follow it. -/
def CutInto (text : List Char) (found : List Lexeme) (follows : List Char → Prop) : Prop :=
  ∀ rest, follows rest → lexemes (text ++ rest) = found ++ lexemes rest

def Closed (rest : List Char) : Prop :=
  Stops continuesOperand rest

/-- The text starts with a character that passes the test. -/
def StartsWith (test : Char → Bool) (text : List Char) : Prop :=
  ∃ c rest, text = c :: rest ∧ test c = true

theorem StartsWith.append {test : Char → Bool} {text : List Char} (starts : StartsWith test text)
    (rest : List Char) : StartsWith test (text ++ rest) := by
  obtain ⟨c, more, rfl, passes⟩ := starts
  exact ⟨c, more ++ rest, rfl, passes⟩

private theorem StartsWith.mono {test weaker : Char → Bool} {text : List Char}
    (starts : StartsWith test text) (implies : ∀ c, test c = true → weaker c = true) :
    StartsWith weaker text := by
  obtain ⟨c, rest, rfl, passes⟩ := starts
  exact ⟨c, rest, rfl, implies c passes⟩

theorem CutInto.append {first second : List Char} {before after : List Lexeme}
    {between follows : List Char → Prop} (front : CutInto first before between)
    (back : CutInto second after follows) (meets : ∀ rest, follows rest → between (second ++ rest)) :
    CutInto (first ++ second) (before ++ after) follows := by
  intro rest allowed
  rw [List.append_assoc, front _ (meets rest allowed), back rest allowed, List.append_assoc]

theorem closed_flatMap {α : Type} {text : α → List Char}
    (starts : ∀ item rest, Closed (text item ++ rest)) (items : List α) {rest : List Char}
    (closed : Closed rest) : Closed (items.flatMap text ++ rest) := by
  cases items with
  | nil => exact closed
  | cons item items =>
    rw [List.flatMap_cons, List.append_assoc]
    exact starts item _

/-- Pieces that each start with an operator. -/
theorem cutInto_flatMap {α : Type} {text : α → List Char} {found : α → List Lexeme}
    {items : List α} (each : ∀ item ∈ items, CutInto (text item) (found item) Closed)
    (starts : ∀ item rest, Closed (text item ++ rest)) :
    CutInto (items.flatMap text) (items.flatMap found) Closed := by
  induction items with
  | nil => exact fun rest _ => by simp
  | cons item items ih =>
    simp only [List.flatMap_cons]
    refine (each item (.head _)).append (ih fun other member => each other (.tail _ member)) ?_
    exact fun rest closed => closed_flatMap starts items closed

/-! ## Operands and operators -/

private theorem exists_cons_of_numeral {digits : String} (numeral : Numeral digits) :
    ∃ c more, digits.toList = c :: more ∧ c.isDigit = true ∧
      ∀ other ∈ more, isNumeral other = true := by
  have digitNumeral : ∀ c : Char, c.isDigit = true → isNumeral c = true := by
    simp +contextual [isNumeral]
  cases numeral with
  | @whole digits isDigits =>
    obtain ⟨nonempty, each⟩ := isDigits
    obtain ⟨c, more, rfl⟩ := List.exists_cons_of_ne_nil nonempty
    refine ⟨c, more, String.toList_ofList, each c (.head _), ?_⟩
    exact fun other member => digitNumeral other (each other (.tail _ member))
  | @pointed whole fraction isDigits isFraction =>
    obtain ⟨nonempty, each⟩ := isDigits
    obtain ⟨c, more, rfl⟩ := List.exists_cons_of_ne_nil nonempty
    refine ⟨c, more ++ '.' :: fraction, String.toList_ofList, each c (.head _), ?_⟩
    intro other member
    rcases List.mem_append.mp member with inWhole | inFraction
    · exact digitNumeral other (each other (.tail _ inWhole))
    · rcases List.mem_cons.mp inFraction with rfl | inside
      · rfl
      · exact digitNumeral other (isFraction.2 other inside)

theorem cutInto_operand {operand : Operand} (spelled : ∀ token ∈ operand.tokens, token.Spelled) :
    CutInto (verbatim operand.tokens).toList (operand.tokens.map Token.lexeme) Closed ∧
      StartsWith isWordChar (verbatim operand.tokens).toList := by
  cases operand with
  | number digits =>
    have text : verbatim (Operand.number digits).tokens = digits := by
      simp [verbatim, Operand.tokens, Token.text]
    have numeral : Numeral digits := spelled (.number digits) (.head _)
    obtain ⟨c, more, cons, digit, numerals⟩ := exists_cons_of_numeral numeral
    have same : String.ofList (c :: more) = digits := by rw [← cons, String.ofList_toList]
    rw [text, cons]
    refine ⟨fun rest closed => ?_, c, more, rfl, by simp [isWordChar, digit]⟩
    have read := lexemes_number digit numerals closed
    rwa [same] at read
  | name name =>
    have text : verbatim (Operand.name name).tokens = name := by
      simp [verbatim, Operand.tokens, Token.text]
    have letters : Name name := spelled (.name name) (.head _)
    obtain ⟨c, more, cons⟩ := List.exists_cons_of_ne_nil letters.nonempty
    have same : String.ofList (c :: more) = name := by rw [← cons, String.ofList_toList]
    have each : ∀ other ∈ c :: more, isLetter other = true := by
      intro other member
      simp [isLetter, letters.letters other (cons ▸ member)]
    rw [text, cons]
    refine ⟨fun rest closed => ?_, c, more, rfl, by simp [isWordChar, each c (.head _)]⟩
    have inWord : ∀ other ∈ more, isWordChar other = true := by
      intro other member
      simp [isWordChar, each other (.tail _ member)]
    have read := lexemes_word (each c (.head _)) inWord closed
    rwa [same] at read

/-- What may follow a plus or minus: an operand, or a space. -/
def isPlain (c : Char) : Bool :=
  isWordChar c || isSpace c

/-- What may follow any other operator. -/
def startsFactor (c : Char) : Bool :=
  isWordChar c || c = '+' || c = '-'

theorem cutInto_punctuator (c : Char) (more : List Char) {test : Char → Bool}
    (member : String.ofList (c :: more) ∈ punctuators) (short : more.length ≤ 1)
    (notPoint : c ≠ '.') (parts : ∀ next, test next = true → Parts (c :: more) next) :
    CutInto (c :: more) [.punctuator (String.ofList (c :: more))] (StartsWith test) := by
  rintro _ ⟨next, rest, rfl, starts⟩
  exact lexemes_punctuator member (parts next starts) short notPoint

private theorem parts_of_startsFactor {op : List Char} (plus : Parts op '+') (minus : Parts op '-')
    (next : Char) (starts : startsFactor next = true) : Parts op next := by
  simp only [startsFactor, Bool.or_eq_true, decide_eq_true_eq] at starts
  rcases starts with (inWord | rfl) | rfl
  · exact parts_of_isWordChar (.inl inWord)
  · exact plus
  · exact minus

theorem cutInto_sign (sign : Sign) :
    CutInto (verbatim [signToken sign]).toList [(signToken sign).lexeme] (StartsWith isPlain) := by
  have parts : ∀ op next, isPlain next = true → Parts op next :=
    fun op next plain => parts_of_isWordChar (by simpa [isPlain] using plain)
  cases sign with
  | plus => exact cutInto_punctuator '+' [] (by decide) (by decide) (by decide) (parts _)
  | minus => exact cutInto_punctuator '-' [] (by decide) (by decide) (by decide) (parts _)

theorem cutInto_operator (c : Char) (more : List Char)
    (operator : String.ofList (c :: more) ∈ punctuators ∧ more.length ≤ 1 ∧ c ≠ '.' ∧
      Parts (c :: more) '+' ∧ Parts (c :: more) '-') :
    CutInto (c :: more) [.punctuator (String.ofList (c :: more))] (StartsWith startsFactor) := by
  obtain ⟨member, short, notPoint, plus, minus⟩ := operator
  exact cutInto_punctuator c more member short notPoint (parts_of_startsFactor plus minus)

theorem cutInto_scaling (scaling : Scaling) :
    CutInto (verbatim [scalingToken scaling]).toList [(scalingToken scaling).lexeme]
      (StartsWith startsFactor) := by
  cases scaling with
  | multiply => exact cutInto_operator '*' [] (by decide)
  | divide => exact cutInto_operator '/' [] (by decide)

theorem cutInto_comparison (comparison : Comparison) :
    CutInto (verbatim [comparisonToken comparison]).toList [(comparisonToken comparison).lexeme]
      (StartsWith startsFactor) := by
  cases comparison with
  | equal => exact cutInto_operator '=' ['='] (by decide)
  | notEqual => exact cutInto_operator '!' ['='] (by decide)
  | less => exact cutInto_operator '<' [] (by decide)
  | lessEqual => exact cutInto_operator '<' ['='] (by decide)
  | greater => exact cutInto_operator '>' [] (by decide)
  | greaterEqual => exact cutInto_operator '>' ['='] (by decide)

private theorem closed_operator (op : Operator) (rest : List Char) :
    Closed ((verbatim [.operator op]).toList ++ rest) := by
  have spelled : ∃ c more, op.spelling.toList = c :: more ∧ continuesOperand c = false := by
    rcases op with _ | sign | scaling | comparison
    · exact ⟨_, _, rfl, rfl⟩
    · cases sign <;> exact ⟨_, _, rfl, rfl⟩
    · cases scaling <;> exact ⟨_, _, rfl, rfl⟩
    · cases comparison <;> exact ⟨_, _, rfl, rfl⟩
  obtain ⟨c, more, text, stops⟩ := spelled
  simp only [verbatim_cons, verbatim_nil, String.append_empty, Token.text, text, List.cons_append]
  exact stops_cons.mpr stops

theorem cutInto_space : CutInto [' '] [] fun _ => True :=
  fun rest _ => lexemes_space rfl rest

end CLanguage

/-! ## Trees -/

namespace Grammar

open CLanguage

def lexemesOf (tokens : List Token) : List Lexeme :=
  tokens.map Token.lexeme

/-- A tree's text with what it is cut into; its first character may follow any operator, and if the
tree has no sign in front it may follow a plus or minus too. -/
structure Lexes (text : String) (tokens : List Token) (signed : Bool) : Prop where
  cut : CutInto text.toList (lexemesOf tokens) Closed
  starts : StartsWith startsFactor text.toList
  unsigned : signed = false → StartsWith isPlain text.toList

theorem Lexes.lexemes_eq {text : String} {tokens : List Token} {signed : Bool}
    (lexes : Lexes text tokens signed) : lexemes text.toList = lexemesOf tokens := by
  have cut := lexes.cut [] (stops_nil _)
  rw [List.append_nil] at cut
  simpa [lexemes] using cut

theorem lexes_factor {factor : Factor} (spelled : ∀ token ∈ factor.tokens, token.Spelled) :
    Lexes (verbatim factor.tokens) factor.tokens factor.sign.isSome := by
  obtain ⟨sign, operand⟩ := factor
  cases sign with
  | none =>
    obtain ⟨cut, starts⟩ := cutInto_operand spelled
    exact
      { cut := cut
        starts := starts.mono fun c inWord => by simp [startsFactor, inWord]
        unsigned := fun _ => starts.mono fun c inWord => by simp [isPlain, inWord] }
  | some sign =>
    obtain ⟨cut, starts⟩ := cutInto_operand fun token member => spelled token (.tail _ member)
    have plain : StartsWith isPlain _ := starts.mono fun c inWord => by simp [isPlain, inWord]
    have whole := (cutInto_sign sign).append cut fun rest _ => plain.append rest
    have text : (verbatim [signToken sign]).toList ++ (verbatim operand.tokens).toList =
        (verbatim (Factor.mk (some sign) operand).tokens).toList := by
      simp [Factor.tokens]
    rw [text] at whole
    refine ⟨whole, ?_, by simp⟩
    cases sign with
    | plus => exact ⟨'+', _, text.symm, rfl⟩
    | minus => exact ⟨'-', _, text.symm, rfl⟩

/-- A tree and rounds after it, each an operator with what follows it. -/
theorem Lexes.chain {op item : Type} {mark : op → Operator} {word : item → List Token}
    {text : String} {signed : Bool} {chain : Chain op item}
    (first : Lexes text (word chain.first) signed) (follow : op × item → String)
    (each : ∀ round ∈ chain.rest,
      CutInto (verbatim [.operator (mark round.1)] ++ follow round).toList
        (lexemesOf (.operator (mark round.1) :: word round.2)) Closed) :
    Lexes
      (text ++ String.join (chain.rest.map fun round =>
        verbatim [.operator (mark round.1)] ++ follow round))
      (chain.spell (fun op => .operator (mark op)) word) signed := by
  let roundText (round : op × item) : List Char :=
    (verbatim [.operator (mark round.1)] ++ follow round).toList
  have starts : ∀ round rest, Closed (roundText round ++ rest) := by
    intro round rest
    simp only [roundText, String.toList_append, List.append_assoc]
    exact closed_operator _ _
  have texts : (text ++ String.join (chain.rest.map fun round =>
      verbatim [.operator (mark round.1)] ++ follow round)).toList =
      text.toList ++ chain.rest.flatMap roundText := by
    simp only [String.toList_append, String.toList_join, List.flatMap_map, roundText]
  have found : lexemesOf (chain.spell (fun op => .operator (mark op)) word) =
      lexemesOf (word chain.first) ++
        chain.rest.flatMap fun round => lexemesOf (.operator (mark round.1) :: word round.2) := by
    simp [lexemesOf, Chain.spell, List.map_flatMap]
  constructor
  · rw [texts, found]
    exact first.cut.append (cutInto_flatMap each starts) fun rest closed =>
      closed_flatMap starts chain.rest closed
  · rw [texts]
    exact first.starts.append _
  · intro unsigned
    rw [texts]
    exact (first.unsigned unsigned).append _

/-- An operator that a factor may follow, and the tree after it. -/
theorem Lexes.cut_operator {text : String} {tokens : List Token} {signed : Bool} {op : Token}
    (operand : Lexes text tokens signed)
    (operator : CutInto (verbatim [op]).toList [op.lexeme] (StartsWith startsFactor)) :
    CutInto (verbatim [op] ++ text).toList (lexemesOf (op :: tokens)) Closed := by
  rw [String.toList_append]
  exact operator.append operand.cut fun rest _ => operand.starts.append rest

theorem mem_spell_of_mem_items {op item τ : Type} {mark : op → τ} {word : item → List τ}
    {chain : Chain op item} {single : item} (inside : single ∈ chain.items) {token : τ}
    (member : token ∈ word single) : token ∈ chain.spell mark word := by
  rcases List.mem_cons.mp inside with rfl | later
  · exact List.mem_append_left _ member
  · obtain ⟨round, inRest, rfl⟩ := List.mem_map.mp later
    exact List.mem_append_right _ (List.mem_flatMap.mpr ⟨round, inRest, .tail _ member⟩)

theorem mem_items_of_mem_rest {op item : Type} {chain : Chain op item} {round : op × item}
    (inside : round ∈ chain.rest) : round.2 ∈ chain.items :=
  .tail _ (List.mem_map.mpr ⟨round, inside, rfl⟩)

theorem lexes_term {term : Term} (spelled : ∀ token ∈ Term.tokens term, token.Spelled) :
    Lexes (Term.cText term) (Term.tokens term) (Term.isSigned term) := by
  have factors : ∀ factor ∈ term.items, ∀ token ∈ factor.tokens, token.Spelled :=
    fun factor inside token member => spelled token (mem_spell_of_mem_items inside member)
  have whole := (lexes_factor (factors term.first (.head _))).chain
    (fun round => verbatim round.2.tokens) fun round inside =>
      (lexes_factor (factors round.2 (mem_items_of_mem_rest inside))).cut_operator
        (cutInto_scaling round.1)
  have text : Term.cText term = verbatim term.first.tokens ++
      String.join (term.rest.map fun round =>
        verbatim [scalingToken round.1] ++ verbatim round.2.tokens) := by
    simp [Term.cText, Term.tokens, Chain.spell, verbatim_flatMap]
  rw [text]
  exact whole

private theorem cutInto_round {round : Sign × Term}
    (spelled : ∀ token ∈ Term.tokens round.2, token.Spelled) :
    CutInto (Expression.cRound round).toList (lexemesOf (signToken round.1 :: Term.tokens round.2))
      Closed := by
  have term := lexes_term spelled
  have sign := cutInto_sign round.1
  rw [Expression.cRound, String.toList_append, String.toList_append]
  cases signed : Term.isSigned round.2 with
  | true =>
    have spaced := cutInto_space.append term.cut fun _ _ => trivial
    exact sign.append spaced fun rest _ => ⟨' ', _, rfl, rfl⟩
  | false =>
    have plain := term.unsigned signed
    have next := sign.append term.cut fun rest _ => plain.append rest
    simpa [lexemesOf] using next

theorem lexes_expression {expression : Expression}
    (spelled : ∀ token ∈ Expression.tokens expression, token.Spelled) :
    Lexes (Expression.cText expression) (Expression.tokens expression)
      (Term.isSigned expression.first) := by
  have terms : ∀ term ∈ expression.items, ∀ token ∈ Term.tokens term, token.Spelled :=
    fun term inside token member => spelled token (mem_spell_of_mem_items inside member)
  exact (lexes_term (terms expression.first (.head _))).chain
    (fun round => (if Term.isSigned round.2 then " " else "") ++ Term.cText round.2)
    fun round inside => cutInto_round (terms round.2 (mem_items_of_mem_rest inside))

theorem lexes_condition {condition : Condition}
    (spelled : ∀ token ∈ condition.tokens, token.Spelled) :
    Lexes condition.cText condition.tokens (Term.isSigned condition.chain.first.first) := by
  have expressions : ∀ expression ∈ condition.chain.items,
      ∀ token ∈ Expression.tokens expression, token.Spelled :=
    fun expression inside token member => spelled token (mem_spell_of_mem_items inside member)
  exact (lexes_expression (expressions condition.chain.first (.head _))).chain
    (fun round => Expression.cText round.2) fun round inside =>
      (lexes_expression (expressions round.2 (mem_items_of_mem_rest inside))).cut_operator
        (cutInto_comparison round.1)

end Grammar

end TeenyBasic
