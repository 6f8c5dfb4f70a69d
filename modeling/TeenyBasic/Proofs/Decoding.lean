import TeenyBasic.Proofs.EmittedLexemes
import TeenyBasic.Proofs.Grammar.Unambiguous
import TeenyBasic.Proofs.Lexemes

/-!
The C text of a program determines the program. The text falls into its lines, and the first word of a
line together with what follows the word tells which statement the line comes from (`LineSort`). A
statement is then read off its lines: names are runs of letters, and expressions are cut into the
lexemes of their tokens. Only the end of a block does not tell which block it ends; that is known from
the blocks that are open.
-/

set_option autoImplicit false

namespace TeenyBasic

open Grammar CLanguage

/-! ## Expressions -/

private theorem Operator.spelling_inj {first second : Operator}
    (same : first.spelling = second.spelling) : first = second := by
  have read := Cursor.read?_spelling first (stops_nil _)
  rw [same, Cursor.read?_spelling second (stops_nil _)] at read
  cases read
  rfl

private theorem Token.lexeme_inj {first second : Token} (firstInside : inExpression first = true)
    (secondInside : inExpression second = true) (same : first.lexeme = second.lexeme) :
    first = second := by
  cases first with
  | number =>
    cases second with
    | number => cases same; rfl
    | name | operator => cases same
    | _ => cases secondInside
  | name =>
    cases second with
    | name => cases same; rfl
    | number | operator => cases same
    | _ => cases secondInside
  | operator =>
    cases second with
    | operator => rw [Operator.spelling_inj (Lexeme.punctuator.inj same)]
    | number | name => cases same
    | _ => cases secondInside
  | _ => cases firstInside

namespace Grammar

theorem lexemesOf_inj {first second : List Token}
    (firstInside : ∀ token ∈ first, inExpression token = true)
    (secondInside : ∀ token ∈ second, inExpression token = true)
    (same : lexemesOf first = lexemesOf second) : first = second := by
  induction first generalizing second with
  | nil =>
    cases second with
    | nil => rfl
    | cons => cases same
  | cons token tokens ih =>
    cases second with
    | nil => cases same
    | cons other others =>
      obtain ⟨sameHead, sameTail⟩ := List.cons.inj same
      rw [Token.lexeme_inj (firstInside token (.head _)) (secondInside other (.head _)) sameHead,
        ih (fun token member => firstInside token (.tail _ member))
          (fun token member => secondInside token (.tail _ member)) sameTail]

private theorem Expression.cText_inj {first second : Expression}
    (firstSpelled : ∀ token ∈ Expression.tokens first, token.Spelled)
    (secondSpelled : ∀ token ∈ Expression.tokens second, token.Spelled)
    (same : Expression.cText first = Expression.cText second) : first = second := by
  have sameLexemes := (lexes_expression firstSpelled).lexemes_eq
  rw [same, (lexes_expression secondSpelled).lexemes_eq] at sameLexemes
  refine separable_expression.injective (lexemesOf_inj ?_ ?_ sameLexemes.symm)
  · exact fun _ => Expression.inExpression_of_mem
  · exact fun _ => Expression.inExpression_of_mem

private theorem Condition.cText_inj {first second : Condition}
    (firstSpelled : ∀ token ∈ first.tokens, token.Spelled)
    (secondSpelled : ∀ token ∈ second.tokens, token.Spelled)
    (same : first.cText = second.cText) : first = second := by
  have sameLexemes := (lexes_condition firstSpelled).lexemes_eq
  rw [same, (lexes_condition secondSpelled).lexemes_eq] at sameLexemes
  refine separable_condition.injective (lexemesOf_inj ?_ ?_ sameLexemes.symm)
  · exact fun _ => Condition.inExpression_of_mem
  · exact fun _ => Condition.inExpression_of_mem

/-! ## Sorts of lines -/

/-- What a line of C can come from. -/
inductive LineSort where
  | text | value | label | jump | assignment | input | random
  | opening (block : Block)
  | closing | declaration | ending
  deriving DecidableEq, Repr

namespace LineSort

/-- The sort of a line of C by the word it starts with and the rest of the line. -/
def ofWord (word rest : List Char) : LineSort :=
  if word = "printf".toList then
    if rest.take 3 = ['(', '"', '%'] then .value else .text
  else if word = "goto".toList then .jump
  else if word = "srand".toList then .random
  else if word = "if".toList then
    if rest.reverse.take 2 = ['\x7b', ' '] then .input else .opening .conditional
  else if word = "while".toList then .opening .loop
  else if word = "float".toList then .declaration
  else if word = [] then .closing
  else .ending

/-- A line that starts with a name of the program is told by what follows the name. -/
def ofParts (word rest : List Char) : LineSort :=
  if rest = [':'] then .label
  else if rest.take 2 = [' ', '='] then .assignment
  else ofWord word rest

def ofText (text : String) : LineSort :=
  ofParts (text.toList.takeWhile Char.isAlpha) (text.toList.dropWhile Char.isAlpha)

theorem ofText_eq {text : String} (word rest : List Char) (split : text.toList = word ++ rest)
    (letters : ∀ c ∈ word, c.isAlpha = true) (stops : Stops Char.isAlpha rest) :
    ofText text = ofParts word rest := by
  rw [ofText, split, stops.takeWhile_append letters, stops.dropWhile_append letters]

theorem ofText_named {text name : String} (word : List Char)
    (split : text.toList = word ++ ' ' :: (name.toList ++ [';']))
    (letters : ∀ c ∈ word, c.isAlpha = true) (isName : Name name) :
    ofText text = ofWord word (' ' :: (name.toList ++ [';'])) := by
  obtain ⟨c, more, cons, letter⟩ := isName.exists_cons
  have notEqual : c ≠ '=' := by
    rintro rfl
    cases letter
  rw [ofText_eq word (' ' :: (name.toList ++ [';'])) split letters (stops_cons.mpr rfl)]
  simp [ofParts, cons, notEqual]

private theorem ofText_opening (block : Block) (condition : Condition) :
    ofText (cOpening block condition) = .opening block := by
  cases block with
  | conditional =>
    rw [cOpening, ofText_eq "if".toList ('(' :: (condition.cText.toList ++ [')', '\x7b']))
      (by simp) (List.all_eq_true.mp (by decide)) (stops_cons.mpr rfl)]
    simp [ofParts, ofWord]
  | loop =>
    rw [cOpening, ofText_eq "while".toList ('(' :: (condition.cText.toList ++ [')', '\x7b']))
      (by simp) (List.all_eq_true.mp (by decide)) (stops_cons.mpr rfl)]
    simp [ofParts, ofWord]

end LineSort

def Simple.sort : Simple → LineSort
  | .printText _ => .text
  | .printValue _ => .value
  | .label _ => .label
  | .goto _ => .jump
  | .assign _ _ => .assignment
  | .input _ => .input
  | .random _ => .random

/-- The sort of the first line of C that a line becomes. -/
def Line.sort : Line → LineSort
  | .simple statement => statement.sort
  | .opening block _ => .opening block
  | .closing _ => .closing

def Line.cLines : Line → List String
  | .simple statement => statement.cLines
  | .opening block condition => [cOpening block condition]
  | .closing _ => ["\x7d"]

/-- What the line leaves open is spelled as in a text. -/
def Line.Spelled (line : Line) : Prop :=
  ∀ token ∈ line.tokens, token.Spelled

open LineSort in
private theorem Simple.exists_head {statement : Simple} (spelled : (Line.simple statement).Spelled) :
    ∃ head others, statement.cLines = head :: others ∧ ofText head = statement.sort := by
  cases statement with
  | printText body =>
    have legal : ∀ c ∈ body.toList, isStringBody c = true :=
      spelled (.string body) (by simp [Line.tokens, Simple.tokens])
    refine ⟨_, _, rfl, ?_⟩
    rw [ofText_eq "printf".toList ('(' :: '"' :: (body.toList ++ ['\\', 'n', '"', ')', ';']))
      (by simp) (List.all_eq_true.mp (by decide)) (stops_cons.mpr rfl)]
    cases text : body.toList with
    | nil => simp [ofParts, ofWord, Simple.sort]
    | cons c more =>
      have notPercent : c ≠ '%' := by
        rintro rfl
        exact absurd (legal '%' (text ▸ .head _)) (by decide)
      simp [ofParts, ofWord, Simple.sort, notPercent]
  | printValue value =>
    refine ⟨_, _, rfl, ?_⟩
    rw [ofText_eq "printf".toList
      ("(\"%.2f\\n\", (float)(".toList ++ ((Expression.cText value).toList ++ "));".toList))
      (by simp) (List.all_eq_true.mp (by decide)) (stops_cons.mpr rfl)]
    rfl
  | label name =>
    have isName : Name name := spelled (.name name) (by simp [Line.tokens, Simple.tokens])
    refine ⟨_, _, rfl, ?_⟩
    rw [ofText_eq name.toList [':'] (by simp) isName.letters (stops_cons.mpr rfl)]
    rfl
  | goto name =>
    have isName : Name name := spelled (.name name) (by simp [Line.tokens, Simple.tokens])
    refine ⟨_, _, rfl, ?_⟩
    rw [ofText_named "goto".toList (by simp) (List.all_eq_true.mp (by decide)) isName]
    rfl
  | assign name value =>
    have isName : Name name := spelled (.name name) (by simp [Line.tokens, Simple.tokens])
    refine ⟨_, _, rfl, ?_⟩
    rw [ofText_eq name.toList (' ' :: '=' :: ' ' :: ((Expression.cText value).toList ++ [';']))
      (by simp) isName.letters (stops_cons.mpr rfl)]
    rfl
  | input name =>
    refine ⟨_, _, rfl, ?_⟩
    rw [ofText_eq "if".toList ("(0 == scanf(\"%f\", &".toList ++ (name.toList ++ ")) \x7b".toList))
      (by simp) (List.all_eq_true.mp (by decide)) (stops_cons.mpr rfl)]
    simp [ofParts, ofWord, Simple.sort]
  | random name => exact ⟨_, _, rfl, (by decide : ofText "srand(time(0));" = .random)⟩

/-- What stands around the lines of a program is of no line's sort. -/
theorem Line.sort_ne (line : Line) : line.sort ≠ .declaration ∧ line.sort ≠ .ending := by
  cases line with
  | simple statement => cases statement <;> simp [Line.sort, Simple.sort]
  | _ => simp [Line.sort]

theorem Line.exists_head {line : Line} (spelled : line.Spelled) :
    ∃ head others, line.cLines = head :: others ∧ LineSort.ofText head = line.sort := by
  cases line with
  | simple statement => exact Simple.exists_head spelled
  | opening block condition => exact ⟨_, _, rfl, LineSort.ofText_opening block condition⟩
  | closing block => exact ⟨_, _, rfl, (by decide : LineSort.ofText "\x7d" = .closing)⟩

/-! ## One line each -/

def OneLine (text : String) : Prop :=
  '\n' ∉ text.toList

instance (text : String) : Decidable (OneLine text) :=
  inferInstanceAs (Decidable (¬ _))

theorem oneLine_append {front back : String} :
    OneLine (front ++ back) ↔ OneLine front ∧ OneLine back := by
  simp [OneLine]

theorem oneLine_join {texts : List String} :
    OneLine (String.join texts) ↔ ∀ text ∈ texts, OneLine text := by
  simp [OneLine, String.toList_join]

theorem oneLine_of_name {name : String} (isName : Name name) : OneLine name := by
  intro member
  exact absurd (isName.letters _ member) (by decide)

theorem oneLine_of_inExpression {token : Token} (spelled : token.Spelled)
    (inside : inExpression token = true) : OneLine token.text := by
  intro member
  have written : '\n' ∈ token.written := by
    cases token with
    | string => cases inside
    | _ => exact member
  rw [spelled.eq_newline written] at inside
  cases inside

theorem oneLine_verbatim {tokens : List Token} (spelled : ∀ token ∈ tokens, token.Spelled)
    (inside : ∀ token ∈ tokens, inExpression token = true) : OneLine (verbatim tokens) := by
  rw [verbatim, oneLine_join]
  simp only [List.forall_mem_map]
  exact fun token member => oneLine_of_inExpression (spelled token member) (inside token member)

theorem Expression.oneLine_cText {expression : Expression}
    (spelled : ∀ token ∈ Expression.tokens expression, token.Spelled) :
    OneLine (Expression.cText expression) := by
  have terms : ∀ term ∈ expression.items, OneLine (Term.cText term) := fun term inside =>
    oneLine_verbatim (fun token member => spelled token (mem_spell_of_mem_items inside member))
      fun _ => Term.inExpression_of_mem
  simp only [Expression.cText, oneLine_append, oneLine_join, List.forall_mem_map]
  refine ⟨terms _ (.head _), fun round inside => ?_⟩
  have sign : OneLine (verbatim [signToken round.1]) :=
    oneLine_verbatim (by simp [signToken, Token.Spelled]) (by simp [signToken, inExpression])
  have gap : OneLine (if Term.isSigned round.2 then " " else "") := by
    split <;> decide
  rw [Expression.cRound, oneLine_append, oneLine_append]
  exact ⟨sign, gap, terms _ (mem_items_of_mem_rest inside)⟩

private theorem Condition.oneLine_cText {condition : Condition}
    (spelled : ∀ token ∈ condition.tokens, token.Spelled) : OneLine condition.cText := by
  have expressions : ∀ expression ∈ condition.chain.items, OneLine (Expression.cText expression) :=
    fun expression inside => Expression.oneLine_cText fun token member =>
      spelled token (mem_spell_of_mem_items inside member)
  simp only [Condition.cText, oneLine_append, oneLine_join, List.forall_mem_map]
  refine ⟨expressions _ (.head _), fun round inside => ?_⟩
  refine ⟨?_, expressions _ (mem_items_of_mem_rest inside)⟩
  exact oneLine_verbatim (by simp [comparisonToken, Token.Spelled])
    (by simp [comparisonToken, inExpression])

/-- Lines of one line each are determined by their text. -/
theorem linesText_inj {first second : List String} (firstLines : ∀ line ∈ first, OneLine line)
    (secondLines : ∀ line ∈ second, OneLine line) (same : linesText first = linesText second) :
    first = second := by
  induction first generalizing second with
  | nil =>
    cases second with
    | nil => rfl
    | cons =>
      have sameTexts := congrArg String.toList same
      simp at sameTexts
  | cons line lines ih =>
    cases second with
    | nil =>
      have sameTexts := congrArg String.toList same
      simp at sameTexts
    | cons other others =>
      have sameTexts : line.toList ++ '\n' :: (linesText lines).toList =
          other.toList ++ '\n' :: (linesText others).toList := by
        simpa using congrArg String.toList same
      have inLine : ∀ {text : String}, OneLine text → ∀ c ∈ text.toList, (c != '\n') = true := by
        intro text oneLine c member
        rw [bne_iff_ne]
        rintro rfl
        exact oneLine member
      have stops : ∀ rest, Stops (· != '\n') ('\n' :: rest) := fun _ => stops_cons.mpr rfl
      obtain ⟨sameLine, sameRest⟩ := (stops _).append_inj (inLine (firstLines line (.head _)))
        (stops _) (inLine (secondLines other (.head _))) sameTexts
      rw [String.toList_inj.mp sameLine,
        ih (fun line member => firstLines line (.tail _ member))
          (fun line member => secondLines line (.tail _ member))
          (String.toList_inj.mp (List.cons.inj sameRest).2)]

theorem Simple.oneLine_cLines {statement : Simple} (spelled : (Line.simple statement).Spelled) :
    ∀ text ∈ statement.cLines, OneLine text := by
  have named : ∀ {name : String}, .name name ∈ statement.tokens → OneLine name :=
    fun member => oneLine_of_name (spelled _ member)
  cases statement with
  | printText body =>
    have legal : ∀ c ∈ body.toList, isStringBody c = true :=
      spelled (.string body) (.tail _ (.head _))
    have inside : OneLine body := fun member => absurd (legal _ member) (by decide)
    simp only [Simple.cLines, List.forall_mem_singleton, oneLine_append]
    exact ⟨⟨by decide, inside⟩, by decide⟩
  | printValue value =>
    have inside := Expression.oneLine_cText fun token member => spelled token (.tail _ member)
    simp only [Simple.cLines, List.forall_mem_singleton, oneLine_append]
    exact ⟨⟨by decide, inside⟩, by decide⟩
  | label name =>
    have inside : OneLine name := named (.tail _ (.head _))
    simp only [Simple.cLines, List.forall_mem_singleton, oneLine_append]
    exact ⟨inside, by decide⟩
  | goto name =>
    have inside : OneLine name := named (.tail _ (.head _))
    simp only [Simple.cLines, List.forall_mem_singleton, oneLine_append]
    exact ⟨⟨by decide, inside⟩, by decide⟩
  | assign name value =>
    have target : OneLine name := named (.tail _ (.head _))
    have inside := Expression.oneLine_cText fun token member =>
      spelled token (.tail _ (.tail _ (.tail _ member)))
    simp only [Simple.cLines, List.forall_mem_singleton, oneLine_append]
    exact ⟨⟨⟨target, by decide⟩, inside⟩, by decide⟩
  | input name =>
    have inside : OneLine name := named (.tail _ (.head _))
    simp only [Simple.cLines, List.forall_mem_cons, oneLine_append]
    exact ⟨⟨⟨by decide, inside⟩, by decide⟩, ⟨inside, by decide⟩, by decide⟩
  | random name =>
    have inside : OneLine name := named (.tail _ (.head _))
    simp only [Simple.cLines, List.forall_mem_cons, oneLine_append]
    exact ⟨by decide, ⟨⟨by decide, inside⟩, by decide⟩, List.forall_mem_nil _⟩

theorem Line.oneLine_cLines {line : Line} (spelled : line.Spelled) :
    ∀ text ∈ line.cLines, OneLine text := by
  cases line with
  | simple statement => exact Simple.oneLine_cLines spelled
  | opening block condition =>
    have inside : OneLine condition.cText := Condition.oneLine_cText fun token member =>
      spelled token (.tail _ (List.mem_append_left _ member))
    rw [Line.cLines, List.forall_mem_singleton]
    cases block <;> simp only [cOpening, oneLine_append] <;> exact ⟨⟨by decide, inside⟩, by decide⟩
  | closing block =>
    rw [Line.cLines, List.forall_mem_singleton]
    decide

/-! ## Statements from lines -/

/-- A statement of a known sort is determined by its lines, wherever they end. -/
theorem Simple.cLines_append_inj {first second : Simple} {restFirst restSecond : List String}
    (firstSpelled : (Line.simple first).Spelled) (secondSpelled : (Line.simple second).Spelled)
    (sameSort : first.sort = second.sort)
    (same : first.cLines ++ restFirst = second.cLines ++ restSecond) :
    first = second ∧ restFirst = restSecond := by
  cases first with
  | printText =>
    cases second with
    | printText => simpa [Simple.cLines] using same
    | _ => cases sameSort
  | printValue value =>
    cases second with
    | printValue other =>
      obtain ⟨sameText, sameRest⟩ : Expression.cText value = Expression.cText other ∧
          restFirst = restSecond := by simpa [Simple.cLines] using same
      have sameValue := Expression.cText_inj
        (fun token member => firstSpelled token (.tail _ member))
        (fun token member => secondSpelled token (.tail _ member)) sameText
      exact ⟨by rw [sameValue], sameRest⟩
    | _ => cases sameSort
  | label =>
    cases second with
    | label => simpa [Simple.cLines] using same
    | _ => cases sameSort
  | goto =>
    cases second with
    | goto => simpa [Simple.cLines] using same
    | _ => cases sameSort
  | assign name value =>
    cases second with
    | assign other otherValue =>
      obtain ⟨sameLine, sameRest⟩ := List.cons.inj same
      have sameTexts :
          name.toList ++ ' ' :: '=' :: ' ' :: ((Expression.cText value).toList ++ [';']) =
          other.toList ++ ' ' :: '=' :: ' ' :: ((Expression.cText otherValue).toList ++ [';']) := by
        simpa using congrArg String.toList sameLine
      have isName : Name name := firstSpelled (.name name) (.tail _ (.head _))
      have otherName : Name other := secondSpelled (.name other) (.tail _ (.head _))
      obtain ⟨sameName, sameValue⟩ := (stops_cons.mpr rfl : Stops Char.isAlpha _).append_inj
        isName.letters (stops_cons.mpr rfl) otherName.letters sameTexts
      have sameExpression := Expression.cText_inj
        (fun token member => firstSpelled token (.tail _ (.tail _ (.tail _ member))))
        (fun token member => secondSpelled token (.tail _ (.tail _ (.tail _ member))))
        (by simpa [String.toList_inj] using sameValue)
      exact ⟨by rw [String.toList_inj.mp sameName, sameExpression], sameRest⟩
    | _ => cases sameSort
  | input =>
    cases second with
    | input => simpa [Simple.cLines] using same
    | _ => cases sameSort
  | random =>
    cases second with
    | random => simpa [Simple.cLines] using same
    | _ => cases sameSort

/-- A line is determined by its lines of C, but for the block that it may end. -/
theorem Line.cLines_append_inj {first second : Line} {restFirst restSecond : List String}
    (firstSpelled : first.Spelled) (secondSpelled : second.Spelled)
    (same : first.cLines ++ restFirst = second.cLines ++ restSecond) :
    (first = second ∨ first.isClosing = true ∧ second.isClosing = true) ∧
      restFirst = restSecond := by
  have sameSort : first.sort = second.sort := by
    obtain ⟨head, others, firstLines, firstSort⟩ := Line.exists_head firstSpelled
    obtain ⟨_, _, secondLines, secondSort⟩ := Line.exists_head secondSpelled
    rw [firstLines, secondLines] at same
    rw [← firstSort, ← secondSort, (List.cons.inj same).1]
  cases first with
  | simple statement =>
    cases second with
    | simple other =>
      obtain ⟨rfl, sameRest⟩ :=
        Simple.cLines_append_inj firstSpelled secondSpelled sameSort same
      exact ⟨.inl rfl, sameRest⟩
    | opening => cases statement <;> cases sameSort
    | closing => cases statement <;> cases sameSort
  | opening block condition =>
    cases second with
    | simple other => cases other <;> cases sameSort
    | opening otherBlock otherCondition =>
      obtain rfl : block = otherBlock := LineSort.opening.inj sameSort
      obtain ⟨sameLine, sameRest⟩ := List.cons.inj same
      have sameText : condition.cText = otherCondition.cText := by
        cases block <;> simpa [cOpening] using sameLine
      have sameCondition := Condition.cText_inj
        (fun token member => firstSpelled token (.tail _ (List.mem_append_left _ member)))
        (fun token member => secondSpelled token (.tail _ (List.mem_append_left _ member))) sameText
      exact ⟨.inl (by rw [sameCondition]), sameRest⟩
    | closing => cases sameSort
  | closing =>
    cases second with
    | simple other => cases other <;> cases sameSort
    | opening => cases sameSort
    | closing => exact ⟨.inr ⟨rfl, rfl⟩, (List.cons.inj same).2⟩

private theorem Line.Leads.eq_of_isClosing {first second : Line} {blocks inner other : List Block}
    (firstLeads : first.Leads blocks inner) (secondLeads : second.Leads blocks other)
    (firstClosing : first.isClosing = true) (secondClosing : second.isClosing = true) :
    first = second := by
  cases firstLeads with
  | closing =>
    cases secondLeads with
    | closing => rfl
    | _ => cases secondClosing
  | _ => cases firstClosing

/-- Lines inside the same open blocks that end the blocks and the program are determined by their lines
of C. -/
theorem Nested.eq_of_cLines {blocks : List Block} {first second : List Line}
    (firstNested : Nested blocks first) (secondNested : Nested blocks second)
    (firstSpelled : ∀ line ∈ first, line.Spelled) (secondSpelled : ∀ line ∈ second, line.Spelled)
    {ending : List String}
    (ends : ∃ head others, ending = head :: others ∧ LineSort.ofText head = .ending)
    (same : first.flatMap Line.cLines ++ ending = second.flatMap Line.cLines ++ ending) :
    first = second := by
  have notEnding : ∀ {line : Line} {rest : List String}, line.Spelled →
      line.cLines ++ rest ≠ ending := by
    intro line rest spelled equal
    obtain ⟨head, others, rfl, isEnding⟩ := ends
    obtain ⟨_, _, lines, sort⟩ := Line.exists_head spelled
    rw [lines] at equal
    rw [(List.cons.inj equal).1, isEnding] at sort
    exact line.sort_ne.2 sort.symm
  induction firstNested generalizing second with
  | done =>
    cases second with
    | nil => rfl
    | cons line lines =>
      rw [List.flatMap_cons, List.append_assoc] at same
      exact absurd same.symm (notEnding (secondSpelled line (.head _)))
  | @cons line blocks inner lines leads nested ih =>
    rw [List.flatMap_cons, List.append_assoc] at same
    cases second with
    | nil => exact absurd same (notEnding (firstSpelled line (.head _)))
    | cons other others =>
      rw [List.flatMap_cons, List.append_assoc] at same
      obtain ⟨sameLine, sameRest⟩ := Line.cLines_append_inj (firstSpelled line (.head _))
        (secondSpelled other (.head _)) same
      cases secondNested with
      | cons otherLeads otherNested =>
        obtain rfl : line = other := by
          rcases sameLine with equal | ⟨closing, otherClosing⟩
          · exact equal
          · exact leads.eq_of_isClosing otherLeads closing otherClosing
        obtain rfl := leads.unique otherLeads
        rw [ih otherNested (fun line member => firstSpelled line (.tail _ member))
          (fun line member => secondSpelled line (.tail _ member)) sameRest]

/-! ## Programs -/

theorem cLinesOf_eq_flatMap : ∀ statements : List Statement,
    cLinesOf statements = (linesOf statements).flatMap Line.cLines
  | [] => rfl
  | .simple statement :: rest => by
    simp [cLinesOf, Statement.cLines, linesOf, Statement.lines, Line.cLines,
      cLinesOf_eq_flatMap rest]
  | .block block condition body :: rest => by
    simp [cLinesOf, Statement.cLines, linesOf, Statement.lines, Line.cLines,
      cLinesOf_eq_flatMap body, cLinesOf_eq_flatMap rest]

private theorem exists_line_of_mem_targetsOf {name : String} : ∀ {statements : List Statement},
    name ∈ targetsOf statements → ∃ line ∈ linesOf statements, .name name ∈ line.tokens
  | .simple statement :: rest, member => by
    rcases List.mem_append.mp member with here | later
    · refine ⟨.simple statement, .head _, ?_⟩
      cases statement <;> simp [Statement.targets] at here <;>
        simp [Line.tokens, Simple.tokens, here]
    · obtain ⟨line, inside, named⟩ := exists_line_of_mem_targetsOf later
      exact ⟨line, List.mem_append_right _ inside, named⟩
  | .block block condition body :: rest, member => by
    rcases List.mem_append.mp member with here | later
    · have inBody : name ∈ targetsOf body := here
      obtain ⟨line, inside, named⟩ := exists_line_of_mem_targetsOf inBody
      exact ⟨line, by simp [linesOf, Statement.lines, inside], named⟩
    · obtain ⟨line, inside, named⟩ := exists_line_of_mem_targetsOf later
      exact ⟨line, List.mem_append_right _ inside, named⟩

def Program.Spelled (program : Program) : Prop :=
  ∀ line ∈ linesOf program.statements, line.Spelled

def Program.declarations (program : Program) : List String :=
  (targetsOf program.statements).eraseDups.map fun name => "float " ++ name ++ ";"

theorem Program.Spelled.name {program : Program} (spelled : program.Spelled) {name : String}
    (member : name ∈ (targetsOf program.statements).eraseDups) : Name name := by
  obtain ⟨line, inside, named⟩ := exists_line_of_mem_targetsOf (List.mem_eraseDups.mp member)
  exact spelled line inside _ named

theorem Program.Spelled.oneLine {program : Program} (spelled : program.Spelled) :
    ∀ text ∈ program.cLines, OneLine text := by
  have declared : ∀ name ∈ (targetsOf program.statements).eraseDups,
      OneLine ("float " ++ name ++ ";") := by
    intro name member
    simp only [oneLine_append]
    exact ⟨⟨by decide, oneLine_of_name (spelled.name member)⟩, by decide⟩
  have body : ∀ text ∈ cLinesOf program.statements, OneLine text := by
    rw [cLinesOf_eq_flatMap]
    intro text member
    obtain ⟨line, inside, inLine⟩ := List.mem_flatMap.mp member
    exact Line.oneLine_cLines (spelled line inside) text inLine
  simp only [Program.cLines, Program.cHeader, List.forall_mem_append, List.forall_mem_map]
  exact ⟨⟨⟨by decide, declared⟩, body⟩, by decide⟩

private theorem Program.Spelled.dropWhile_declarations {program : Program} (spelled : program.Spelled) :
    (program.declarations ++ (cLinesOf program.statements ++ ["return 0;", "\x7d"])).dropWhile
        (fun text => LineSort.ofText text = .declaration) =
      cLinesOf program.statements ++ ["return 0;", "\x7d"] := by
  have stops : Stops (fun text => decide (LineSort.ofText text = .declaration))
      (cLinesOf program.statements ++ ["return 0;", "\x7d"]) := by
    rw [cLinesOf_eq_flatMap]
    cases split : linesOf program.statements with
    | nil => exact stops_cons.mpr (by decide)
    | cons line lines =>
      obtain ⟨head, others, cLines, sort⟩ := Line.exists_head (spelled line (split ▸ .head _))
      rw [List.flatMap_cons, cLines, List.cons_append, List.cons_append]
      exact stops_cons.mpr (decide_eq_false (sort ▸ line.sort_ne.1))
  refine stops.dropWhile_append ?_
  simp only [Program.declarations, List.forall_mem_map, decide_eq_true_eq]
  intro name member
  rw [LineSort.ofText_named "float".toList (by simp) (List.all_eq_true.mp (by decide))
    (spelled.name member)]
  rfl

/-- A program is determined by its C text. -/
theorem Program.cText_inj {first second : Program} (firstSpelled : first.Spelled)
    (secondSpelled : second.Spelled) (same : first.cText = second.cText) : first = second := by
  have sameLines := linesText_inj firstSpelled.oneLine secondSpelled.oneLine same
  have sameBehind : first.declarations ++ (cLinesOf first.statements ++ ["return 0;", "\x7d"]) =
      second.declarations ++ (cLinesOf second.statements ++ ["return 0;", "\x7d"]) := by
    simpa [Program.cLines, Program.cHeader, Program.declarations] using sameLines
  have sameBody := firstSpelled.dropWhile_declarations
  rw [sameBehind, secondSpelled.dropWhile_declarations, cLinesOf_eq_flatMap, cLinesOf_eq_flatMap]
    at sameBody
  have sameStatements := linesOf_injective <|
    (nested_iff_exists_linesOf.mpr ⟨_, rfl⟩).eq_of_cLines (nested_iff_exists_linesOf.mpr ⟨_, rfl⟩)
      firstSpelled secondSpelled ⟨_, _, rfl, by decide⟩ sameBody.symm
  cases first
  cases second
  cases sameStatements
  rfl

end Grammar

end TeenyBasic
