import TeenyBasic.Proofs.Grammar.Lines
import TeenyBasic.Proofs.Grammar.Separable

/-!
The grammar is unambiguous: a token list is derived by at most one tree
(`Program.Derives.unique`). Expressions are told apart token by token, lines by their first word, and
trees by the lines that open and close their blocks.
-/

set_option autoImplicit false

namespace TeenyBasic.Grammar

/-! ## Expressions -/

/-- Whether an expression could go on with the token. -/
def goesOnExpression (token : Token) : Bool :=
  token.kind.isScaling || token.kind.isSign

/-- Whether a condition could go on with the token. -/
def goesOnCondition (token : Token) : Bool :=
  goesOnExpression token || token.kind.isComparison

theorem separable_operand : Separable Operand.tokens fun _ => false := by
  intro first second restFirst restSecond same _ _
  cases first <;> cases second <;> simp_all [Operand.tokens]

theorem separable_factor : Separable Factor.tokens fun _ => false := by
  intro first second restFirst restSecond same stopsFirst stopsSecond
  obtain ⟨firstSign, firstOperand⟩ := first
  obtain ⟨secondSign, secondOperand⟩ := second
  cases firstSign with
  | none =>
    cases secondSign with
    | none =>
      obtain ⟨rfl, sameRest⟩ := separable_operand firstOperand secondOperand restFirst restSecond
        (by simpa [Factor.tokens] using same) stopsFirst stopsSecond
      exact ⟨rfl, sameRest⟩
    | some sign => cases firstOperand <;> simp [Factor.tokens, Operand.tokens, signToken] at same
  | some sign =>
    cases secondSign with
    | none => cases secondOperand <;> simp [Factor.tokens, Operand.tokens, signToken] at same
    | some other =>
      simp only [Factor.tokens, Option.toList_some, List.map_cons, List.map_nil, signToken,
        List.cons_append, List.nil_append, List.cons.injEq, Token.operator.injEq,
        Operator.sign.injEq] at same
      obtain ⟨rfl, sameOperands⟩ := same
      obtain ⟨rfl, sameRest⟩ := separable_operand firstOperand secondOperand restFirst restSecond
        sameOperands stopsFirst stopsSecond
      exact ⟨rfl, sameRest⟩

theorem separable_term : Separable Term.tokens fun token => token.kind.isScaling := by
  refine separable_factor.chain scalingToken (fun token => token.kind.isScaling) ?_ (fun _ => rfl)
    fun _ => rfl
  intro op other same
  simpa [scalingToken] using same

theorem separable_expression : Separable Expression.tokens goesOnExpression := by
  refine separable_term.chain signToken (fun token => token.kind.isSign) ?_ (fun _ => rfl)
    fun _ => rfl
  intro op other same
  simpa [signToken] using same

theorem separable_condition : Separable Condition.tokens goesOnCondition := by
  have chains := separable_expression.chain comparisonToken (fun token => token.kind.isComparison)
    (fun op other same => by simpa [comparisonToken] using same) (fun _ => rfl) (fun _ => rfl)
  intro first second restFirst restSecond same stopsFirst stopsSecond
  obtain ⟨sameChain, sameRest⟩ := chains first.chain second.chain restFirst restSecond same
    stopsFirst stopsSecond
  cases first
  cases second
  cases sameChain
  exact ⟨rfl, sameRest⟩

/-- An expression starts with a sign, a number or a name. -/
theorem Expression.head_tokens (expression : Expression) :
    ∃ token rest, Expression.tokens expression = token :: rest ∧
      (token.kind.isSign = true ∨ token.kind = .number ∨ token.kind = .name) := by
  obtain ⟨⟨⟨sign, operand⟩, factors⟩, terms⟩ := expression
  cases sign with
  | some sign => exact ⟨signToken sign, _, rfl, .inl rfl⟩
  | none =>
    cases operand with
    | number digits => exact ⟨.number digits, _, rfl, .inr (.inl rfl)⟩
    | name text => exact ⟨.name text, _, rfl, .inr (.inr rfl)⟩

/-! ## Lines -/

/-- A line is told from what follows it by the line end. -/
def goesOnLine (token : Token) : Bool :=
  !token.kind.isNewline

private theorem Stops.expression {rest : List Token} (stops : Stops goesOnLine rest) :
    Stops goesOnExpression rest :=
  stops.mono fun token => by
    cases token <;> simp [goesOnExpression, goesOnLine, Token.kind, Kind.isScaling, Kind.isSign,
      Kind.isNewline]

private theorem Expression.tokens_append_ne_string (expression : Expression) {body : String}
    {rest others : List Token} :
    Expression.tokens expression ++ rest ≠ .string body :: others := by
  obtain ⟨token, more, spelled, starts⟩ := Expression.head_tokens expression
  rw [spelled]
  intro same
  cases same
  simp [Token.kind, Kind.isSign] at starts

theorem separable_simple : Separable Simple.tokens goesOnLine := by
  intro first second restFirst restSecond same stopsFirst stopsSecond
  cases first <;> cases second <;> simp only [Simple.tokens, List.cons_append, List.nil_append,
    List.cons.injEq, Token.keyword.injEq, reduceCtorEq, false_and, true_and, Token.name.injEq,
    Token.string.injEq] at same
  case printText.printText => exact ⟨by rw [same.1], same.2⟩
  case printText.printValue second => exact absurd same.symm second.tokens_append_ne_string
  case printValue.printText first _ => exact absurd same first.tokens_append_ne_string
  case printValue.printValue first second =>
    obtain ⟨rfl, sameRest⟩ := separable_expression first second restFirst restSecond same
      stopsFirst.expression stopsSecond.expression
    exact ⟨rfl, sameRest⟩
  case label.label => exact ⟨by rw [same.1], same.2⟩
  case goto.goto => exact ⟨by rw [same.1], same.2⟩
  case assign.assign _ first _ second =>
    obtain ⟨rfl, sameValue⟩ := same
    obtain ⟨rfl, sameRest⟩ := separable_expression first second restFirst restSecond sameValue
      stopsFirst.expression stopsSecond.expression
    exact ⟨rfl, sameRest⟩
  case input.input => exact ⟨by rw [same.1], same.2⟩
  case random.random => exact ⟨by rw [same.1], same.2⟩

/-- The keyword a line starts with. -/
def Line.keyword : Line → Keyword
  | .simple (.printText _) => .print
  | .simple (.printValue _) => .print
  | .simple (.label _) => .label
  | .simple (.goto _) => .goto
  | .simple (.assign _ _) => .let_
  | .simple (.input _) => .input
  | .simple (.random _) => .rnd
  | .opening block _ => block.opener
  | .closing block => block.terminator

theorem Line.head_tokens (line : Line) :
    ∃ rest, line.tokens = .keyword line.keyword :: rest := by
  cases line with
  | simple statement => cases statement <;> exact ⟨_, rfl⟩
  | opening block condition => exact ⟨_, rfl⟩
  | closing block => exact ⟨_, rfl⟩

private theorem Line.keyword_eq {first second : Line} {restFirst restSecond : List Token}
    (same : first.tokens ++ restFirst = second.tokens ++ restSecond) :
    first.keyword = second.keyword := by
  obtain ⟨_, firstTokens⟩ := first.head_tokens
  obtain ⟨_, secondTokens⟩ := second.head_tokens
  rw [firstTokens, secondTokens, List.cons_append, List.cons_append] at same
  exact Token.keyword.inj (List.cons.inj same).1

theorem separable_line : Separable Line.tokens goesOnLine := by
  intro first second restFirst restSecond same stopsFirst stopsSecond
  have sameKeyword := Line.keyword_eq same
  cases first with
  | simple first =>
    cases second with
    | simple second =>
      obtain ⟨rfl, sameRest⟩ := separable_simple first second restFirst restSecond same
        stopsFirst stopsSecond
      exact ⟨rfl, sameRest⟩
    | opening block _ => cases first <;> cases block <;> cases sameKeyword
    | closing block => cases first <;> cases block <;> cases sameKeyword
  | opening block first =>
    cases second with
    | simple second => cases second <;> cases block <;> cases sameKeyword
    | closing other => cases block <;> cases other <;> cases sameKeyword
    | opening other second =>
      have sameBlock : block = other := by
        cases block <;> cases other <;> first | rfl | cases sameKeyword
      subst sameBlock
      have sameConditions : first.tokens ++ .keyword block.separator :: restFirst =
          second.tokens ++ .keyword block.separator :: restSecond := by
        simpa [Line.tokens] using same
      obtain ⟨rfl, sameRest⟩ := separable_condition first second _ _ sameConditions
        (stops_cons.mpr rfl) (stops_cons.mpr rfl)
      cases sameRest
      exact ⟨rfl, rfl⟩
  | closing block =>
    cases second with
    | simple second => cases second <;> cases block <;> cases sameKeyword
    | opening other _ => cases block <;> cases other <;> cases sameKeyword
    | closing other =>
      have sameBlock : block = other := by
        cases block <;> cases other <;> first | rfl | cases sameKeyword
      subst sameBlock
      exact ⟨rfl, by simpa [Line.tokens] using same⟩

/-! ## Tokens in a line -/

/-- Whether a token can stand in an expression or a condition. -/
def inExpression : Token → Bool
  | .number _ | .name _ | .operator _ => true
  | _ => false

theorem Chain.mem_spell {op item τ : Type} {mark : op → τ} {word : item → List τ}
    {chain : Chain op item} {token : τ} (member : token ∈ chain.spell mark word) :
    (∃ op, token = mark op) ∨ ∃ item, token ∈ word item := by
  simp only [Chain.spell, List.mem_append, List.mem_flatMap, List.mem_cons] at member
  rcases member with first | ⟨⟨op, item⟩, -, rfl | inside⟩
  · exact .inr ⟨_, first⟩
  · exact .inl ⟨op, rfl⟩
  · exact .inr ⟨item, inside⟩

private theorem Factor.inExpression_of_mem {factor : Factor} {token : Token}
    (member : token ∈ factor.tokens) : inExpression token = true := by
  obtain ⟨sign, operand⟩ := factor
  cases sign <;> cases operand <;>
    simp [Factor.tokens, Operand.tokens, signToken] at member <;>
    grind [inExpression]

theorem Term.inExpression_of_mem {term : Term} {token : Token} (member : token ∈ Term.tokens term) :
    inExpression token = true := by
  rcases Chain.mem_spell member with ⟨scaling, rfl⟩ | ⟨factor, inside⟩
  · rfl
  · exact Factor.inExpression_of_mem inside

theorem Expression.inExpression_of_mem {expression : Expression} {token : Token}
    (member : token ∈ Expression.tokens expression) : inExpression token = true := by
  rcases Chain.mem_spell member with ⟨sign, rfl⟩ | ⟨term, inside⟩
  · rfl
  · exact Term.inExpression_of_mem inside

theorem Condition.inExpression_of_mem {condition : Condition} {token : Token}
    (member : token ∈ condition.tokens) : inExpression token = true := by
  rcases Chain.mem_spell member with ⟨comparison, rfl⟩ | ⟨expression, inside⟩
  · rfl
  · exact Expression.inExpression_of_mem inside

/-- All that can stand in a line. -/
theorem Line.cases_of_mem {line : Line} {token : Token} (member : token ∈ line.tokens) :
    token = .keyword line.keyword ∨
      (∃ block condition, line = .opening block condition ∧ token = .keyword block.separator) ∨
      inExpression token = true ∨ ∃ body, token = .string body := by
  cases line with
  | simple statement =>
    cases statement <;> simp only [Line.tokens, Simple.tokens, List.mem_cons, List.not_mem_nil,
      or_false] at member
    case printText body => exact member.imp_right fun text => .inr (.inr ⟨body, text⟩)
    case printValue value =>
      exact member.imp_right fun inside => .inr (.inl (Expression.inExpression_of_mem inside))
    case assign name value =>
      rcases member with keyword | rfl | rfl | inside
      · exact .inl keyword
      · exact .inr (.inr (.inl rfl))
      · exact .inr (.inr (.inl rfl))
      · exact .inr (.inr (.inl (Expression.inExpression_of_mem inside)))
    all_goals
      refine member.imp_right fun named => .inr (.inl ?_)
      rw [named]
      rfl
  | opening block condition =>
    simp only [Line.tokens, List.cons_append, List.mem_cons, List.mem_append, List.not_mem_nil,
      or_false] at member
    rcases member with keyword | inside | separator
    · exact .inl keyword
    · exact .inr (.inr (.inl (Condition.inExpression_of_mem inside)))
    · exact .inr (.inl ⟨block, condition, rfl, separator⟩)
  | closing block => exact .inl (List.mem_singleton.mp member)

theorem Line.ne_of_mem {line : Line} {token : Token} (member : token ∈ line.tokens) :
    token ≠ .newline ∧ token ≠ .endOfInput := by
  rcases Line.cases_of_mem member with rfl | ⟨block, _, _, rfl⟩ | inside | ⟨body, rfl⟩
  · simp
  · simp
  · cases token <;> simp [inExpression] at inside ⊢
  · simp

theorem Line.newline_notMem (line : Line) : .newline ∉ line.tokens :=
  fun member => (Line.ne_of_mem member).1 rfl

theorem Written.cases_of_mem {lines : List Line} {tokens : List Token} {token : Token}
    (written : Written lines tokens) (member : token ∈ tokens) :
    token = .newline ∨ ∃ line ∈ lines, token ∈ line.tokens := by
  induction written with
  | nil => cases member
  | cons line ends _ ih =>
    obtain ⟨count, rfl⟩ := ends
    rcases List.mem_append.mp member with inside | later
    · rcases List.mem_append.mp inside with inLine | atEnd
      · exact .inr ⟨line, .head _, inLine⟩
      · exact .inl (List.eq_of_mem_replicate atEnd)
    · exact (ih later).imp_right fun ⟨other, among, inOther⟩ => ⟨other, .tail _ among, inOther⟩

/-- The lines of a program stand between empty lines and the end of input. -/
theorem Program.Derives.exists_written {program : Program} {tokens : List Token}
    (derives : program.Derives tokens) :
    ∃ count used, Written (linesOf program.statements) used ∧
      tokens = List.replicate count .newline ++ used ++ [.endOfInput] := by
  obtain ⟨count, used, derived, spelled⟩ := derives
  exact ⟨count, used, derives_iff_written.mp derived, spelled⟩

/-- The end of input stands at the end of a program and nowhere else. -/
theorem Program.Derives.exists_body {program : Program} {tokens : List Token}
    (derives : program.Derives tokens) :
    ∃ body, tokens = body ++ [.endOfInput] ∧ ∀ token ∈ body, token ≠ .endOfInput := by
  obtain ⟨count, used, written, rfl⟩ := derives.exists_written
  refine ⟨_, rfl, List.forall_mem_append.mpr ⟨fun token member => ?_, fun token member => ?_⟩⟩
  · simp [List.eq_of_mem_replicate member]
  · rcases written.cases_of_mem member with rfl | ⟨line, -, inside⟩
    · simp
    · exact (Line.ne_of_mem inside).2

/-- Keywords that start no line and stand in none are in no program. -/
theorem Program.Derives.else_notMem {program : Program} {tokens : List Token}
    (derives : program.Derives tokens) : .keyword .else_ ∉ tokens := by
  obtain ⟨count, used, written, rfl⟩ := derives.exists_written
  intro member
  simp only [List.mem_append, List.mem_replicate, List.mem_singleton, reduceCtorEq, and_false,
    or_false, false_or] at member
  rcases written.cases_of_mem member with newline | ⟨line, -, inside⟩
  · cases newline
  · rcases Line.cases_of_mem inside with keyword | ⟨block, _, _, separator⟩ | inside | ⟨body, text⟩
    · cases line with
      | simple statement => cases statement <;> cases keyword
      | opening block condition => cases block <;> cases keyword
      | closing block => cases block <;> cases keyword
    · cases block <;> cases separator
    · cases inside
    · cases text

/-! ## Whole programs -/

/-- The tokens of lines do not start with a line end. -/
theorem Written.stops {lines : List Line} {tokens : List Token} (written : Written lines tokens) :
    Stops (fun token => token.kind.isNewline) tokens := by
  cases written with
  | nil => exact stops_nil _
  | cons line ends _ =>
    obtain ⟨rest, spelled⟩ := line.head_tokens
    rw [spelled]
    exact stops_cons.mpr rfl

theorem replicate_newline_append_inj {first second : Nat} {restFirst restSecond : List Token}
    (same : List.replicate first Token.newline ++ restFirst =
      List.replicate second .newline ++ restSecond)
    (stopsFirst : Stops (fun token => token.kind.isNewline) restFirst)
    (stopsSecond : Stops (fun token => token.kind.isNewline) restSecond) :
    restFirst = restSecond := by
  induction first generalizing second with
  | zero =>
    cases second with
    | zero => exact same
    | succ second =>
      rw [show restFirst = _ from same, List.replicate_succ, List.cons_append, stops_cons]
        at stopsFirst
      cases stopsFirst
  | succ first ih =>
    cases second with
    | zero =>
      rw [show restSecond = _ from same.symm, List.replicate_succ, List.cons_append, stops_cons]
        at stopsSecond
      cases stopsSecond
    | succ second =>
      rw [List.replicate_succ, List.replicate_succ, List.cons_append, List.cons_append] at same
      exact ih (List.cons.inj same).2

private theorem LineEnds.append_inj {first second restFirst restSecond : List Token}
    (firstEnds : LineEnds first) (secondEnds : LineEnds second)
    (same : first ++ restFirst = second ++ restSecond)
    (stopsFirst : Stops (fun token => token.kind.isNewline) restFirst)
    (stopsSecond : Stops (fun token => token.kind.isNewline) restSecond) :
    restFirst = restSecond := by
  obtain ⟨firstCount, rfl⟩ := firstEnds
  obtain ⟨secondCount, rfl⟩ := secondEnds
  exact replicate_newline_append_inj same stopsFirst stopsSecond

private theorem LineEnds.stops {ends : List Token} (lineEnds : LineEnds ends) (rest : List Token) :
    Stops goesOnLine (ends ++ rest) := by
  obtain ⟨count, rfl⟩ := lineEnds
  rw [List.replicate_succ, List.cons_append]
  exact stops_cons.mpr rfl

theorem Written.unique {first second : List Line} {tokens : List Token}
    (firstWritten : Written first tokens) (secondWritten : Written second tokens) :
    first = second := by
  induction firstWritten generalizing second with
  | nil =>
    generalize empty : ([] : List Token) = tokens at secondWritten
    cases secondWritten with
    | nil => rfl
    | cons line ends _ =>
      obtain ⟨rest, spelled⟩ := line.head_tokens
      rw [spelled] at empty
      cases empty
  | @cons line lines ends more lineEnds written ih =>
    generalize same : line.tokens ++ ends ++ more = tokens at secondWritten
    cases secondWritten with
    | nil =>
      obtain ⟨rest, spelled⟩ := line.head_tokens
      rw [spelled] at same
      cases same
    | @cons other others otherEnds otherMore otherLineEnds otherWritten =>
      rw [List.append_assoc, List.append_assoc] at same
      obtain ⟨rfl, sameEnds⟩ := separable_line line other _ _ same (lineEnds.stops more)
        (otherLineEnds.stops otherMore)
      have sameMore := lineEnds.append_inj otherLineEnds sameEnds written.stops otherWritten.stops
      subst sameMore
      rw [ih otherWritten]

/-- Whether the lines of a statement list are over here. -/
def Line.isClosing : Line → Bool
  | .closing _ => true
  | _ => false

/-- The lines of at least one statement do not start where a statement list is over. -/
theorem linesOf_cons_append_ne (statement : Statement) (rest : List Statement)
    {others beyond : List Line} (stops : Stops (fun line => !line.isClosing) beyond) :
    linesOf (statement :: rest) ++ others ≠ beyond := by
  rintro rfl
  cases statement <;> cases stops_cons.mp stops

private theorem linesOf_append_inj :
    ∀ (first second : List Statement) {restFirst restSecond : List Line},
      linesOf first ++ restFirst = linesOf second ++ restSecond →
      Stops (fun line => !line.isClosing) restFirst → Stops (fun line => !line.isClosing) restSecond →
      first = second ∧ restFirst = restSecond
  | [], [], _, _, same, _, _ => ⟨rfl, same⟩
  | [], statement :: rest, _, _, same, stops, _ =>
    absurd same.symm (linesOf_cons_append_ne statement rest stops)
  | statement :: rest, [], _, _, same, _, stops =>
    absurd same (linesOf_cons_append_ne statement rest stops)
  | .simple _ :: first, .simple _ :: second, _, _, same, stopsFirst, stopsSecond => by
    simp only [linesOf, Statement.lines, List.cons_append, List.nil_append, List.cons.injEq,
      Line.simple.injEq] at same
    obtain ⟨rfl, sameRest⟩ := same
    obtain ⟨rfl, sameEnd⟩ := linesOf_append_inj first second sameRest stopsFirst stopsSecond
    exact ⟨rfl, sameEnd⟩
  | .simple _ :: _, .block _ _ _ :: _, _, _, same, _, _ => by
    simp [linesOf, Statement.lines] at same
  | .block _ _ _ :: _, .simple _ :: _, _, _, same, _, _ => by
    simp [linesOf, Statement.lines] at same
  | .block _ _ firstBody :: first, .block _ _ secondBody :: second, _, _, same, stopsFirst,
      stopsSecond => by
    simp only [linesOf, Statement.lines, List.cons_append, List.append_assoc, List.nil_append,
      List.cons.injEq, Line.opening.injEq] at same
    obtain ⟨⟨rfl, rfl⟩, sameRest⟩ := same
    obtain ⟨rfl, sameClosed⟩ := linesOf_append_inj firstBody secondBody sameRest
      (stops_cons.mpr rfl) (stops_cons.mpr rfl)
    obtain ⟨rfl, sameEnd⟩ := linesOf_append_inj first second (List.cons.inj sameClosed).2
      stopsFirst stopsSecond
    exact ⟨rfl, sameEnd⟩
  termination_by first => sizeOf first

theorem linesOf_injective {first second : List Statement} (same : linesOf first = linesOf second) :
    first = second :=
  (linesOf_append_inj first second (by rw [same]) (stops_nil _) (stops_nil _)).1

theorem Derives.unique {first second : List Statement} {tokens : List Token}
    (firstDerives : Derives first tokens) (secondDerives : Derives second tokens) :
    first = second :=
  linesOf_injective (firstDerives.written.unique secondDerives.written)

theorem Program.Derives.unique {first second : Program} {tokens : List Token}
    (firstDerives : first.Derives tokens) (secondDerives : second.Derives tokens) :
    first = second := by
  obtain ⟨firstCount, firstUsed, firstTree, rfl⟩ := firstDerives
  obtain ⟨secondCount, secondUsed, secondTree, same⟩ := secondDerives
  have sameEnded := (List.append_inj' same rfl).1
  have sameUsed := replicate_newline_append_inj sameEnded firstTree.written.stops
    secondTree.written.stops
  subst sameUsed
  have sameStatements := Grammar.Derives.unique firstTree secondTree
  cases first
  cases second
  cases sameStatements
  rfl

end TeenyBasic.Grammar
