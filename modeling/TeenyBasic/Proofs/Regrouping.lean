import TeenyBasic.Proofs.EmittedLexemes
import TeenyBasic.Proofs.Translation

/-!
C groups every emitted expression as the language does. The lexemes of the emitted text are the tokens
of the tree, and these are also the lexemes of one chain of chains of C's own levels. A sum of the
language is a sum of C; in a condition, C first groups the relations between two equations
(`regroup`), which changes neither the operands nor their order.
-/

set_option autoImplicit false

namespace TeenyBasic

namespace Grammar

open CLanguage

/-! ## Expressions -/

def Factor.tree (factor : Factor) : Arithmetic :=
  match factor.sign with
  | none => operandTree factor.operand
  | some sign => .signed sign (operandTree factor.operand)

/-- Factors grouped from the left. -/
def Term.tree (term : Term) : Arithmetic :=
  leftTree Factor.tree .scaled term

/-- Terms grouped from the left. -/
def Expression.tree (expression : Expression) : Arithmetic :=
  leftTree Term.tree .summed expression

section Chains

variable {op item other tree τ : Type}

def Chain.map (change : item → other) (chain : Chain op item) : Chain op other where
  first := change chain.first
  rest := chain.rest.map fun round => (round.1, change round.2)

theorem leftTree_map (leaf : other → tree) (node : op → tree → tree → tree) (change : item → other)
    (chain : Chain op item) :
    leftTree leaf node (chain.map change) = leftTree (fun item => leaf (change item)) node chain := by
  simp [leftTree, Chain.map, List.foldl_map]

theorem spell_map (mark : op → τ) (word : other → List τ) (change : item → other)
    (chain : Chain op item) :
    (chain.map change).spell mark word = chain.spell mark fun item => word (change item) := by
  simp [Chain.spell, Chain.map, List.flatMap_map]

theorem lexemesOf_spell (mark : op → Token) (word : item → List Token) (chain : Chain op item) :
    lexemesOf (chain.spell mark word) =
      chain.spell (fun op => (mark op).lexeme) fun item => lexemesOf (word item) := by
  simp [Chain.spell, lexemesOf, List.map_flatMap]

end Chains

def Factor.signed (factor : Factor) : Signed where
  signs := factor.sign.toList
  operand := factor.operand

def Term.product (term : Term) : Product :=
  term.map Factor.signed

def Expression.sum (expression : Expression) : Sum :=
  expression.map Term.product

private theorem Factor.lexemesOf_tokens (factor : Factor) :
    lexemesOf factor.tokens = factor.signed.lexemes := by
  obtain ⟨sign, operand⟩ := factor
  rcases sign with _ | sign
  · cases operand <;> rfl
  · cases sign <;> cases operand <;> rfl

private theorem Factor.tree_signed (factor : Factor) : factor.signed.tree = factor.tree := by
  obtain ⟨sign, operand⟩ := factor
  cases sign <;> rfl

theorem Expression.lexemesOf_tokens (expression : Expression) :
    lexemesOf (Expression.tokens expression) = Sum.lexemes (Expression.sum expression) := by
  have signs : ∀ sign, (signToken sign).lexeme = signLexeme sign := by
    intro sign
    cases sign <;> rfl
  have scalings : ∀ scaling, (scalingToken scaling).lexeme = scalingLexeme scaling := by
    intro scaling
    cases scaling <;> rfl
  have terms : ∀ term, lexemesOf (Term.tokens term) = Product.lexemes (Term.product term) := by
    intro term
    simp only [Term.tokens, lexemesOf_spell, scalings, Factor.lexemesOf_tokens, Product.lexemes,
      Term.product, spell_map]
  simp only [Expression.tokens, lexemesOf_spell, signs, terms, Sum.lexemes, Expression.sum, spell_map]

theorem Expression.tree_sum (expression : Expression) :
    Sum.tree (Expression.sum expression) = Expression.tree expression := by
  have terms : ∀ term, Product.tree (Term.product term) = Term.tree term := by
    intro term
    simp only [Product.tree, Term.product, leftTree_map, Factor.tree_signed, Term.tree]
  simp only [Sum.tree, Expression.sum, leftTree_map, terms, Expression.tree]

/-! ## Conditions -/

/-- Relations are grouped before equations. -/
def regroup {item : Type} (first : item) :
    List (Comparison × item) → Chain Equation (Chain Relation item)
  | [] => ⟨⟨first, []⟩, []⟩
  | (comparison, next) :: rest =>
    let others := regroup next rest
    if relational : isRelational comparison = true then
      ⟨⟨first, (⟨comparison, relational⟩, others.first.first) :: others.first.rest⟩, others.rest⟩
    else
      ⟨⟨first, []⟩, (⟨comparison, by simpa using relational⟩, others.first) :: others.rest⟩

private theorem inOrder_leftTree {op item : Type} (comparison : op → Comparison)
    (leaf : item → Comparative) (chain : Chain op item) :
    (leftTree leaf (fun op => .compared (comparison op)) chain).inOrder =
      ⟨(leaf chain.first).inOrder.first,
        (leaf chain.first).inOrder.rest ++ chain.rest.flatMap fun round =>
          (comparison round.1, (leaf round.2).inOrder.first) :: (leaf round.2).inOrder.rest⟩ := by
  obtain ⟨first, rounds⟩ := chain
  simp only [leftTree]
  generalize leaf first = left
  induction rounds generalizing left with
  | nil => simp
  | cons round rounds ih =>
    rw [List.foldl_cons, ih]
    simp [Comparative.inOrder]

section Regroup

variable {item τ : Type}

private theorem spell_regroup (mark : Comparison → τ) (word : item → List τ) (first : item)
    (rest : List (Comparison × item)) :
    (regroup first rest).spell (fun equation : Equation => mark equation)
        (Chain.spell (fun relation : Relation => mark relation) word) =
      Chain.spell mark word ⟨first, rest⟩ := by
  induction rest generalizing first with
  | nil => simp [regroup, Chain.spell]
  | cons round rest ih =>
    have others := ih round.2
    simp only [Chain.spell, List.append_assoc] at others
    cases relational : isRelational round.1 with
    | true => simp [regroup, relational, Chain.spell, others]
    | false => simp [regroup, relational, Chain.spell, others]

private theorem regroup_of_relational (first : item) {rest : List (Comparison × item)}
    (relational : ∀ round ∈ rest, isRelational round.1 = true) :
    ∃ rounds : List (Relation × item), regroup first rest = ⟨⟨first, rounds⟩, []⟩ ∧
      rest = rounds.map fun round => (round.1.1, round.2) := by
  induction rest generalizing first with
  | nil => exact ⟨[], rfl, rfl⟩
  | cons round rest ih =>
    obtain ⟨comparison, next⟩ := round
    have here : isRelational comparison = true := relational _ (.head _)
    obtain ⟨rounds, grouped, spelled⟩ :=
      ih next fun other inside => relational other (.tail _ inside)
    refine ⟨(⟨comparison, here⟩, next) :: rounds, ?_, by rw [spelled]; rfl⟩
    simp [regroup, here, grouped]

private theorem regroup_of_equational (first : item) {rest : List (Comparison × item)}
    (equational : ∀ round ∈ rest, isRelational round.1 = false) :
    ∃ rounds : List (Equation × item),
      regroup first rest = ⟨⟨first, []⟩, rounds.map fun round => (round.1, ⟨round.2, []⟩)⟩ ∧
        rest = rounds.map fun round => (round.1.1, round.2) := by
  induction rest generalizing first with
  | nil => exact ⟨[], rfl, rfl⟩
  | cons round rest ih =>
    obtain ⟨comparison, next⟩ := round
    have here : isRelational comparison = false := equational _ (.head _)
    obtain ⟨rounds, grouped, spelled⟩ :=
      ih next fun other inside => equational other (.tail _ inside)
    refine ⟨(⟨comparison, here⟩, next) :: rounds, ?_, by rw [spelled]; rfl⟩
    simp [regroup, here, grouped]

/-- The tree of regrouped items. -/
def regroupedTree (leaf : item → Arithmetic) (chain : Chain Equation (Chain Relation item)) :
    Comparative :=
  leftTree (leftTree (fun item => .value (leaf item)) fun relation : Relation => .compared relation)
    (fun equation : Equation => .compared equation) chain

private theorem inOrder_regroupedTree (leaf : item → Arithmetic) (first : item)
    (rest : List (Comparison × item)) :
    (regroupedTree leaf (regroup first rest)).inOrder = Chain.map leaf ⟨first, rest⟩ := by
  induction rest generalizing first with
  | nil => rfl
  | cons round rest ih =>
    have others := ih round.2
    simp only [regroupedTree, inOrder_leftTree, Chain.map, Chain.mk.injEq] at others ⊢
    cases relational : isRelational round.1 with
    | true => simp_all [regroup, Comparative.inOrder]
    | false => simp_all [regroup, Comparative.inOrder]

/-- Comparisons of one kind are grouped from the left. -/
theorem regroupedTree_of_uniform (leaf : item → Arithmetic) (first : item)
    {rest : List (Comparison × item)}
    (uniform : (∀ round ∈ rest, isRelational round.1 = true) ∨
      ∀ round ∈ rest, isRelational round.1 = false) :
    regroupedTree leaf (regroup first rest) =
      leftTree (fun item => .value (leaf item)) .compared ⟨first, rest⟩ := by
  rcases uniform with relational | equational
  · obtain ⟨rounds, grouped, rfl⟩ := regroup_of_relational first relational
    simp [grouped, regroupedTree, leftTree, List.foldl_map]
  · obtain ⟨rounds, grouped, rfl⟩ := regroup_of_equational first equational
    simp [grouped, regroupedTree, leftTree, List.foldl_map]

end Regroup

def Condition.equations (condition : Condition) : EquationChain :=
  regroup (Expression.sum condition.chain.first)
    (condition.chain.map Expression.sum).rest

private theorem Condition.lexemesOf_tokens (condition : Condition) :
    lexemesOf condition.tokens = EquationChain.lexemes condition.equations := by
  have marks : ∀ comparison, (comparisonToken comparison).lexeme = comparisonLexeme comparison := by
    intro comparison
    cases comparison <;> rfl
  have grouped := spell_regroup comparisonLexeme Sum.lexemes (Expression.sum condition.chain.first)
    (condition.chain.map Expression.sum).rest
  simp only [Condition.tokens, lexemesOf_spell, marks, Expression.lexemesOf_tokens]
  rw [← spell_map]
  exact grouped.symm

/-- C's reading of a condition has the language's expressions as operands, in the same order. -/
theorem Condition.inOrder_equations (condition : Condition) :
    (EquationChain.tree condition.equations).inOrder = condition.chain.map Expression.tree := by
  refine (inOrder_regroupedTree Sum.tree _ _).trans ?_
  simp [Chain.map, Expression.tree_sum]

private theorem Condition.tree_equations_of_uniform (condition : Condition)
    (uniform : (∀ round ∈ condition.chain.rest, isRelational round.1 = true) ∨
      ∀ round ∈ condition.chain.rest, isRelational round.1 = false) :
    EquationChain.tree condition.equations =
      leftTree (fun expression => .value (Expression.tree expression)) .compared
        condition.chain := by
  refine (regroupedTree_of_uniform Sum.tree _ ?_).trans ?_
  · simpa only [Chain.map, List.forall_mem_map] using uniform
  · refine (leftTree_map _ _ Expression.sum condition.chain).trans ?_
    simp only [Expression.tree_sum]

end Grammar

/-! ## The pass -/

open Grammar CLanguage

/-- What lies ahead of the pass is an end piece of the tokens of a source. -/
def State.StandsIn {σ : Type} (source : String) (state : State σ) : Prop :=
  ∃ tokens, state.Faces tokens ∧ tokens <:+ (feedOf source).tokens

/-- Between the two states the pass has moved over the tokens and written the text to the body. -/
structure Emits (state : State Emitter) (tokens : List Located) (text : String)
    (after : State Emitter) : Prop where
  moved : ∃ rest, state.Faces (tokens ++ rest) ∧ after.Faces rest
  written : after.sink.bodyText = state.sink.bodyText ++ text

theorem Emits.unique {state after : State Emitter} {tokens others : List Located}
    {text other : String} (emits : Emits state tokens text after)
    (emitsOther : Emits state others other after) : tokens = others ∧ text = other := by
  obtain ⟨rest, faces, facesRest⟩ := emits.moved
  obtain ⟨otherRest, facesOther, facesOtherRest⟩ := emitsOther.moved
  obtain rfl := facesRest.unique facesOtherRest
  refine ⟨List.append_cancel_right (faces.unique facesOther), ?_⟩
  have same := emits.written.symm.trans emitsOther.written
  exact (String.append_right_inj _).mp same

section Emission

variable {tree : Type} {tokens : tree → List Token} {actions : tree → List Action}
  {step : Pass Emitter Unit} {stops : Kind → Prop}

theorem exists_emits
    (translates : Pass.Translates step Pass.anyKind (fun _ => Pass.Words.spelled tokens actions) stops)
    {source : String} {state after : State Emitter} (stands : state.StandsIn source)
    (success : step state = .ok () after) :
    ∃ used single, used.map (·.token) = tokens single ∧
      (∀ token ∈ tokens single, token.Spelled) ∧
      Emits state used (bodyOf (actions single)) after := by
  obtain ⟨ahead, faces, before, split⟩ := stands
  obtain ⟨used, rest, _, rfl, ⟨single, spelled, rfl⟩, facesRest, performs⟩ :=
    translates.sound state ahead () after faces trivial success
  refine ⟨used, single, spelled, ?_, ⟨rest, faces, facesRest⟩, ?_⟩
  · rw [← spelled]
    intro token member
    apply spelled_of_mem_tokens source
    rw [← split, List.map_append, List.map_append]
    exact List.mem_append_right _ (List.mem_append_left _ member)
  · exact Account.bodyText_performAll performs.account

end Emission

/-- The lexemes of an emitted text are the tokens, also with anything after it that cannot go on with
an operand. -/
theorem Grammar.Lexes.lex_eq {text : String} {tokens : List Token} {signed : Bool}
    (lexes : Lexes text tokens signed) :
    lex text = lexemesOf tokens ∧
      ∀ following : String, Closed following.toList →
        lex (text ++ following) = lex text ++ lex following := by
  have alone : lex text = lexemesOf tokens := lexes.lexemes_eq
  refine ⟨alone, fun following closed => ?_⟩
  rw [alone, lex, String.toList_append]
  exact lexes.cut following.toList closed

/-- C reads the text of an expression as the expression's tree and in no other way. -/
theorem Grammar.Expression.equality_lex_iff {expression : Expression}
    (spelled : ∀ token ∈ Expression.tokens expression, token.Spelled) (tree : Comparative) :
    Equality (lex (Expression.cText expression)) tree ↔
      tree = .value (Expression.tree expression) := by
  rw [(lexes_expression spelled).lex_eq.1, Expression.lexemesOf_tokens]
  have unique : Equality _ tree ↔ _ := equality_lexemes_iff ⟨⟨Expression.sum expression, []⟩, []⟩
  simpa [EquationChain.lexemes, RelationChain.lexemes, Chain.spell, EquationChain.tree,
    RelationChain.tree, leftTree, Expression.tree_sum] using unique

/-- A source that starts with an expression all of whose actions are allowed at the start. -/
theorem exists_accepted_expression {source : String} {expression : Expression}
    {final : Account Emitter} (faultless : (feedOf source).Faultless)
    (tokens : (feedOf source).tokens.map (·.token) = Expression.tokens expression ++ [.newline])
    (allowed : (State.initialAccount {}).performAll (Expression.actions expression) = .ok final) :
    ∃ (state after : State Emitter) (used : List Located), state.StandsIn source ∧
      Pass.expression state = .ok () after ∧
      Emits state used (Expression.cText expression) after ∧
      used.map (·.token) = Expression.tokens expression := by
  obtain ⟨state, started⟩ := State.exists_start faultless ({} : Emitter)
  obtain ⟨faces, account, -, ending⟩ :=
    State.faces_of_start (token_ne_endOfInput_of_mem_feedOf source) started
  obtain ⟨offset, atEnd⟩ := faultless
  obtain ⟨used, rest, split, usedTokens, restTokens⟩ := List.map_eq_append_iff.mp tokens
  have stands : state.StandsIn source := ⟨_, faces, List.suffix_refl _⟩
  have ends : Pass.endsExpression (frontKind rest) := by
    obtain ⟨located, rfl, newline⟩ := Pass.exists_located_of_map_eq restTokens
    rw [frontKind, Located.kind, newline]
    exact ⟨rfl, rfl⟩
  rw [split] at faces
  rw [← account] at allowed
  obtain ⟨after, accepted, facesRest, performs⟩ :=
    Pass.translates_expression.complete state used rest () _ _ faces ⟨offset, ending.trans atEnd⟩
      ⟨expression, usedTokens, rfl⟩ ends allowed
  refine ⟨state, after, used, stands, accepted, ⟨⟨rest, faces, facesRest⟩, ?_⟩, usedTokens⟩
  rw [← Expression.bodyOf_actions]
  exact Account.bodyText_performAll performs.account

theorem expressions_and_conditions_regroup {source : String} {state : State Emitter}
    (stands : state.StandsIn source) :
    (∀ after, Pass.expression state = .ok () after →
      ∃ used text, Emits state used text after ∧
        (lex text).map Lexeme.text = used.map (·.token.text) ∧
        (∀ following : String, Closed following.toList →
          lex (text ++ following) = lex text ++ lex following) ∧
        ∃ expression : Expression, used.map (·.token) = Expression.tokens expression ∧
          ∀ tree, Equality (lex text) tree ↔ tree = .value (Expression.tree expression)) ∧
    ∀ after, Pass.condition state = .ok () after →
      ∃ used text, Emits state used text after ∧
        (lex text).map Lexeme.text = used.map (·.token.text) ∧
        (∀ following : String, Closed following.toList →
          lex (text ++ following) = lex text ++ lex following) ∧
        ∃ condition : Condition, used.map (·.token) = condition.tokens ∧
          ∃ tree, (∀ other, Equality (lex text) other ↔ other = tree) ∧
            tree.inOrder = condition.chain.map Expression.tree ∧
            ((∀ round ∈ condition.chain.rest, isRelational round.1 = true) ∨
                (∀ round ∈ condition.chain.rest, isRelational round.1 = false) →
              tree = leftTree (fun expression => .value (Expression.tree expression)) .compared
                condition.chain) := by
  have texts : ∀ {used : List Located} {tokens : List Token}, used.map (·.token) = tokens →
      (lexemesOf tokens).map Lexeme.text = used.map (·.token.text) := by
    rintro used _ rfl
    simp [lexemesOf, Token.text_lexeme]
  constructor
  · intro after success
    obtain ⟨used, expression, tokens, spelled, emits⟩ :=
      exists_emits Pass.translates_expression stands success
    rw [Expression.bodyOf_actions] at emits
    obtain ⟨lexed, following⟩ := (lexes_expression spelled).lex_eq
    exact ⟨used, _, emits, lexed ▸ texts tokens, following, expression, tokens,
      Expression.equality_lex_iff spelled⟩
  · intro after success
    obtain ⟨used, condition, tokens, spelled, emits⟩ :=
      exists_emits Pass.translates_condition stands success
    rw [Condition.bodyOf_actions] at emits
    obtain ⟨lexed, following⟩ := (lexes_condition spelled).lex_eq
    refine ⟨used, _, emits, lexed ▸ texts tokens, following, condition, tokens, _, fun other => ?_,
      condition.inOrder_equations, condition.tree_equations_of_uniform⟩
    rw [lexed, condition.lexemesOf_tokens]
    exact equality_lexemes_iff condition.equations

theorem expression_of_signs_regroups :
    ∃ state after : State Emitter, state.StandsIn "5--3*2" ∧ Pass.expression state = .ok () after ∧
      ∃ used text, Emits state used text after ∧
        (lex text).map Lexeme.text = ["5", "-", "-", "3", "*", "2"] ∧
        ∀ tree, Equality (lex text) tree ↔
          tree = .value (.summed .minus (.number "5")
            (.scaled .multiply (.signed .minus (.number "3")) (.number "2"))) := by
  let difference : Expression :=
    ⟨⟨⟨none, .number "5"⟩, []⟩,
      [(.minus, ⟨⟨some .minus, .number "3"⟩, [(.multiply, ⟨none, .number "2"⟩)]⟩)]⟩
  have tokens : (feedOf "5--3*2").tokens.map (·.token) =
      Expression.tokens difference ++ [.newline] := by
    decide +kernel
  obtain ⟨state, after, used, stands, accepted, emitted, usedTokens⟩ :=
    exists_accepted_expression ⟨7, by decide +kernel⟩ tokens rfl
  obtain ⟨moved, text, emits, texts, -, expression, movedTokens, unique⟩ :=
    (expressions_and_conditions_regroup stands).1 after accepted
  obtain ⟨rfl, rfl⟩ := emits.unique emitted
  obtain rfl : expression = difference :=
    separable_expression.injective (movedTokens.symm.trans usedTokens)
  have words : moved.map (·.token.text) = (moved.map (·.token)).map Token.text := by simp
  rw [words, usedTokens] at texts
  exact ⟨state, after, stands, accepted, moved, _, emits, texts, unique⟩

end TeenyBasic
