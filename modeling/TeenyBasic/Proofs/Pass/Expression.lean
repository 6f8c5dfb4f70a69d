import TeenyBasic.Pass.Expression
import TeenyBasic.Proofs.Pass.Words

/-!
Expressions and conditions are translated as the grammar says: the pass accepts the tokens of a tree
just when its variables have values, and what it writes is the tree's own text.
-/

set_option autoImplicit false

namespace TeenyBasic.Pass

open Grammar

variable {σ : Type} [Sink σ]

namespace Words

variable {α op item : Type}

theorem many_spelled_iff {tokens : α → List Token} {actions : α → List Action}
    {read : List Token} {done : List Action} :
    Many (spelled tokens actions) read done ↔
      ∃ trees : List α, read = trees.flatMap tokens ∧ done = trees.flatMap actions := by
  constructor
  · intro many
    induction many with
    | nil => exact ⟨[], rfl, rfl⟩
    | cons word _ ih =>
      obtain ⟨tree, rfl, rfl⟩ := word
      obtain ⟨trees, rfl, rfl⟩ := ih
      exact ⟨tree :: trees, rfl, rfl⟩
  · rintro ⟨trees, rfl, rfl⟩
    induction trees with
    | nil => exact .nil
    | cons tree trees ih => exact .cons ⟨tree, rfl, rfl⟩ ih

/-- An item and any number of rounds after it are a chain. -/
theorem seq_many_iff {tokens : item → List Token} {actions : item → List Action}
    {roundTokens : op × item → List Token} {roundActions : op × item → List Action}
    {read : List Token} {done : List Action} :
    (spelled tokens actions).seq (Many (spelled roundTokens roundActions)) read done ↔
      spelled (fun chain : Chain op item => tokens chain.first ++ chain.rest.flatMap roundTokens)
        (fun chain => actions chain.first ++ chain.rest.flatMap roundActions) read done := by
  constructor
  · rintro ⟨_, _, _, _, rfl, rfl, ⟨first, rfl, rfl⟩, many⟩
    obtain ⟨rest, rfl, rfl⟩ := many_spelled_iff.mp many
    exact ⟨⟨first, rest⟩, rfl, rfl⟩
  · rintro ⟨⟨first, rest⟩, rfl, rfl⟩
    exact ⟨_, _, _, _, rfl, rfl, ⟨first, rfl, rfl⟩, many_spelled_iff.mpr ⟨rest, rfl, rfl⟩⟩

end Words

/-! ## Operands -/

private theorem operand_of_number {state : State σ} {digits : String}
    (current : state.current.token = .number digits) : operand state = copyToken state := by
  unfold operand
  rw [current]

private theorem operand_of_name {state : State σ} {name : String}
    (current : state.current.token = .name name) (declared : state.declared.contains name = true) :
    operand state = copyToken state := by
  unfold operand
  rw [current]
  exact if_pos declared

private theorem operand_of_undeclared {state : State σ} {name : String}
    (current : state.current.token = .name name) (undeclared : state.declared.contains name = false) :
    operand state = .error (refusedAt state (.undefinedVariable name)) state := by
  unfold operand
  rw [current]
  exact if_neg (by simp [undeclared])

private theorem performs_read {state : State σ} {name : String}
    (declared : state.declared.contains name = true) :
    state.Performs [.occur (.read name)] state where
  account := by
    rw [Account.performAll_singleton]
    exact Account.perform_occur_eq_ok.mpr (.read declared)
  blocks := rfl
  ending := rfl

theorem translates_operand :
    Translates (operand : Pass σ Unit) anyKind
      (fun _ => Words.spelled Operand.tokens Operand.actions) anyKind where
  sound := by
    intro state tokens result after faces _ success
    cases current : state.current.token with
    | number digits =>
      rw [operand_of_number current] at success
      obtain ⟨rest, rfl⟩ := faces.eq_cons (by simp [current])
      obtain ⟨facesRest, performs⟩ := copyToken_sound faces success
      rw [current] at performs
      exact ⟨[state.current], rest, _, rfl, ⟨.number digits, by simp [current, Operand.tokens], rfl⟩,
        facesRest, performs⟩
    | name name =>
      obtain ⟨rest, rfl⟩ := faces.eq_cons (by simp [current])
      cases declared : state.declared.contains name with
      | false => simp [operand, current, declared, refuse] at success
      | true =>
        rw [operand_of_name current declared] at success
        obtain ⟨facesRest, performs⟩ := copyToken_sound faces success
        rw [current] at performs
        exact ⟨[state.current], rest, _, rfl, ⟨.name name, by simp [current, Operand.tokens], rfl⟩,
          facesRest, (performs_read declared).trans performs⟩
    | _ => simp [operand, current, refuse] at success
  complete := by
    intro state used rest result actions final faces faultless word _ allowed
    obtain ⟨tree, spelled, rfl⟩ := word
    cases tree with
    | number digits =>
      obtain ⟨located, rfl, token⟩ := exists_located_of_map_eq spelled
      have current : state.current.token = .number digits := by rw [faces.of_current.1, token]
      obtain ⟨after, success⟩ := copyToken_complete faces faultless
      obtain ⟨facesRest, performs⟩ := copyToken_sound faces success
      rw [token] at performs
      exact ⟨after, (operand_of_number current).trans success, facesRest, performs⟩
    | name name =>
      obtain ⟨located, rfl, token⟩ := exists_located_of_map_eq spelled
      have current : state.current.token = .name name := by rw [faces.of_current.1, token]
      obtain ⟨between, read, _⟩ := Account.performAll_cons_eq_ok.mp allowed
      have declared : state.declared.contains name = true := by
        cases Account.perform_occur_eq_ok.mp read with
        | read declared => exact declared
      obtain ⟨after, success⟩ := copyToken_complete faces faultless
      obtain ⟨facesRest, performs⟩ := copyToken_sound faces success
      rw [token] at performs
      exact ⟨after, (operand_of_name current declared).trans success, facesRest,
        (performs_read declared).trans performs⟩
  blocked := by
    intro state used rest result actions refusal faces faultless word _ refused
    obtain ⟨tree, spelled, rfl⟩ := word
    cases tree with
    | number digits => cases refused
    | name name =>
      obtain ⟨located, rfl, token⟩ := exists_located_of_map_eq spelled
      have current : state.current.token = .name name := by rw [faces.of_current.1, token]
      rcases Account.performAll_cons_eq_error.mp refused with refusedRead | ⟨_, _, refusedCopy⟩
      · cases Account.perform_occur_eq_error.mp refusedRead with
        | read undeclared =>
          exact ⟨_, state, state.line, operand_of_undeclared current undeclared, rfl⟩
      · cases refusedCopy
  explained := by
    intro state tokens failure after faces _ failed
    cases current : state.current.token with
    | number digits =>
      rw [operand_of_number current] at failed
      exact explained_advance faces (copyToken_eq_error failed)
    | name name =>
      cases declared : state.declared.contains name with
      | true =>
        rw [operand_of_name current declared] at failed
        exact explained_advance faces (copyToken_eq_error failed)
      | false =>
        rw [operand_of_undeclared current declared] at failed
        cases failed
        exact ⟨[], tokens, [], rfl, faces, .refl _, .disallowed () [] rfl current
          ⟨.name name, rfl, rfl⟩ (by simp)⟩
    | _ =>
      simp only [operand, current, refuse] at failed
      cases failed
      exact ⟨[], tokens, [], rfl, faces, .refl _, .misplaced () _ rfl
        ⟨.number "0", rfl, rfl⟩ (by simpa using Token.readable_zero) rfl⟩
  fills := fun _ =>
    ⟨(), [.number "0"], _, _, ⟨.number "0", rfl, rfl⟩, by simpa using Token.readable_zero, rfl⟩

/-! ## Chains -/

theorem isSign_iff (token : Token) : token.kind.isSign = true ↔ ∃ sign, token = signToken sign := by
  constructor
  · intro found
    cases token with
    | operator op => cases op with
      | sign sign => exact ⟨sign, rfl⟩
      | _ => cases found
    | _ => cases found
  · rintro ⟨sign, rfl⟩
    rfl

theorem isScaling_iff (token : Token) :
    token.kind.isScaling = true ↔ ∃ scaling, token = scalingToken scaling := by
  constructor
  · intro found
    cases token with
    | operator op => cases op with
      | scaling scaling => exact ⟨scaling, rfl⟩
      | _ => cases found
    | _ => cases found
  · rintro ⟨scaling, rfl⟩
    rfl

theorem isComparison_iff (token : Token) :
    token.kind.isComparison = true ↔ ∃ comparison, token = comparisonToken comparison := by
  constructor
  · intro found
    cases token with
    | operator op => cases op with
      | comparison comparison => exact ⟨comparison, rfl⟩
      | _ => cases found
    | _ => cases found
  · rintro ⟨comparison, rfl⟩
    rfl

theorem translates_signedOperand :
    Translates (signedOperand : Pass σ Unit) anyKind
      (fun _ => Words.spelled Factor.tokens Factor.actions) anyKind := by
  have copying := translates_copyToken (σ := σ) (fun kind => kind.isSign = true) (by simp [Kind.isSign])
    ⟨signToken .plus, Token.readable_operator _, rfl⟩
  have signed := copying.bind_step (fun _ => translates_operand) fun _ _ _ _ _ _ _ => trivial
  refine (signed.branch Kind.isSign translates_operand.of_any ?_ ?_).congr ?_
  · rintro _ _ _ ⟨_, _, _, _, _, rfl, -, ⟨token, isSign, rfl, -⟩, -⟩
    exact ⟨token, _, rfl, isSign⟩
  · rintro _ _ _ ⟨operand, rfl, -⟩
    cases operand <;> exact ⟨_, _, rfl, rfl⟩
  · intro _ tokens actions
    constructor
    · rintro (⟨_, _, _, _, _, rfl, rfl, ⟨token, isSign, rfl, rfl⟩, operand, rfl, rfl⟩ |
        ⟨operand, rfl, rfl⟩)
      · obtain ⟨sign, rfl⟩ := (isSign_iff token).mp isSign
        exact ⟨⟨some sign, operand⟩, rfl, rfl⟩
      · exact ⟨⟨none, operand⟩, rfl, rfl⟩
    · rintro ⟨⟨sign, operand⟩, rfl, rfl⟩
      cases sign with
      | some sign =>
        exact .inl ⟨(), _, _, _, _, rfl, rfl, ⟨signToken sign, rfl, rfl, rfl⟩, operand, rfl, rfl⟩
      | none => exact .inr ⟨operand, rfl, rfl⟩

/-- An operator and an item after it are a round of a chain. -/
theorem Words.token_seq_iff {op item : Type} (test : Kind → Prop) {mark : op → Token}
    (marks : ∀ token : Token, test token.kind ↔ ∃ op, token = mark op)
    {tokens : item → List Token} {actions : item → List Action} {read : List Token}
    {done : List Action} :
    (Words.token test).seq (spelled tokens actions) read done ↔
      spelled (fun round : op × item => mark round.1 :: tokens round.2)
        (fun round => copied (mark round.1) :: actions round.2) read done := by
  constructor
  · rintro ⟨_, _, _, _, rfl, rfl, ⟨token, passes, rfl, rfl⟩, item, rfl, rfl⟩
    obtain ⟨op, rfl⟩ := (marks token).mp passes
    exact ⟨(op, item), rfl, rfl⟩
  · rintro ⟨⟨op, item⟩, rfl, rfl⟩
    exact ⟨[mark op], _, [copied (mark op)], _, rfl, rfl,
      ⟨mark op, (marks _).mpr ⟨op, rfl⟩, rfl, rfl⟩, item, rfl, rfl⟩

theorem translates_scalingRound :
    Translates (scalingRound : Pass σ Unit) (fun kind => kind.isScaling = true)
      (fun _ => Words.spelled
        (fun round : Scaling × Factor => scalingToken round.1 :: round.2.tokens)
        fun round => copied (scalingToken round.1) :: round.2.actions) anyKind := by
  have copying :=
    translates_copyToken (σ := σ) (fun kind => kind.isScaling = true) (by simp [Kind.isScaling])
      ⟨scalingToken .multiply, Token.readable_operator _, rfl⟩
  refine (copying.bind_step (fun _ => translates_signedOperand)
    fun _ _ _ _ _ _ _ => trivial).congr fun _ tokens actions => ?_
  rw [exists_const]
  exact Words.token_seq_iff _ isScaling_iff

/-- The rounds of a term, after its first operand. -/
def scalings : Pass σ Unit :=
  repeatWhile (standsAt Kind.isScaling) scalingRound uses_scalingRound

theorem translates_scalings :
    Translates (scalings : Pass σ Unit) anyKind
      (fun _ => Words.Many (Words.spelled
        (fun round : Scaling × Factor => scalingToken round.1 :: round.2.tokens)
        fun round => copied (scalingToken round.1) :: round.2.actions))
      fun kind => kind.isScaling = false := by
  have loop := (translates_scalingRound (σ := σ)).repeatWhile uses_scalingRound
    (by rintro _ _ ⟨round, rfl, rfl⟩; exact ⟨_, _, rfl, rfl⟩) fun _ _ => trivial
  exact loop.weaken fun _ stopped => ⟨trivial, stopped⟩

/-- The terms that start with a sign, or those that do not. -/
def signedTerms (signed : Bool) : Words := fun read done =>
  ∃ term : Term, Term.isSigned term = signed ∧ read = Term.tokens term ∧ done = Term.actions term

theorem translates_unsignedTerm :
    Translates (do operand; scalings : Pass σ Unit) anyKind (fun _ => signedTerms false)
      fun kind => kind.isScaling = false := by
  refine (translates_operand.bind_step (fun _ => translates_scalings)
    fun _ _ _ _ _ _ _ => trivial).congr fun _ read done => ?_
  constructor
  · rintro ⟨_, _, _, _, _, rfl, rfl, ⟨operand, rfl, rfl⟩, many⟩
    obtain ⟨rounds, rfl, rfl⟩ := Words.many_spelled_iff.mp many
    exact ⟨⟨⟨none, operand⟩, rounds⟩, rfl, rfl, rfl⟩
  · rintro ⟨⟨⟨sign, operand⟩, rounds⟩, unsigned, rfl, rfl⟩
    obtain rfl : sign = none := by simpa [Term.isSigned] using unsigned
    exact ⟨(), _, _, _, _, rfl, rfl, ⟨operand, rfl, rfl⟩,
      Words.many_spelled_iff.mpr ⟨rounds, rfl, rfl⟩⟩

theorem translates_signedTerm :
    Translates (do copyToken; operand; scalings : Pass σ Unit) (fun kind => kind.isSign = true)
      (fun _ => signedTerms true) fun kind => kind.isScaling = false := by
  have copying := translates_copyToken (σ := σ) (fun kind => kind.isSign = true) (by simp [Kind.isSign])
    ⟨signToken .plus, Token.readable_operator _, rfl⟩
  refine (copying.bind_step (fun _ => translates_unsignedTerm)
    fun _ _ _ _ _ _ _ => trivial).congr fun _ read done => ?_
  constructor
  · rintro ⟨_, _, _, _, _, rfl, rfl, ⟨token, isSign, rfl, rfl⟩, ⟨⟨⟨sign, operand⟩, rounds⟩, unsigned, rfl, rfl⟩⟩
    obtain rfl : sign = none := by simpa [Term.isSigned] using unsigned
    obtain ⟨sign, rfl⟩ := (isSign_iff token).mp isSign
    exact ⟨⟨⟨some sign, operand⟩, rounds⟩, rfl, rfl, rfl⟩
  · rintro ⟨⟨⟨sign, operand⟩, rounds⟩, signed, rfl, rfl⟩
    obtain ⟨sign, rfl⟩ : ∃ found, sign = some found := by
      simpa [Term.isSigned, Option.isSome_iff_exists] using signed
    exact ⟨(), [signToken sign], _, [copied (signToken sign)], _, rfl, rfl,
      ⟨signToken sign, rfl, rfl, rfl⟩, ⟨⟨none, operand⟩, rounds⟩, rfl, rfl, rfl⟩

private theorem Term.head_tokens (term : Term) :
    ∃ token rest, Term.tokens term = token :: rest ∧ token.kind.isSign = Term.isSigned term := by
  obtain ⟨⟨sign, operand⟩, factors⟩ := term
  cases sign with
  | some sign => exact ⟨signToken sign, _, rfl, rfl⟩
  | none => cases operand <;> exact ⟨_, _, rfl, rfl⟩

theorem signedTerms.started {signed : Bool} {read : List Token} {done : List Action}
    (word : signedTerms signed read done) :
    ∃ token rest, read = token :: rest ∧ token.kind.isSign = signed := by
  obtain ⟨term, rfl, rfl, -⟩ := word
  exact Term.head_tokens term

/-- A term is told apart by its sign before anything else is read. -/
theorem term_eq :
    (term : Pass σ Unit) = current >>= fun here =>
      if here.kind.isSign then (do copyToken; operand; scalings) else (do operand; scalings) := by
  have split : (signedOperand : Pass σ Unit) = current >>= fun here =>
      if here.kind.isSign then (do copyToken; operand) else operand := rfl
  change (signedOperand >>= fun _ => scalings) = _
  rw [split, bind_assoc]
  congr 1
  funext here
  split <;> simp

theorem translates_term :
    Translates (term : Pass σ Unit) anyKind (fun _ => Words.spelled Term.tokens Term.actions)
      fun kind => kind.isScaling = false := by
  rw [term_eq]
  refine (translates_signedTerm.branch Kind.isSign translates_unsignedTerm.of_any
    (fun _ _ _ => signedTerms.started) (fun _ _ _ => signedTerms.started)).congr fun _ read done => ?_
  constructor
  · rintro (⟨term, -, rfl, rfl⟩ | ⟨term, -, rfl, rfl⟩)
    all_goals exact ⟨term, rfl, rfl⟩
  · rintro ⟨term, rfl, rfl⟩
    cases signed : Term.isSigned term with
    | true => exact .inl ⟨term, signed, rfl, rfl⟩
    | false => exact .inr ⟨term, signed, rfl, rfl⟩

/-- A term after a plus or minus, kept apart from it if it starts with a sign. -/
def spacedActions (term : Term) : List Action :=
  (if Term.isSigned term then [.write (.emit " ")] else []) ++ Term.actions term

private theorem spacedTerm_eq :
    (current >>= fun here => if here.kind.isSign then (do emit " "; term) else term : Pass σ Unit) =
      current >>= fun here =>
        if here.kind.isSign then (do emit " "; copyToken; operand; scalings)
        else (do operand; scalings) := by
  funext state
  rw [current_branch, current_branch]
  split
  · rename_i isSign
    rw [term_eq]
    exact (current_branch Kind.isSign _ _ _).trans (if_pos isSign)
  · rename_i unsigned
    rw [term_eq]
    exact (current_branch Kind.isSign _ _ _).trans (if_neg unsigned)

theorem translates_spacedTerm :
    Translates
      (current >>= fun here => if here.kind.isSign then (do emit " "; term) else term : Pass σ Unit)
      anyKind (fun _ => Words.spelled Term.tokens spacedActions)
      fun kind => kind.isScaling = false := by
  rw [spacedTerm_eq]
  have space : Translates (emit " " : Pass σ Unit) (fun kind => kind.isSign = true)
      (fun _ => Words.only [] [.write (.emit " ")]) anyKind := (translates_emit " ").of_any
  have spaced := space.bind_from (fun _ => translates_signedTerm)
    (by rintro _ _ _ kind ⟨rfl, -⟩ isSign; exact isSign) fun _ _ _ _ _ _ _ => trivial
  refine (spaced.branch Kind.isSign translates_unsignedTerm.of_any ?_
    (fun _ _ _ => signedTerms.started)).congr fun _ read done => ?_
  · rintro _ _ _ ⟨_, _, _, _, _, rfl, -, ⟨rfl, -⟩, word⟩
    exact word.started
  · constructor
    · rintro (⟨_, _, _, _, _, rfl, rfl, ⟨rfl, rfl⟩, term, signed, rfl, rfl⟩ | ⟨term, unsigned, rfl, rfl⟩)
      · exact ⟨term, rfl, by simp [spacedActions, signed]⟩
      · exact ⟨term, rfl, by simp [spacedActions, unsigned]⟩
    · rintro ⟨term, rfl, rfl⟩
      cases signed : Term.isSigned term with
      | true =>
        exact .inl ⟨(), [], _, [.write (.emit " ")], _, rfl, by simp [spacedActions, signed],
          ⟨rfl, rfl⟩, term, signed, rfl, rfl⟩
      | false => exact .inr ⟨term, signed, rfl, by simp [spacedActions, signed]⟩

theorem translates_signRound :
    Translates (signRound : Pass σ Unit) (fun kind => kind.isSign = true)
      (fun _ => Words.spelled
        (fun round : Sign × Term => signToken round.1 :: Term.tokens round.2)
        Expression.roundActions) fun kind => kind.isScaling = false := by
  have copying := translates_copyToken (σ := σ) (fun kind => kind.isSign = true) (by simp [Kind.isSign])
    ⟨signToken .plus, Token.readable_operator _, rfl⟩
  refine (copying.bind_step (fun _ => translates_spacedTerm)
    fun _ _ _ _ _ _ _ => trivial).congr fun _ tokens actions => ?_
  rw [exists_const]
  exact Words.token_seq_iff _ isSign_iff

private theorem isScaling_of_isSign {kind : Kind} (isSign : kind.isSign = true) :
    kind.isScaling = false := by
  cases kind with
  | operator op => cases op <;> first | rfl | cases isSign
  | _ => cases isSign

/-- An expression is over where neither a sign nor a scaling follows. -/
def endsExpression (kind : Kind) : Prop :=
  kind.isScaling = false ∧ kind.isSign = false

theorem translates_expression :
    Translates (expression : Pass σ Unit) anyKind
      (fun _ => Words.spelled Expression.tokens Expression.actions) endsExpression := by
  have starts : ∀ tokens actions,
      Words.spelled (fun round : Sign × Term => signToken round.1 :: Term.tokens round.2)
        Expression.roundActions tokens actions →
      ∃ token rest, tokens = token :: rest ∧ token.kind.isSign = true := by
    rintro _ _ ⟨round, rfl, rfl⟩
    exact ⟨_, _, rfl, rfl⟩
  have loop := (translates_signRound (σ := σ)).repeatWhile uses_signRound starts
    fun _ => isScaling_of_isSign
  have whole := translates_term.bind_step (fun _ => loop) fun _ _ tokens actions kind many ends =>
    many.leads (·.isScaling = false) (fun tokens actions word => by
      obtain ⟨token, rest, rfl, isSign⟩ := starts tokens actions word
      exact ⟨token, rest, rfl, isScaling_of_isSign isSign⟩) ends.1
  refine whole.congr fun _ tokens actions => ?_
  rw [exists_const]
  exact Words.seq_many_iff

theorem translates_comparisonRound :
    Translates (comparisonRound : Pass σ Unit) (fun kind => kind.isComparison = true)
      (fun _ => Words.spelled
        (fun round : Comparison × Expression =>
          comparisonToken round.1 :: Expression.tokens round.2)
        fun round => copied (comparisonToken round.1) :: Expression.actions round.2)
      endsExpression := by
  have copying := translates_copyToken (σ := σ) (fun kind => kind.isComparison = true)
    (by simp [Kind.isComparison]) ⟨comparisonToken .equal, Token.readable_operator _, rfl⟩
  refine (copying.bind_step (fun _ => translates_expression)
    fun _ _ _ _ _ _ _ => trivial).congr fun _ tokens actions => ?_
  rw [exists_const]
  exact Words.token_seq_iff _ isComparison_iff

/-- A condition is over where no expression and no comparison goes on. -/
def endsCondition (kind : Kind) : Prop :=
  endsExpression kind ∧ kind.isComparison = false

private theorem endsExpression_of_isComparison {kind : Kind} (isComparison : kind.isComparison = true) :
    endsExpression kind := by
  cases kind with
  | operator op => cases op <;> first | exact ⟨rfl, rfl⟩ | cases isComparison
  | _ => cases isComparison

/-- What follows the first expression of a condition: one round of the loop and then the loop. -/
theorem translates_comparisons :
    Translates
      (current >>= fun here =>
        if here.kind.isComparison then
          repeatWhile (standsAt Kind.isComparison) comparisonRound uses_comparisonRound
        else refuse (.expectedComparison here.token) : Pass σ Unit)
      anyKind
      (fun _ read done => ∃ rounds : List (Comparison × Expression), rounds ≠ [] ∧
        read = rounds.flatMap (fun round =>
          comparisonToken round.1 :: Expression.tokens round.2) ∧
        done = rounds.flatMap fun round =>
          copied (comparisonToken round.1) :: Expression.actions round.2) endsCondition := by
  have starts : ∀ tokens actions,
      Words.spelled (fun round : Comparison × Expression =>
          comparisonToken round.1 :: Expression.tokens round.2)
        (fun round => copied (comparisonToken round.1) :: Expression.actions round.2)
        tokens actions →
      ∃ token rest, tokens = token :: rest ∧ token.kind.isComparison = true := by
    rintro _ _ ⟨round, rfl, rfl⟩
    exact ⟨_, _, rfl, rfl⟩
  have loop := (translates_comparisonRound (σ := σ)).repeatWhile uses_comparisonRound starts
    fun _ => endsExpression_of_isComparison
  have rounds := translates_comparisonRound.bind_step (fun _ => loop)
    fun _ _ tokens actions kind many ends =>
      many.leads endsExpression (fun tokens actions word => by
        obtain ⟨token, rest, rfl, isComparison⟩ := starts tokens actions word
        exact ⟨token, rest, rfl, endsExpression_of_isComparison isComparison⟩) ends.1
  refine (rounds.congr fun _ read done => ?_).guarded
    (fun state => .expectedComparison state.current.token) (fun state => ?_)
    (fun _ => rfl) ?_
  · constructor
    · rintro ⟨_, _, _, _, _, rfl, rfl, ⟨round, rfl, rfl⟩, many⟩
      obtain ⟨others, rfl, rfl⟩ := Words.many_spelled_iff.mp many
      exact ⟨round :: others, by simp, rfl, rfl⟩
    · rintro ⟨rounds, nonempty, rfl, rfl⟩
      obtain ⟨round, others, rfl⟩ := List.exists_cons_of_ne_nil nonempty
      exact ⟨(), _, _, _, _, rfl, rfl, ⟨round, rfl, rfl⟩,
        Words.many_spelled_iff.mpr ⟨others, rfl, rfl⟩⟩
  · change (if state.current.kind.isComparison then _ else _ : Pass σ Unit) state = _
    split
    · rename_i goesOn
      exact repeatWhile_of_goesOn uses_comparisonRound goesOn
    · rfl
  · rintro _ _ _ ⟨rounds, nonempty, rfl, -⟩
    obtain ⟨round, others, rfl⟩ := List.exists_cons_of_ne_nil nonempty
    exact ⟨_, _, rfl, rfl⟩

theorem translates_condition :
    Translates (condition : Pass σ Unit) anyKind
      (fun _ => Words.spelled Condition.tokens Condition.actions) endsCondition := by
  have whole := (translates_expression (σ := σ)).bind_step (fun _ => translates_comparisons) ?_
  · refine whole.congr fun _ tokens actions => ?_
    constructor
    · rintro ⟨_, _, _, _, _, rfl, rfl, ⟨first, rfl, rfl⟩, rounds, nonempty, rfl, rfl⟩
      exact ⟨⟨⟨first, rounds⟩, nonempty⟩, rfl, rfl⟩
    · rintro ⟨⟨⟨first, rounds⟩, nonempty⟩, rfl, rfl⟩
      exact ⟨(), _, _, _, _, rfl, rfl, ⟨first, rfl, rfl⟩, rounds, nonempty, rfl, rfl⟩
  · rintro _ _ _ _ kind ⟨rounds, nonempty, rfl, -⟩ -
    cases rounds with
    | nil => exact absurd rfl nonempty
    | cons round others => exact ⟨rfl, rfl⟩

end TeenyBasic.Pass
