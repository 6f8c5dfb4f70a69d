import TeenyBasic.Proofs.CLanguage.Arithmetic
import TeenyBasic.Proofs.Regrouping

/-!
What an expression is worth, in the language and in the emitted C. The language has one kind of number:
literals are decimals, and arithmetic is exact. The emitted text keeps the literals as they are written,
so C takes those without a point for ints. Its value is the language's value as long as no int constant
of eight or more starts with `0` and every quotient of ints comes out whole; otherwise some part of the
expression has another value in C, or none.
-/

set_option autoImplicit false

namespace TeenyBasic

namespace Grammar

open CLanguage

/-! ## The value of an expression -/

def Operand.value (assignment : String → Rat) : Operand → Rat
  | .number digits => decimalValue digits
  | .name text => assignment text

def Factor.value (assignment : String → Rat) (factor : Factor) : Rat :=
  match factor.sign with
  | none => factor.operand.value assignment
  | some sign => CLanguage.signed sign (factor.operand.value assignment)

/-- Items combined from the left. -/
def Chain.value? {op item : Type} (itemValue? : item → Option Rat)
    (combine? : op → Rat → Rat → Option Rat) (chain : Chain op item) : Option Rat := do
  chain.rest.foldlM (fun left round => do combine? round.1 left (← itemValue? round.2))
    (← itemValue? chain.first)

def Term.value? (assignment : String → Rat) (term : Term) : Option Rat :=
  Chain.value? (fun factor => some (Factor.value assignment factor)) (scaled? (· / ·)) term

/-- The value of an expression; none if it divides by zero. -/
def Expression.value? (assignment : String → Rat) (expression : Expression) : Option Rat :=
  Chain.value? (Term.value? assignment) (fun op left right => some (summed op left right)) expression

variable {assignment : String → Rat}

private theorem exactValue?_leftTree {op item : Type} {leaf : item → Arithmetic}
    {node : op → Arithmetic → Arithmetic → Arithmetic} {itemValue? : item → Option Rat}
    {combine? : op → Rat → Rat → Option Rat}
    (leaves : ∀ item, (leaf item).exactValue? assignment = itemValue? item)
    (nodes : ∀ op left right, (node op left right).exactValue? assignment = do
      combine? op (← left.exactValue? assignment) (← right.exactValue? assignment))
    (chain : Chain op item) :
    (leftTree leaf node chain).exactValue? assignment = chain.value? itemValue? combine? := by
  obtain ⟨first, rounds⟩ := chain
  rw [leftTree, Chain.value?, ← leaves]
  generalize leaf first = left
  induction rounds generalizing left with
  | nil => simp
  | cons round rounds ih =>
    rw [List.foldl_cons, ih, nodes, leaves]
    simp [Option.bind_assoc]

private theorem Factor.exactValue?_tree (factor : Factor) :
    factor.tree.exactValue? assignment = some (factor.value assignment) := by
  obtain ⟨sign, operand⟩ := factor
  cases sign <;> cases operand <;> rfl

private theorem Expression.exactValue?_tree (expression : Expression) :
    (Expression.tree expression).exactValue? assignment =
      Expression.value? assignment expression := by
  have terms : ∀ term, (Term.tree term).exactValue? assignment = Term.value? assignment term :=
    exactValue?_leftTree Factor.exactValue?_tree fun _ _ _ => rfl
  exact exactValue?_leftTree terms (fun _ _ _ => rfl) expression

private theorem spelled_leftTree {op item : Type} {leaf : item → Arithmetic}
    {node : op → Arithmetic → Arithmetic → Arithmetic} {chain : Chain op item}
    (leaves : ∀ item ∈ chain.items, (leaf item).Spelled)
    (nodes : ∀ op left right, left.Spelled → right.Spelled → (node op left right).Spelled) :
    (leftTree leaf node chain).Spelled := by
  obtain ⟨first, rounds⟩ := chain
  obtain ⟨here, later⟩ := List.forall_mem_cons.mp leaves
  rw [leftTree]
  refine List.foldlRecOn rounds _ here ?_
  intro left spelled round inside
  exact nodes _ _ _ spelled (later _ (List.mem_map.mpr ⟨round, inside, rfl⟩))

private theorem Expression.spelled_tree {expression : Expression}
    (spelled : ∀ token ∈ Expression.tokens expression, token.Spelled) :
    (Expression.tree expression).Spelled := by
  refine spelled_leftTree (fun term inTerms => ?_) fun _ _ _ left right => ⟨left, right⟩
  refine spelled_leftTree (fun factor inFactors => ?_) fun _ _ _ left right => ⟨left, right⟩
  have tokens : ∀ token ∈ factor.tokens, token.Spelled := fun token member =>
    spelled token (mem_spell_of_mem_items inTerms (mem_spell_of_mem_items inFactors member))
  obtain ⟨sign, operand⟩ := factor
  cases operand with
  | name text => cases sign <;> trivial
  | number digits =>
    have numeral : Token.Spelled (.number digits) :=
      tokens _ (by simp [Factor.tokens, Operand.tokens])
    cases sign <;> exact numeral

end Grammar

open Grammar CLanguage

/-- C gives an emitted expression its value as long as it misreads no part, and exactly then it gives
every part the exact value. -/
theorem expression_value_iff_not_misread {source : String} {state after : State Emitter}
    (stands : state.StandsIn source) (success : Pass.expression state = .ok () after) :
    ∃ used text expression, Emits state used text after ∧
      used.map (·.token) = Expression.tokens expression ∧
      (∀ tree, Equality (lex text) tree ↔ tree = .value (Expression.tree expression)) ∧
      ∀ assignment value, Expression.value? assignment expression = some value →
        ((∀ part ∈ (Expression.tree expression).parts, part.isMisread assignment = false) →
          ((Expression.tree expression).value? assignment).map Value.toRat = some value) ∧
        ((∀ part ∈ (Expression.tree expression).parts, part.isMisread assignment = false) ↔
          ∀ part ∈ (Expression.tree expression).parts,
            (part.value? assignment).map Value.toRat = part.exactValue? assignment) := by
  obtain ⟨used, expression, tokens, spelled, emits⟩ :=
    exists_emits Pass.translates_expression stands success
  rw [Expression.bodyOf_actions] at emits
  refine ⟨used, _, expression, emits, tokens, Expression.equality_lex_iff spelled, ?_⟩
  intro assignment value evaluates
  rw [← Expression.exactValue?_tree] at evaluates
  have defined := Option.isSome_of_eq_some evaluates
  have agree := Arithmetic.agrees_parts_iff (Expression.spelled_tree spelled) defined
  refine ⟨fun read => ?_, agree.symm⟩
  rw [← evaluates]
  exact agree.mpr read _ (Arithmetic.mem_parts _)

theorem value_of_whole_quotients :
    ∃ state after : State Emitter, state.StandsIn "6/2-0.5/2" ∧
      Pass.expression state = .ok () after ∧
      ∃ used text tree, Emits state used text after ∧
        (∀ other, Equality (lex text) other ↔ other = .value tree) ∧
        (tree.value? fun _ => 0).map Value.toRat = some (11 / 4) := by
  let difference : Expression :=
    ⟨⟨⟨none, .number "6"⟩, [(.divide, ⟨none, .number "2"⟩)]⟩,
      [(.minus, ⟨⟨none, .number "0.5"⟩, [(.divide, ⟨none, .number "2"⟩)]⟩)]⟩
  have tokens : (feedOf "6/2-0.5/2").tokens.map (·.token) =
      Expression.tokens difference ++ [.newline] := by
    decide +kernel
  obtain ⟨state, after, used, stands, accepted, emitted, usedTokens⟩ :=
    exists_accepted_expression ⟨10, by decide +kernel⟩ tokens rfl
  obtain ⟨moved, text, expression, emits, movedTokens, unique, values⟩ :=
    expression_value_iff_not_misread stands accepted
  obtain ⟨rfl, rfl⟩ := emits.unique emitted
  obtain rfl : expression = difference :=
    separable_expression.injective (movedTokens.symm.trans usedTokens)
  have evaluates : Expression.value? (fun _ => 0) difference = some (11 / 4) := by decide +kernel
  have read : ∀ part ∈ (Expression.tree difference).parts, part.isMisread (fun _ => 0) = false := by
    decide +kernel
  exact ⟨state, after, stands, accepted, moved, _, _, emits, unique,
    (values _ _ evaluates).1 read⟩

theorem quotient_of_ints_loses_fraction :
    ∃ state after : State Emitter, state.StandsIn "1/2" ∧ Pass.expression state = .ok () after ∧
      ∃ used text expression tree, Emits state used text after ∧
        used.map (·.token) = Expression.tokens expression ∧
        (∀ other, Equality (lex text) other ↔ other = .value tree) ∧
        Expression.value? (fun _ => 0) expression = some (1 / 2) ∧
        (tree.value? fun _ => 0) = some (.int 0) := by
  let half : Expression := ⟨⟨⟨none, .number "1"⟩, [(.divide, ⟨none, .number "2"⟩)]⟩, []⟩
  have tokens : (feedOf "1/2").tokens.map (·.token) = Expression.tokens half ++ [.newline] := by
    decide +kernel
  obtain ⟨state, after, used, stands, accepted, emits, usedTokens⟩ :=
    exists_accepted_expression ⟨4, by decide +kernel⟩ tokens rfl
  have spelled : ∀ token ∈ Expression.tokens half, token.Spelled := by
    intro token member
    apply spelled_of_mem_tokens "1/2"
    rw [tokens]
    exact List.mem_append_left _ member
  exact ⟨state, after, stands, accepted, used, _, half, _, emits, usedTokens,
    Expression.equality_lex_iff spelled, by decide +kernel, by decide +kernel⟩

end TeenyBasic
