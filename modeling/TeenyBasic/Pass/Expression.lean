import TeenyBasic.Pass.Progress

/-!
Expressions and conditions. Their tokens are written to the C text one by one as they are read: both
languages group them the same way, so nothing has to be rearranged. One space goes between a plus
or minus and a sign that follows it, or C would read the two as one operator.
-/

set_option autoImplicit false

namespace TeenyBasic.Pass

variable {σ : Type} [Sink σ]

/-- A number, or a variable that has been given a value. -/
def operand : Pass σ Unit := fun state =>
  match state.current.token with
  | .number _ => copyToken state
  | .name name =>
    if state.declared.contains name then copyToken state
    else refuse (.undefinedVariable name) state
  | other => refuse (.expectedOperand other) state

def signedOperand : Pass σ Unit := do
  let here ← current
  if here.kind.isSign then copyToken
  operand

def scalingRound : Pass σ Unit := do
  copyToken
  signedOperand

theorem keeps_operand : Keeps (operand : Pass σ Unit) := by
  intro state result after success
  unfold operand at success
  split at success
  · exact keeps_copyToken state result after success
  · split at success
    · exact keeps_copyToken state result after success
    · exact keeps_refuse _ state result after success
  · exact keeps_refuse _ state result after success

theorem keeps_signedOperand : Keeps (signedOperand : Pass σ Unit) := by
  unfold signedOperand
  refine Keeps.current_bind fun here => ?_
  split
  · exact Keeps.bind keeps_copyToken fun _ => keeps_operand
  · exact keeps_operand

theorem uses_scalingRound :
    Uses (fun state => standsAt Kind.isScaling state = true) (scalingRound : Pass σ Unit) :=
  (uses_copyToken.bind fun _ => keeps_signedOperand).mono
    fun _ found => token_ne_endOfInput rfl found

def term : Pass σ Unit := do
  signedOperand
  repeatWhile (standsAt Kind.isScaling) scalingRound uses_scalingRound

def signRound : Pass σ Unit := do
  copyToken
  let here ← current
  if here.kind.isSign then emit " "
  term

theorem keeps_term : Keeps (term : Pass σ Unit) :=
  Keeps.bind keeps_signedOperand fun _ => keeps_repeatWhile uses_scalingRound

theorem uses_signRound :
    Uses (fun state => standsAt Kind.isSign state = true) (signRound : Pass σ Unit) := by
  refine (uses_copyToken.bind fun _ => Keeps.current_bind fun here => ?_).mono
    fun _ found => token_ne_endOfInput rfl found
  split
  · exact Keeps.bind (keeps_emit _) fun _ => keeps_term
  · exact keeps_term

/-- Terms that are added and subtracted. -/
def expression : Pass σ Unit := do
  term
  repeatWhile (standsAt Kind.isSign) signRound uses_signRound

def comparisonRound : Pass σ Unit := do
  copyToken
  expression

theorem keeps_expression : Keeps (expression : Pass σ Unit) :=
  Keeps.bind keeps_term fun _ => keeps_repeatWhile uses_signRound

theorem uses_comparisonRound :
    Uses (fun state => standsAt Kind.isComparison state = true)
      (comparisonRound : Pass σ Unit) :=
  (uses_copyToken.bind fun _ => keeps_expression).mono
    fun _ found => token_ne_endOfInput rfl found

/-- Expressions with comparisons between them, at least one. -/
def condition : Pass σ Unit := do
  expression
  let here ← current
  if here.kind.isComparison then
    repeatWhile (standsAt Kind.isComparison) comparisonRound uses_comparisonRound
  else
    refuse (.expectedComparison here.token)

theorem keeps_condition : Keeps (condition : Pass σ Unit) := by
  refine Keeps.bind keeps_expression fun _ => Keeps.current_bind fun here => ?_
  split
  · exact keeps_repeatWhile uses_comparisonRound
  · exact keeps_refuse _

end TeenyBasic.Pass
