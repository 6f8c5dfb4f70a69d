import TeenyBasic.Proofs.Spelling
import TeenyBasic.Failure
import TeenyBasic.Names

/-!
Names by the tokens before them. What a name is there for shows in the one token before it: after `LET`
and `INPUT` a variable is given a value, after `LABEL` a label is placed, after `GOTO` it is jumped to,
and after `PRINT`, `IF`, `WHILE` and the operators a value is read. `disallowance?` says from the tokens
up to a name alone whether the name may stand there.
-/

set_option autoImplicit false

namespace TeenyBasic

namespace Token

def name? : Token → Option String
  | name text => some text
  | _ => none

/-- Whether the name after the token is given a value and counts as a variable from then on. -/
def assigns : Token → Bool
  | keyword .let_ | keyword .input => true
  | _ => false

/-- Whether the name after the token becomes a label. -/
def places : Token → Bool
  | keyword .label => true
  | _ => false

/-- Whether the name after the token is jumped to. -/
def jumps : Token → Bool
  | keyword .goto => true
  | _ => false

/-- Whether the name after the token has to be fit for the C text. -/
def introduces : Token → Bool
  | keyword .rnd => true
  | token => token.assigns || token.places || token.jumps

/-- Whether an operand stands after the token. -/
def asksOperand : Token → Bool
  | keyword .print | keyword .if_ | keyword .while_ | operator _ => true
  | _ => false

theorem asksOperand_of_introduces {token : Token} (introduces : token.introduces = true) :
    token.asksOperand = false := by
  cases token with
  | keyword word => cases word <;> first | rfl | cases introduces
  | _ => cases introduces

theorem introduces_of_assigns {token : Token} (assigns : token.assigns = true) :
    token.introduces = true := by
  cases token with
  | keyword word => cases word <;> first | rfl | cases assigns
  | _ => cases assigns

theorem introduces_of_places {token : Token} (places : token.places = true) :
    token.introduces = true := by
  cases token with
  | keyword word => cases word <;> first | rfl | cases places
  | _ => cases places

theorem introduces_of_jumps {token : Token} (jumps : token.jumps = true) :
    token.introduces = true := by
  cases token with
  | keyword word => cases word <;> first | rfl | cases jumps
  | _ => cases jumps

end Token

/-- Whether the last of the tokens passes the test. -/
def precededBy (test : Token → Bool) (tokens : List Located) : Bool :=
  tokens.getLast?.any (test ·.token)

/-- The names right after tokens that pass the test, with their spans, in order. -/
def namesAfter (test : Token → Bool) (tokens : List Located) : List (String × Span) :=
  (tokens.zip tokens.tail).filterMap fun (before, here) =>
    if test before.token then here.token.name?.map (·, here.span) else none

/-- The variables that are given a value, in the order of their first ones. -/
def targets (tokens : List Located) : List String :=
  ((namesAfter Token.assigns tokens).map Prod.fst).eraseDups

/-- The labels that are placed, in order. -/
def labelsOf (tokens : List Located) : List String :=
  (namesAfter Token.places tokens).map Prod.fst

/-- The labels that are jumped to and where they are named, in order. -/
def jumpsOf (tokens : List Located) : List (String × Span) :=
  namesAfter Token.jumps tokens

/-- Why the token may not stand after the others, if it is a name and that is what is wrong. -/
def disallowance? (used : List Located) : Token → Option Refusal
  | .name name =>
    if precededBy Token.asksOperand used then
      if name ∈ targets used then none else some (.undefinedVariable name)
    else if precededBy Token.places used ∧ name ∈ labelsOf used then some (.duplicateLabel name)
    else if precededBy Token.introduces used ∧ isReserved name then some (.reservedName name)
    else none
  | _ => none

/-! ## One token more -/

section Concat

variable {test : Token → Bool} {used : List Located} {here : Located} {name : String}

@[simp] theorem precededBy_concat : precededBy test (used ++ [here]) = test here.token := by
  simp [precededBy]

theorem exists_last_of_precededBy (preceded : precededBy test used = true) :
    ∃ last, used.getLast? = some last ∧ test last.token = true := by
  unfold precededBy at preceded
  cases last : used.getLast? with
  | none => simp [last] at preceded
  | some located => exact ⟨located, rfl, by simpa [last] using preceded⟩

theorem precededBy_eq_false {other : Token → Bool}
    (excludes : ∀ token, test token = true → other token = false)
    (preceded : precededBy test used = true) : precededBy other used = false := by
  obtain ⟨last, found, passes⟩ := exists_last_of_precededBy preceded
  simp [precededBy, found, excludes _ passes]

theorem precededBy_mono {other : Token → Bool}
    (implies : ∀ token, test token = true → other token = true)
    (preceded : precededBy test used = true) : precededBy other used = true := by
  obtain ⟨last, found, passes⟩ := exists_last_of_precededBy preceded
  simp [precededBy, found, implies _ passes]

private theorem zip_tail_concat {α : Type} (items : List α) (last : α) :
    (items ++ [last]).zip (items ++ [last]).tail =
      items.zip items.tail ++ items.getLast?.toList.map (·, last) := by
  induction items with
  | nil => rfl
  | cons first items ih =>
    cases items with
    | nil => rfl
    | cons second items => simpa [List.getLast?_cons_cons] using ih

theorem namesAfter_concat :
    namesAfter test (used ++ [here]) = namesAfter test used ++
      if precededBy test used then (here.token.name?.map (·, here.span)).toList else [] := by
  rw [namesAfter, zip_tail_concat, List.filterMap_append, ← namesAfter, precededBy]
  cases used.getLast? with
  | none => rfl
  | some last =>
    by_cases passes : test last.token = true
    · cases named : here.token.name? <;> simp [passes, named]
    · simp [passes]

/-- A token that is no name after one of the words adds nothing. -/
theorem namesAfter_concat_eq (adds : precededBy test used = false ∨ here.token.name? = none) :
    namesAfter test (used ++ [here]) = namesAfter test used := by
  rw [namesAfter_concat]
  rcases adds with apart | nameless
  · simp [apart]
  · simp [nameless]

theorem namesAfter_concat_name (preceded : precededBy test used = true)
    (named : here.token = .name name) :
    namesAfter test (used ++ [here]) = namesAfter test used ++ [(name, here.span)] := by
  simp [namesAfter_concat, preceded, named, Token.name?]

theorem mem_targets :
    name ∈ targets used ↔ name ∈ (namesAfter Token.assigns used).map Prod.fst :=
  List.mem_eraseDups

theorem mem_targets_concat (member : name ∈ targets used) : name ∈ targets (used ++ [here]) := by
  rw [mem_targets] at member ⊢
  rw [namesAfter_concat, List.map_append]
  exact List.mem_append_left _ member

private theorem eraseDups_concat (names : List String) (last : String) :
    (names ++ [last]).eraseDups =
      if last ∈ names then names.eraseDups else names.eraseDups ++ [last] := by
  rw [List.eraseDups_append]
  by_cases member : last ∈ names
  · simp [List.removeAll, member]
  · simp [List.removeAll, member, List.eraseDups_cons]

theorem targets_concat (preceded : precededBy Token.assigns used = true)
    (named : here.token = .name name) :
    targets (used ++ [here]) =
      if name ∈ targets used then targets used else targets used ++ [name] := by
  simp only [mem_targets]
  rw [targets, namesAfter_concat_name preceded named, List.map_append]
  exact eraseDups_concat _ name

theorem disallowance?_eq_undefinedVariable {token : Token} :
    disallowance? used token = some (.undefinedVariable name) ↔
      token = .name name ∧ precededBy Token.asksOperand used = true ∧ name ∉ targets used := by
  cases token with
  | name found => grind [disallowance?]
  | _ => simp [disallowance?]

theorem disallowance?_eq_duplicateLabel {token : Token} :
    disallowance? used token = some (.duplicateLabel name) ↔
      token = .name name ∧ precededBy Token.places used = true ∧ name ∈ labelsOf used := by
  have notAsked : precededBy Token.places used = true → precededBy Token.asksOperand used = false :=
    precededBy_eq_false fun _ places =>
      Token.asksOperand_of_introduces (Token.introduces_of_places places)
  cases token with
  | name found => grind [disallowance?]
  | _ => simp [disallowance?]

end Concat

end TeenyBasic
