import TeenyBasic.Proofs.CLanguage.Lexing

/-!
How C groups the operators of arithmetic and comparison. Each level of precedence is left-associative
over the next tighter one: signs bind tightest, then `*` and `/`, then `+` and `-`, then the relations
`<`, `<=`, `>`, `>=`, and `==` and `!=` last.

A level is the same as chains of items of the next tighter level (`leftAssociative_iff`), and chains are
separable, so a list of lexemes has at most one tree (`equality_lexemes_iff`).
-/

set_option autoImplicit false

namespace TeenyBasic

namespace CLanguage

open Grammar

inductive Arithmetic where
  | number (text : String)
  | name (text : String)
  | signed (sign : Sign) (operand : Arithmetic)
  | scaled (op : Scaling) (left right : Arithmetic)
  | summed (op : Sign) (left right : Arithmetic)
  deriving DecidableEq, Repr

inductive Comparative where
  | value (arithmetic : Arithmetic)
  | compared (comparison : Comparison) (left right : Comparative)
  deriving DecidableEq, Repr

/-- The operands of comparisons and the comparisons between them, as they stand in the text. -/
def Comparative.inOrder : Comparative → Chain Comparison Arithmetic
  | .value arithmetic => ⟨arithmetic, []⟩
  | .compared comparison left right =>
    ⟨left.inOrder.first,
      left.inOrder.rest ++ (comparison, right.inOrder.first) :: right.inOrder.rest⟩

def signLexeme : Sign → Lexeme
  | .plus => .punctuator "+"
  | .minus => .punctuator "-"

def scalingLexeme : Scaling → Lexeme
  | .multiply => .punctuator "*"
  | .divide => .punctuator "/"

def comparisonLexeme : Comparison → Lexeme
  | .equal => .punctuator "=="
  | .notEqual => .punctuator "!="
  | .less => .punctuator "<"
  | .lessEqual => .punctuator "<="
  | .greater => .punctuator ">"
  | .greaterEqual => .punctuator ">="

def isRelational : Comparison → Bool
  | .equal => false
  | .notEqual => false
  | _ => true

abbrev Relation := { comparison : Comparison // isRelational comparison = true }

abbrev Equation := { comparison : Comparison // isRelational comparison = false }

/-! ## Grammar -/

inductive Unary : List Lexeme → Arithmetic → Prop where
  | number (text : String) : Unary [.number text] (.number text)
  | name (text : String) : Unary [.word text] (.name text)
  | signed (sign : Sign) {lexemes : List Lexeme} {operand : Arithmetic} :
      Unary lexemes operand → Unary (signLexeme sign :: lexemes) (.signed sign operand)

inductive LeftAssociative {op tree : Type} (mark : op → Lexeme) (node : op → tree → tree → tree)
    (tighter : List Lexeme → tree → Prop) : List Lexeme → tree → Prop where
  | alone {lexemes : List Lexeme} {single : tree} :
      tighter lexemes single → LeftAssociative mark node tighter lexemes single
  | node (op : op) {before after : List Lexeme} {left right : tree} :
      LeftAssociative mark node tighter before left → tighter after right →
      LeftAssociative mark node tighter (before ++ mark op :: after) (node op left right)

def Multiplicative : List Lexeme → Arithmetic → Prop :=
  LeftAssociative scalingLexeme .scaled Unary

def Additive : List Lexeme → Arithmetic → Prop :=
  LeftAssociative signLexeme .summed Multiplicative

def Relational : List Lexeme → Comparative → Prop :=
  LeftAssociative (fun relation : Relation => comparisonLexeme relation)
    (fun relation => .compared relation)
    fun lexemes tree => ∃ arithmetic, Additive lexemes arithmetic ∧ tree = .value arithmetic

def Equality : List Lexeme → Comparative → Prop :=
  LeftAssociative (fun equation : Equation => comparisonLexeme equation)
    (fun equation => .compared equation) Relational

/-! ## Chains -/

section Chains

variable {op item tree : Type}

/-- The items of a chain grouped from the left. -/
def leftTree (leaf : item → tree) (node : op → tree → tree → tree) (chain : Chain op item) : tree :=
  chain.rest.foldl (fun left round => node round.1 left (leaf round.2)) (leaf chain.first)

private theorem leftAssociative_foldl {mark : op → Lexeme} {node : op → tree → tree → tree}
    {tighter : List Lexeme → tree → Prop} {word : item → List Lexeme} {leaf : item → tree}
    (items : ∀ item, tighter (word item) (leaf item)) (rounds : List (op × item))
    {before : List Lexeme} {left : tree} (grouped : LeftAssociative mark node tighter before left) :
    LeftAssociative mark node tighter
      (before ++ rounds.flatMap fun (op, item) => mark op :: word item)
      (rounds.foldl (fun left round => node round.1 left (leaf round.2)) left) := by
  induction rounds generalizing before left with
  | nil => simpa using grouped
  | cons round rounds ih =>
    have next := ih (.node round.1 grouped (items round.2))
    simpa using next

theorem leftAssociative_iff {mark : op → Lexeme} {node : op → tree → tree → tree}
    {tighter : List Lexeme → tree → Prop} {word : item → List Lexeme} {leaf : item → tree}
    (items : ∀ lexemes single,
      tighter lexemes single ↔ ∃ item, lexemes = word item ∧ single = leaf item)
    {lexemes : List Lexeme} {whole : tree} :
    LeftAssociative mark node tighter lexemes whole ↔
      ∃ chain : Chain op item, lexemes = chain.spell mark word ∧ whole = leftTree leaf node chain := by
  constructor
  · intro grouped
    induction grouped with
    | alone single =>
      obtain ⟨item, rfl, rfl⟩ := (items _ _).mp single
      exact ⟨⟨item, []⟩, by simp [Chain.spell], rfl⟩
    | node op _ single ih =>
      obtain ⟨⟨first, rounds⟩, rfl, rfl⟩ := ih
      obtain ⟨item, rfl, rfl⟩ := (items _ _).mp single
      refine ⟨⟨first, rounds ++ [(op, item)]⟩, ?_, ?_⟩
      · simp [Chain.spell]
      · simp [leftTree]
  · rintro ⟨⟨first, rounds⟩, rfl, rfl⟩
    have each : ∀ item, tighter (word item) (leaf item) := fun item => (items _ _).mpr ⟨item, rfl, rfl⟩
    exact leftAssociative_foldl each rounds (.alone (each first))

end Chains

/-- Signs before an operand. -/
structure Signed where
  signs : List Sign
  operand : Operand
  deriving DecidableEq, Repr

def operandLexeme : Operand → Lexeme
  | .number digits => .number digits
  | .name text => .word text

def operandTree : Operand → Arithmetic
  | .number digits => .number digits
  | .name text => .name text

def Signed.lexemes (signed : Signed) : List Lexeme :=
  signed.signs.map signLexeme ++ [operandLexeme signed.operand]

def Signed.tree (signed : Signed) : Arithmetic :=
  signed.signs.foldr .signed (operandTree signed.operand)

private theorem unary_iff {lexemes : List Lexeme} {tree : Arithmetic} :
    Unary lexemes tree ↔ ∃ signed : Signed, lexemes = signed.lexemes ∧ tree = signed.tree := by
  constructor
  · intro reads
    induction reads with
    | number text => exact ⟨⟨[], .number text⟩, rfl, rfl⟩
    | name text => exact ⟨⟨[], .name text⟩, rfl, rfl⟩
    | signed sign _ ih =>
      obtain ⟨⟨signs, operand⟩, rfl, rfl⟩ := ih
      exact ⟨⟨sign :: signs, operand⟩, rfl, rfl⟩
  · rintro ⟨⟨signs, operand⟩, rfl, rfl⟩
    induction signs with
    | nil =>
      cases operand with
      | number digits => exact .number digits
      | name text => exact .name text
    | cons sign signs ih => exact .signed sign ih

abbrev Product := Chain Scaling Signed

abbrev Sum := Chain Sign Product

abbrev RelationChain := Chain Relation Sum

abbrev EquationChain := Chain Equation RelationChain

def Product.lexemes : Product → List Lexeme :=
  Chain.spell scalingLexeme Signed.lexemes

def Product.tree : Product → Arithmetic :=
  leftTree Signed.tree .scaled

def Sum.lexemes : Sum → List Lexeme :=
  Chain.spell signLexeme Product.lexemes

def Sum.tree : Sum → Arithmetic :=
  leftTree Product.tree .summed

def RelationChain.lexemes : RelationChain → List Lexeme :=
  Chain.spell (fun relation : Relation => comparisonLexeme relation) Sum.lexemes

def RelationChain.tree : RelationChain → Comparative :=
  leftTree (fun sum => .value (Sum.tree sum)) fun relation => .compared relation

def EquationChain.lexemes : EquationChain → List Lexeme :=
  Chain.spell (fun equation : Equation => comparisonLexeme equation) RelationChain.lexemes

def EquationChain.tree : EquationChain → Comparative :=
  leftTree RelationChain.tree fun equation => .compared equation

private theorem equality_iff {lexemes : List Lexeme} {tree : Comparative} :
    Equality lexemes tree ↔
      ∃ chain : EquationChain, lexemes = EquationChain.lexemes chain ∧
        tree = EquationChain.tree chain := by
  have products : ∀ lexemes tree, Multiplicative lexemes tree ↔
      ∃ product : Product, lexemes = Product.lexemes product ∧ tree = Product.tree product :=
    fun _ _ => leftAssociative_iff fun _ _ => unary_iff
  have sums : ∀ lexemes tree, Additive lexemes tree ↔
      ∃ sum : Sum, lexemes = Sum.lexemes sum ∧ tree = Sum.tree sum :=
    fun _ _ => leftAssociative_iff products
  have values : ∀ lexemes (tree : Comparative),
      (∃ arithmetic, Additive lexemes arithmetic ∧ tree = .value arithmetic) ↔
        ∃ sum : Sum, lexemes = Sum.lexemes sum ∧ tree = .value (Sum.tree sum) := by
    intro lexemes tree
    simp only [sums]
    constructor
    · rintro ⟨_, ⟨sum, rfl, rfl⟩, rfl⟩
      exact ⟨sum, rfl, rfl⟩
    · rintro ⟨sum, rfl, rfl⟩
      exact ⟨_, ⟨sum, rfl, rfl⟩, rfl⟩
  have relations : ∀ lexemes tree, Relational lexemes tree ↔
      ∃ chain : RelationChain, lexemes = RelationChain.lexemes chain ∧
        tree = RelationChain.tree chain :=
    fun _ _ => leftAssociative_iff values
  exact leftAssociative_iff relations

/-! ## At most one tree -/

private theorem operandLexeme_ne_signLexeme (operand : Operand) (sign : Sign) :
    operandLexeme operand ≠ signLexeme sign := by
  cases operand <;> cases sign <;> simp [operandLexeme, signLexeme]

private theorem operandLexeme_injective {first second : Operand}
    (same : operandLexeme first = operandLexeme second) : first = second := by
  cases first <;> cases second <;> simp_all [operandLexeme]

theorem signLexeme_injective {first second : Sign} (same : signLexeme first = signLexeme second) :
    first = second := by
  cases first <;> cases second <;> simp_all [signLexeme]

theorem comparisonLexeme_injective {first second : Comparison}
    (same : comparisonLexeme first = comparisonLexeme second) : first = second := by
  cases first <;> cases second <;> simp_all [comparisonLexeme]

private theorem separable_signed : Separable Signed.lexemes fun _ => false := by
  rintro ⟨signs, operand⟩ ⟨otherSigns, other⟩ rest otherRest same - -
  simp only [Signed.lexemes, List.append_assoc, List.singleton_append] at same
  induction signs generalizing otherSigns with
  | nil =>
    cases otherSigns with
    | nil =>
      obtain ⟨sameOperand, rfl⟩ := List.cons.inj same
      rw [operandLexeme_injective sameOperand]
      exact ⟨rfl, rfl⟩
    | cons sign otherSigns =>
      exact absurd (List.cons.inj same).1 (operandLexeme_ne_signLexeme operand sign)
  | cons sign signs ih =>
    cases otherSigns with
    | nil => exact absurd (List.cons.inj same).1.symm (operandLexeme_ne_signLexeme other sign)
    | cons otherSign otherSigns =>
      obtain ⟨sameSign, sameRest⟩ := List.cons.inj same
      obtain ⟨sameSigned, rfl⟩ := ih otherSigns sameRest
      cases sameSigned
      rw [signLexeme_injective sameSign]
      exact ⟨rfl, rfl⟩

def isScalingMark (lexeme : Lexeme) : Bool :=
  lexeme = .punctuator "*" || lexeme = .punctuator "/"

def isSignMark (lexeme : Lexeme) : Bool :=
  lexeme = .punctuator "+" || lexeme = .punctuator "-"

def isRelationMark (lexeme : Lexeme) : Bool :=
  lexeme = .punctuator "<" || lexeme = .punctuator "<=" || lexeme = .punctuator ">" ||
    lexeme = .punctuator ">="

def isEquationMark (lexeme : Lexeme) : Bool :=
  lexeme = .punctuator "==" || lexeme = .punctuator "!="

private theorem separable_product :
    Separable Product.lexemes fun lexeme => false || isScalingMark lexeme := by
  apply separable_signed.chain scalingLexeme isScalingMark
  · intro first second same
    cases first <;> cases second <;> simp_all [scalingLexeme]
  · exact fun _ => rfl
  · intro op
    cases op <;> rfl

private theorem separable_sum :
    Separable Sum.lexemes fun lexeme =>
      (false || isScalingMark lexeme) || isSignMark lexeme := by
  apply separable_product.chain signLexeme isSignMark
  · exact fun _ _ => signLexeme_injective
  · intro op
    cases op <;> rfl
  · intro op
    cases op <;> rfl

private theorem separable_relationChain :
    Separable RelationChain.lexemes fun lexeme =>
      ((false || isScalingMark lexeme) || isSignMark lexeme) || isRelationMark lexeme := by
  apply separable_sum.chain (fun relation : Relation => comparisonLexeme relation) isRelationMark
  · exact fun _ _ same => Subtype.ext (comparisonLexeme_injective same)
  · rintro ⟨comparison, _⟩
    cases comparison <;> rfl
  · rintro ⟨comparison, relational⟩
    cases comparison with
    | equal | notEqual => cases relational
    | less | lessEqual | greater | greaterEqual => rfl

private theorem separable_equationChain :
    Separable EquationChain.lexemes fun lexeme =>
      (((false || isScalingMark lexeme) || isSignMark lexeme) || isRelationMark lexeme) ||
        isEquationMark lexeme := by
  apply separable_relationChain.chain (fun equation : Equation => comparisonLexeme equation)
    isEquationMark
  · exact fun _ _ same => Subtype.ext (comparisonLexeme_injective same)
  · rintro ⟨comparison, notRelational⟩
    cases comparison with
    | equal | notEqual => rfl
    | less | lessEqual | greater | greaterEqual => cases notRelational
  · rintro ⟨comparison, notRelational⟩
    cases comparison with
    | equal | notEqual => rfl
    | less | lessEqual | greater | greaterEqual => cases notRelational

/-- The lexemes of a chain of chains have its tree and no other. -/
theorem equality_lexemes_iff (chain : EquationChain) {tree : Comparative} :
    Equality (EquationChain.lexemes chain) tree ↔ tree = EquationChain.tree chain := by
  rw [equality_iff]
  constructor
  · rintro ⟨other, same, rfl⟩
    rw [separable_equationChain.injective same]
  · rintro rfl
    exact ⟨chain, rfl, rfl⟩

end CLanguage

end TeenyBasic
