import TeenyBasic.Pass.State

/-!
Syntax trees of programs and the grammar that ties them to tokens.

```
program    := NEWLINE* statement* EOF
statement  := PRINT (STRING | expression) nl
            | IF comparison THEN nl statement* ENDIF nl
            | WHILE comparison REPEAT nl statement* ENDWHILE nl
            | LABEL IDENT nl | GOTO IDENT nl | LET IDENT = expression nl
            | INPUT IDENT nl | RND IDENT nl
comparison := expression (cmpop expression)+
expression := term ((+ | -) term)*
term       := unary ((* | /) unary)*
unary      := (+ | -)? primary
primary    := NUMBER | IDENT
nl         := NEWLINE+
```

A tree says nothing about how many line ends stand where the grammar allows several, so one tree
derives many token lists. What a program does with its names is read off the tree as a list of
occurrences in the order of the text.
-/

set_option autoImplicit false

namespace TeenyBasic.Grammar

/-- Items with operators between them. -/
structure Chain (op item : Type) where
  first : item
  rest : List (op × item)
  deriving DecidableEq, Repr

namespace Chain

variable {op item τ : Type}

/-- The items, in order. -/
def items (chain : Chain op item) : List item :=
  chain.first :: chain.rest.map (·.2)

/-- The items and operators written one after the other. -/
def spell (mark : op → τ) (word : item → List τ) (chain : Chain op item) : List τ :=
  word chain.first ++ chain.rest.flatMap fun (op, item) => mark op :: word item

end Chain

inductive Operand where
  | number (digits : String)
  | name (text : String)
  deriving DecidableEq, Repr

/-- An operand with or without a sign before it. -/
structure Factor where
  sign : Option Sign
  operand : Operand
  deriving DecidableEq, Repr

abbrev Term := Chain Scaling Factor

abbrev Expression := Chain Sign Term

/-- Expressions with comparisons between them, at least one. -/
structure Condition where
  chain : Chain Comparison Expression
  compares : chain.rest ≠ []
  deriving DecidableEq, Repr

/-- A statement that holds no other statements. -/
inductive Simple where
  | printText (body : String)
  | printValue (value : Expression)
  | label (name : String)
  | goto (name : String)
  | assign (name : String) (value : Expression)
  | input (name : String)
  | random (name : String)
  deriving DecidableEq, Repr

inductive Statement where
  | simple (statement : Simple)
  | block (block : Block) (condition : Condition) (body : List Statement)
  deriving Repr

structure Program where
  statements : List Statement
  deriving Repr

/-! ## Tokens -/

def Operand.tokens : Operand → List Token
  | .number digits => [.number digits]
  | .name text => [.name text]

def signToken (sign : Sign) : Token :=
  .operator (.sign sign)

def scalingToken (scaling : Scaling) : Token :=
  .operator (.scaling scaling)

def comparisonToken (comparison : Comparison) : Token :=
  .operator (.comparison comparison)

def Factor.tokens (factor : Factor) : List Token :=
  factor.sign.toList.map signToken ++ factor.operand.tokens

def Term.tokens (term : Term) : List Token :=
  term.spell scalingToken Factor.tokens

/-- Whether a term starts with a sign. -/
def Term.isSigned (term : Term) : Bool :=
  term.first.sign.isSome

def Expression.tokens (expression : Expression) : List Token :=
  expression.spell signToken Term.tokens

def Condition.tokens (condition : Condition) : List Token :=
  condition.chain.spell comparisonToken Expression.tokens

/-- The tokens of a statement up to the end of its line. -/
def Simple.tokens : Simple → List Token
  | .printText body => [.keyword .print, .string body]
  | .printValue value => .keyword .print :: Expression.tokens value
  | .label name => [.keyword .label, .name name]
  | .goto name => [.keyword .goto, .name name]
  | .assign name value =>
    .keyword .let_ :: .name name :: .operator .assign :: Expression.tokens value
  | .input name => [.keyword .input, .name name]
  | .random name => [.keyword .rnd, .name name]

/-- One line end or more. -/
def LineEnds (tokens : List Token) : Prop :=
  ∃ count, tokens = List.replicate (count + 1) .newline

inductive Derives : List Statement → List Token → Prop where
  | nil : Derives [] []
  | simple (statement : Simple) {rest : List Statement} {ends more : List Token} :
      LineEnds ends → Derives rest more →
      Derives (.simple statement :: rest) (statement.tokens ++ ends ++ more)
  | block (block : Block) (condition : Condition) {body rest : List Statement}
      {openingEnds inner closingEnds more : List Token} :
      LineEnds openingEnds → Derives body inner → LineEnds closingEnds → Derives rest more →
      Derives (.block block condition body :: rest)
        (.keyword block.opener :: condition.tokens ++ .keyword block.separator :: openingEnds ++
          inner ++ .keyword block.terminator :: closingEnds ++ more)

def Program.Derives (program : Program) (tokens : List Token) : Prop :=
  ∃ count used, Grammar.Derives program.statements used ∧
    tokens = List.replicate count .newline ++ used ++ [.endOfInput]

/-! ## Names -/

/-- What a program does with a name at one place. -/
inductive Occurrence where
  /-- The name stands after `LET`, `INPUT`, `RND`, `LABEL` or `GOTO`. -/
  | introduced (name : String)
  /-- The name is the target of `LET` or `INPUT`. -/
  | assigned (name : String)
  /-- The name is an operand. -/
  | read (name : String)
  | placed (label : String)
  | jumped (label : String)
  deriving DecidableEq, Repr

def Operand.variables : Operand → List String
  | .number _ => []
  | .name text => [text]

def Term.variables (term : Term) : List String :=
  term.items.flatMap (·.operand.variables)

def Expression.variables (expression : Expression) : List String :=
  expression.items.flatMap Term.variables

def Condition.variables (condition : Condition) : List String :=
  condition.chain.items.flatMap Expression.variables

def Simple.occurrences : Simple → List Occurrence
  | .printText _ => []
  | .printValue value => (Expression.variables value).map .read
  | .label name => [.placed name, .introduced name]
  | .goto name => [.introduced name, .jumped name]
  | .assign name value =>
    .introduced name :: .assigned name :: (Expression.variables value).map .read
  | .input name => [.introduced name, .assigned name]
  | .random name => [.introduced name]

mutual

def Statement.occurrences : Statement → List Occurrence
  | .simple statement => statement.occurrences
  | .block _ condition body => condition.variables.map .read ++ occurrencesOf body

def occurrencesOf : List Statement → List Occurrence
  | [] => []
  | statement :: rest => statement.occurrences ++ occurrencesOf rest

end

/-- Every use of a name in a program, in the order of the text. -/
def Program.occurrences (program : Program) : List Occurrence :=
  occurrencesOf program.statements

def Occurrence.label? : Occurrence → Option String
  | .placed label => some label
  | _ => none

/-- The labels that are placed, in order. -/
def labelsPlaced (occurrences : List Occurrence) : List String :=
  occurrences.filterMap Occurrence.label?

/-- The conditions on names that the grammar does not express. -/
structure Program.Valid (program : Program) : Prop where
  unreserved : ∀ name, .introduced name ∈ program.occurrences → name ∉ reservedNames
  readAssigned : ∀ before name after,
    program.occurrences = before ++ .read name :: after → .assigned name ∈ before
  labelsDistinct : (labelsPlaced program.occurrences).Nodup
  jumpsPlaced : ∀ label, .jumped label ∈ program.occurrences → .placed label ∈ program.occurrences

end TeenyBasic.Grammar
