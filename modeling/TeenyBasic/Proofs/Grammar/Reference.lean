import TeenyBasic.Proofs.Grammar.Tree

/-!
The C text of a program, tree by tree. Every line of C is written out here as it reads, and none is taken
from the tables the pass writes from (`CLines`). Only operands and operators are not written out again:
C has them as the source has them, so they are the texts of their tokens (`verbatim`).
-/

set_option autoImplicit false

namespace TeenyBasic.Grammar

/-- Tokens as they stand, one right after the other. -/
def verbatim (tokens : List Token) : String :=
  String.join (tokens.map Token.text)

@[simp] theorem verbatim_nil : verbatim [] = "" := rfl

@[simp] theorem verbatim_cons (token : Token) (tokens : List Token) :
    verbatim (token :: tokens) = token.text ++ verbatim tokens := by
  simp [verbatim]

@[simp] theorem verbatim_append (front back : List Token) :
    verbatim (front ++ back) = verbatim front ++ verbatim back := by
  simp [verbatim]

theorem verbatim_flatMap {α : Type} (tokens : α → List Token) (items : List α) :
    verbatim (items.flatMap tokens) = String.join (items.map fun item => verbatim (tokens item)) := by
  induction items with
  | nil => rfl
  | cons item items ih => simp [ih]

def Term.cText (term : Term) : String :=
  verbatim (Term.tokens term)

/-- A plus or minus and the term after it, with a space before the term's own sign. -/
def Expression.cRound (round : Sign × Term) : String :=
  verbatim [signToken round.1] ++
    ((if Term.isSigned round.2 then " " else "") ++ Term.cText round.2)

def Expression.cText (expression : Expression) : String :=
  Term.cText expression.first ++ String.join (expression.rest.map Expression.cRound)

def Condition.cText (condition : Condition) : String :=
  Expression.cText condition.chain.first ++
    String.join (condition.chain.rest.map fun (comparison, expression) =>
      verbatim [comparisonToken comparison] ++ Expression.cText expression)

def Simple.cLines : Simple → List String
  | .printText body => ["printf(\"" ++ body ++ "\\n\");"]
  | .printValue value => ["printf(\"%.2f\\n\", (float)(" ++ Expression.cText value ++ "));"]
  | .label name => [name ++ ":"]
  | .goto name => ["goto " ++ name ++ ";"]
  | .assign name value => [name ++ " = " ++ Expression.cText value ++ ";"]
  | .input name =>
    ["if(0 == scanf(\"%f\", &" ++ name ++ ")) \x7b",
      name ++ " = 0;",
      "scanf(\"%*s\");",
      "\x7d"]
  | .random name =>
    ["srand(time(0));",
      "float " ++ name ++ " = rand() % 100 + 1;"]

def cOpening : Block → Condition → String
  | .conditional, condition => "if(" ++ condition.cText ++ ")\x7b"
  | .loop, condition => "while(" ++ condition.cText ++ ")\x7b"

mutual

def Statement.cLines : Statement → List String
  | .simple statement => statement.cLines
  | .block block condition body => cOpening block condition :: cLinesOf body ++ ["\x7d"]

def cLinesOf : List Statement → List String
  | [] => []
  | statement :: rest => statement.cLines ++ cLinesOf rest

end

mutual

/-- The targets of `LET` and `INPUT`, in the order of the text. -/
def Statement.targets : Statement → List String
  | .simple (.assign name _) => [name]
  | .simple (.input name) => [name]
  | .simple _ => []
  | .block _ _ body => targetsOf body

def targetsOf : List Statement → List String
  | [] => []
  | statement :: rest => statement.targets ++ targetsOf rest

end

/-- The lines of C before the first statement: each target is declared once, where it comes first. -/
def Program.cHeader (program : Program) : List String :=
  ["#include <stdio.h>",
    "#include <stdlib.h>",
    "#include <time.h>",
    "int main(void)\x7b"] ++
    (targetsOf program.statements).eraseDups.map fun name => "float " ++ name ++ ";"

def Program.cLines (program : Program) : List String :=
  program.cHeader ++ cLinesOf program.statements ++ ["return 0;", "\x7d"]

/-- Lines, each with its line feed. -/
def linesText (lines : List String) : String :=
  String.join (lines.map (· ++ "\n"))

@[simp] theorem linesText_nil : linesText [] = "" := rfl

@[simp] theorem linesText_cons (line : String) (lines : List String) :
    linesText (line :: lines) = line ++ "\n" ++ linesText lines := by
  simp [linesText]

@[simp] theorem linesText_append (front back : List String) :
    linesText (front ++ back) = linesText front ++ linesText back := by
  simp [linesText]

def Program.cText (program : Program) : String :=
  linesText program.cLines

end TeenyBasic.Grammar
