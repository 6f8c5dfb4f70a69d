import TeenyBasic.Span

/-!
Diagnostics as they are shown: a code, a message, the stretch of text they are about and, for some,
a hint. They do not know how they came about; see `Failure` for the causes.
-/

set_option autoImplicit false

namespace TeenyBasic

inductive Code where
  | invalidCharacter
  | invalidBang
  | unterminatedString
  | illegalCharacterInString
  | invalidDecimal
  | unexpectedToken
  | expectedExpression
  | expectedStatement
  | expectedComparison
  | undefinedVariable
  | reservedName
  | duplicateLabel
  | undefinedLabel
  deriving DecidableEq, Repr

namespace Code

def all : List Code :=
  [invalidCharacter, invalidBang, unterminatedString, illegalCharacterInString, invalidDecimal,
   unexpectedToken, expectedExpression, expectedStatement, expectedComparison, undefinedVariable,
   reservedName, duplicateLabel, undefinedLabel]

def number : Code → String
  | invalidCharacter => "E001"
  | invalidBang => "E002"
  | unterminatedString => "E010"
  | illegalCharacterInString => "E011"
  | invalidDecimal => "E025"
  | unexpectedToken => "E100"
  | expectedExpression => "E103"
  | expectedStatement => "E104"
  | expectedComparison => "E105"
  | undefinedVariable => "E200"
  | reservedName => "E201"
  | duplicateLabel => "E250"
  | undefinedLabel => "E251"

def ofNumber? (number : String) : Option Code :=
  all.find? fun code => code.number == number

def isLexical : Code → Bool
  | invalidCharacter | invalidBang | unterminatedString | illegalCharacterInString
  | invalidDecimal => true
  | _ => false

end Code

structure Diagnostic where
  code : Code
  message : String
  span : Span
  hint : Option String := none
  deriving DecidableEq, Repr

namespace Diagnostic

/-- The diagnostic on one line, without its place and its hint. -/
def summary (diagnostic : Diagnostic) : String :=
  "[" ++ diagnostic.code.number ++ "] " ++ diagnostic.message

end Diagnostic

end TeenyBasic
