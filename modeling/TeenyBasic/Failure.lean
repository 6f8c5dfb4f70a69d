import TeenyBasic.Diagnostic
import TeenyBasic.Text.Escape
import TeenyBasic.Token.Lexing

/-!
Why a program is refused. A cause says what is wrong in terms of tokens and names; its code,
wording and hint are functions of the cause (`Failure.diagnostic`).
-/

set_option autoImplicit false

namespace TeenyBasic

/-- What a program made of well-formed tokens can be refused for. -/
inductive Refusal where
  | unexpectedToken (wanted found : Kind)
  | expectedOperand (found : Token)
  | expectedStatement (found : Token)
  | expectedComparison (found : Token)
  | undefinedVariable (name : String)
  | reservedName (name : String)
  | duplicateLabel (name : String)
  | undefinedLabel (name : String)
  deriving DecidableEq, Repr

/-- Why a program is refused: a fault inside a token, or a refusal found on a line. -/
inductive Cause where
  | lexical (fault : LexicalFault)
  | refused (refusal : Refusal) (line : Nat)
  deriving DecidableEq, Repr

structure Failure where
  cause : Cause
  span : Span
  deriving DecidableEq, Repr

namespace LexicalFault

def code : LexicalFault → Code
  | unknownCharacter _ => .invalidCharacter
  | loneBang _ => .invalidBang
  | unterminatedString => .unterminatedString
  | illegalInString _ => .illegalCharacterInString
  | missingFraction => .invalidDecimal

def message : LexicalFault → String
  | unknownCharacter c => "Unknown token: " ++ Text.escaped c
  | loneBang next => "Expected !=, got !" ++ (next.map Text.escaped).getD ""
  | unterminatedString => "Unterminated string literal"
  | illegalInString c => "Illegal character in string: " ++ Text.escaped c
  | missingFraction => "Illegal character in number: expected a digit after '.'"

def hint : LexicalFault → Option String
  | unknownCharacter _ => none
  | loneBang _ => some "'!' is only valid as part of '!='"
  | unterminatedString => some "Close the string with '\"' before the end of the line"
  | illegalInString _ =>
    some "Strings are printed with printf; '%', '\\' and escapes are not allowed"
  | missingFraction => some "Write 3.0 instead of 3."

end LexicalFault

namespace Keyword

/-- Keywords kept for later: no statement starts with them and none contains them. -/
def isUnsupported : Keyword → Bool
  | else_ | elseIf | int | abs => true
  | _ => false

end Keyword

namespace Refusal

def code : Refusal → Code
  | unexpectedToken _ _ => .unexpectedToken
  | expectedOperand _ => .expectedExpression
  | expectedStatement _ => .expectedStatement
  | expectedComparison _ => .expectedComparison
  | undefinedVariable _ => .undefinedVariable
  | reservedName _ => .reservedName
  | duplicateLabel _ => .duplicateLabel
  | undefinedLabel _ => .undefinedLabel

/-- The wording of a refusal, without its line. -/
def message : Refusal → String
  | unexpectedToken wanted found => "Expected " ++ wanted.title ++ ", got " ++ found.title
  | expectedOperand found => "Unexpected token at " ++ found.describe
  | expectedStatement found => "Invalid statement at " ++ found.describe
  | expectedComparison found => "Expected comparison operator at: " ++ found.describe
  | undefinedVariable name => "Referencing variable before assignment: " ++ name
  | reservedName name => "Name is reserved in the generated C: " ++ name
  | duplicateLabel name => "Label already exists: " ++ name
  | undefinedLabel name => "Attempting to GOTO to undeclared label: " ++ name

def hint : Refusal → Option String
  | unexpectedToken _ _ => none
  | expectedOperand _ => none
  | expectedStatement found =>
    match found with
    | .keyword word =>
      if word.isUnsupported then some (word.spelling ++ " is reserved but not supported") else none
    | _ => none
  | expectedComparison _ => some "Conditions need one of ==, !=, <, <=, >, >="
  | undefinedVariable _ => some "Assign it with LET or INPUT before using it"
  | reservedName _ => some "Pick a name that is not a C keyword or C library name"
  | duplicateLabel _ => some "Each LABEL name may be declared only once"
  | undefinedLabel name => some ("Add `LABEL " ++ name ++ "` somewhere in the program")

end Refusal

namespace Cause

def code : Cause → Code
  | lexical fault => fault.code
  | refused refusal _ => refusal.code

/-- The wording of a cause. A refusal ends in its line. -/
def message : Cause → String
  | lexical fault => fault.message
  | refused refusal line => refusal.message ++ " (line " ++ toString line ++ ")"

def hint : Cause → Option String
  | lexical fault => fault.hint
  | refused refusal _ => refusal.hint

end Cause

namespace LexicalError

def failure (error : LexicalError) : Failure :=
  { cause := .lexical error.fault, span := error.span }

end LexicalError

namespace Failure

def diagnostic (failure : Failure) : Diagnostic :=
  { code := failure.cause.code
    message := failure.cause.message
    span := failure.span
    hint := failure.cause.hint }

end Failure

end TeenyBasic
