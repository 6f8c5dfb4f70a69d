import TeenyBasic.Span

/-!
The words of Teeny Tiny BASIC. A token carries exactly the text its kind leaves open: names,
numbers and strings have a text of their own, keywords and operators are spelled one way only.
-/

set_option autoImplicit false

namespace TeenyBasic

/-- Words with a meaning of their own. They are written in capitals. -/
inductive Keyword where
  | label | goto | print | input | let_ | if_ | then_ | endIf | while_ | repeat_ | endWhile
  | elseIf | else_ | rnd | int | abs
  deriving DecidableEq, Repr

namespace Keyword

def all : List Keyword :=
  [label, goto, print, input, let_, if_, then_, endIf, while_, repeat_, endWhile, elseIf, else_,
   rnd, int, abs]

def spelling : Keyword → String
  | label => "LABEL"
  | goto => "GOTO"
  | print => "PRINT"
  | input => "INPUT"
  | let_ => "LET"
  | if_ => "IF"
  | then_ => "THEN"
  | endIf => "ENDIF"
  | while_ => "WHILE"
  | repeat_ => "REPEAT"
  | endWhile => "ENDWHILE"
  | elseIf => "ELSEIF"
  | else_ => "ELSE"
  | rnd => "RND"
  | int => "INT"
  | abs => "ABS"

def ofWord? (word : String) : Option Keyword :=
  all.find? fun keyword => keyword.spelling == word

end Keyword

/-- Plus and minus, between two terms or in front of an operand. -/
inductive Sign where
  | plus | minus
  deriving DecidableEq, Repr

inductive Scaling where
  | multiply | divide
  deriving DecidableEq, Repr

inductive Comparison where
  | equal | notEqual | less | lessEqual | greater | greaterEqual
  deriving DecidableEq, Repr

inductive Operator where
  | assign
  | sign (sign : Sign)
  | scaling (scaling : Scaling)
  | comparison (comparison : Comparison)
  deriving DecidableEq, Repr

namespace Operator

def all : List Operator :=
  [assign, sign .plus, sign .minus, scaling .multiply, scaling .divide, comparison .equal,
   comparison .notEqual, comparison .less, comparison .lessEqual, comparison .greater,
   comparison .greaterEqual]

def spelling : Operator → String
  | assign => "="
  | sign .plus => "+"
  | sign .minus => "-"
  | scaling .multiply => "*"
  | scaling .divide => "/"
  | comparison .equal => "=="
  | comparison .notEqual => "!="
  | comparison .less => "<"
  | comparison .lessEqual => "<="
  | comparison .greater => ">"
  | comparison .greaterEqual => ">="

def title : Operator → String
  | assign => "EQ"
  | sign .plus => "PLUS"
  | sign .minus => "MINUS"
  | scaling .multiply => "ASTERISK"
  | scaling .divide => "SLASH"
  | comparison .equal => "EQEQ"
  | comparison .notEqual => "NOTEQ"
  | comparison .less => "LT"
  | comparison .lessEqual => "LTEQ"
  | comparison .greater => "GT"
  | comparison .greaterEqual => "GTEQ"

end Operator

/-- What a token is, without its text. -/
inductive Kind where
  | endOfInput
  | newline
  | number
  | name
  | string
  | keyword (word : Keyword)
  | operator (op : Operator)
  deriving DecidableEq, Repr

namespace Kind

def all : List Kind :=
  [endOfInput, newline, number, name, string] ++ Keyword.all.map keyword ++
    Operator.all.map operator

def title : Kind → String
  | endOfInput => "EOF"
  | newline => "NEWLINE"
  | number => "NUMBER"
  | name => "IDENT"
  | string => "STRING"
  | keyword word => word.spelling
  | operator op => op.title

def isNewline : Kind → Bool
  | newline => true
  | _ => false

def isKeyword : Kind → Bool
  | keyword _ => true
  | _ => false

def isOperator : Kind → Bool
  | operator _ => true
  | _ => false

def isComparison : Kind → Bool
  | operator (.comparison _) => true
  | _ => false

def isSign : Kind → Bool
  | operator (.sign _) => true
  | _ => false

def isScaling : Kind → Bool
  | operator (.scaling _) => true
  | _ => false

/-- How messages show a token of this kind: names and numbers by their text, strings between
quotes, all others by the title of the kind. -/
def describe (kind : Kind) (text : String) : String :=
  match kind with
  | number => text
  | name => text
  | string => "\"" ++ text ++ "\""
  | other => other.title

end Kind

inductive Token where
  | endOfInput
  | newline
  | number (digits : String)
  | name (text : String)
  | string (body : String)
  | keyword (word : Keyword)
  | operator (op : Operator)
  deriving DecidableEq, Repr

namespace Token

def kind : Token → Kind
  | endOfInput => .endOfInput
  | newline => .newline
  | number _ => .number
  | name _ => .name
  | string _ => .string
  | keyword word => .keyword word
  | operator op => .operator op

/-- The text of the token; a string is given without its quotes. -/
def text : Token → String
  | endOfInput => ""
  | newline => "\n"
  | number digits => digits
  | name text => text
  | string body => body
  | keyword word => word.spelling
  | operator op => op.spelling

def describe (token : Token) : String :=
  token.kind.describe token.text

/-- A run of letters as a token: a keyword if it is one, a name otherwise. -/
def ofWord (word : String) : Token :=
  match Keyword.ofWord? word with
  | some found => .keyword found
  | none => .name word

theorem eq_of_kind_of_text {first second : Token} (sameKind : first.kind = second.kind)
    (sameText : first.text = second.text) : first = second := by
  cases first <;> cases second <;> simp_all [kind, text]

end Token

structure Located where
  token : Token
  span : Span
  deriving DecidableEq, Repr

namespace Located

def kind (located : Located) : Kind :=
  located.token.kind

end Located

end TeenyBasic
