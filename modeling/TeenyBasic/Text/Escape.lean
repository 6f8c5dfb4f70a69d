import TeenyBasic.Text.Unseen

/-!
Two ways to show text inside a message: a single character written so that it can be seen
(`escaped`), and a whole text between quotes (`quoted`).
-/

set_option autoImplicit false

namespace TeenyBasic.Text

/-- The code point of a character as lower-case hexadecimal between braces after `\u`. -/
def codePoint (c : Char) : String :=
  "\\u\x7b" ++ String.ofList (Nat.toDigits 16 c.toNat) ++ "\x7d"

/-- A character as messages show it: printable ASCII as it is, quotes and the backslash behind a
backslash, the tab and the line ends by their letters, and all else by code point. -/
def escaped (c : Char) : String :=
  match c with
  | '\t' => "\\t"
  | '\r' => "\\r"
  | '\n' => "\\n"
  | '\'' => "\\'"
  | '"' => "\\\""
  | '\\' => "\\\\"
  | c => if 0x20 ≤ c.toNat ∧ c.toNat ≤ 0x7e then c.toString else codePoint c

/-- A character inside double quotes. The apostrophe and visible characters stay as they are. -/
def quotedChar (c : Char) : String :=
  match c with
  | '\x00' => "\\0"
  | '\t' => "\\t"
  | '\r' => "\\r"
  | '\n' => "\\n"
  | '"' => "\\\""
  | '\\' => "\\\\"
  | c => if isUnseen c then codePoint c else c.toString

def quoted (text : String) : String :=
  "\"" ++ String.join (text.toList.map quotedChar) ++ "\""

end TeenyBasic.Text
