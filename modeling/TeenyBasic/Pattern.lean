import TeenyBasic.Pattern.Modes
import TeenyBasic.Pattern.Reader

/-!
Patterns that texts are searched for.
-/

set_option autoImplicit false

namespace TeenyBasic

structure Pattern where
  matcher : Pattern.Matcher
  deriving DecidableEq, Repr

namespace Pattern

inductive Refusal where
  | faulty (pattern : String) (fault : FaultAt)
  /-- It asks for the ends of words in all alphabets. -/
  | wideWords
  /-- It takes too much to search for. -/
  | tooLarge
  deriving DecidableEq, Repr

def Refusal.message : Refusal → String
  | faulty pattern fault => fault.text pattern
  | wideWords => "error building NFA"
  | tooLarge => "Compiled regex exceeds size limit of 10485760 bytes."

def ofText (text : String) : Except Refusal Pattern :=
  match (Tree.ofText text).bind fun tree => ({} : Modes).matcher tree with
  | .error fault => .error (.faulty text fault)
  | .ok (matcher, _) =>
    if matcher.needsWideWords then .error .wideWords
    else if matcher.size > Matcher.sizeLimit then .error .tooLarge
    else .ok { matcher := matcher }

def isIn (pattern : Pattern) (text : String) : Bool :=
  pattern.matcher.isMatch text

end Pattern

end TeenyBasic
