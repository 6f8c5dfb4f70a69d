import TeenyBasic.Text.Offset
import TeenyBasic.Token

/-!
Reading a text as tokens. A `Cursor` stands somewhere in the text and reads one token at a time;
after a fault it stands where the faulty token was given up, so reading can go on. `Cursor.feed`
reads up to the end of the text or the first fault, whichever comes first.

Blanks, tabs and carriage returns between tokens are skipped, and so is a comment, from `#` up to
the end of its line. Line feeds are tokens. A text is read as if it ended in a line feed
(`endLine`).
-/

set_option autoImplicit false

namespace TeenyBasic

inductive LexicalFault where
  | unknownCharacter (c : Char)
  /-- An exclamation mark that no equals sign follows; the character that does follow. -/
  | loneBang (next : Option Char)
  | unterminatedString
  | illegalInString (c : Char)
  /-- A decimal point without a digit after it. -/
  | missingFraction
  deriving DecidableEq, Repr

structure LexicalError where
  fault : LexicalFault
  span : Span
  deriving DecidableEq, Repr

/-- A text with a line feed at its end, added if there is none. -/
def endLine (text : List Char) : List Char :=
  if text.getLast? = some '\n' then text else text ++ ['\n']

def isGap (c : Char) : Bool :=
  c = ' ' || c = '\t' || c = '\r'

/-- Whether a character may not stand in a string: strings become format strings of C, so escapes
and conversions are refused. -/
def isIllegalInString (c : Char) : Bool :=
  c = '\r' || c = '\\' || c = '%'

def isStringBody (c : Char) : Bool :=
  !(c = '"' || c = '\n' || isIllegalInString c)

/-- The longest operator at the front of a text, and the text after it. -/
def Operator.read? : List Char → Option (Operator × List Char)
  | '=' :: '=' :: rest => some (.comparison .equal, rest)
  | '=' :: rest => some (.assign, rest)
  | '<' :: '=' :: rest => some (.comparison .lessEqual, rest)
  | '<' :: rest => some (.comparison .less, rest)
  | '>' :: '=' :: rest => some (.comparison .greaterEqual, rest)
  | '>' :: rest => some (.comparison .greater, rest)
  | '!' :: '=' :: rest => some (.comparison .notEqual, rest)
  | '+' :: rest => some (.sign .plus, rest)
  | '-' :: rest => some (.sign .minus, rest)
  | '*' :: rest => some (.scaling .multiply, rest)
  | '/' :: rest => some (.scaling .divide, rest)
  | _ => none

theorem Operator.length_read?_lt {text rest : List Char} {op : Operator}
    (read : Operator.read? text = some (op, rest)) : rest.length < text.length := by
  unfold Operator.read? at read
  split at read <;> cases read <;> simp only [List.length_cons] <;> omega

/-- A place in a text: its byte offset, and the text from there on. -/
structure Cursor where
  offset : Nat
  rest : List Char
  deriving DecidableEq, Repr

namespace Cursor

def start (text : List Char) : Cursor :=
  { offset := 0, rest := text }

/-- The place after `taken`, where the text goes on with `rest`. -/
def past (cursor : Cursor) (taken rest : List Char) : Cursor :=
  { offset := cursor.offset + Text.byteLength taken, rest := rest }

@[simp] theorem rest_past (cursor : Cursor) (taken rest : List Char) :
    (cursor.past taken rest).rest = rest := rfl

def spanTo (cursor stop : Cursor) : Span :=
  { start := cursor.offset, stop := stop.offset }

def skipWhile (skipped : Char → Bool) (cursor : Cursor) : Cursor :=
  cursor.past (cursor.rest.takeWhile skipped) (cursor.rest.dropWhile skipped)

/-- Moves over the characters between two tokens: blanks, then a comment if there is one. -/
def skipGap (cursor : Cursor) : Cursor :=
  let after := cursor.skipWhile isGap
  if after.rest.head? = some '#' then after.skipWhile (· != '\n') else after

abbrev Reading := Except LexicalError Located × Cursor

def accept (cursor : Cursor) (token : Token) (stop : Cursor) : Reading :=
  (.ok { token := token, span := cursor.spanTo stop }, stop)

/-- A fault that reaches from the cursor up to `stop`; reading goes on at `resume`. -/
def reject (cursor : Cursor) (fault : LexicalFault) (stop resume : Cursor) : Reading :=
  (.error { fault := fault, span := cursor.spanTo stop }, resume)

def readWord (cursor : Cursor) : Reading :=
  let stop := cursor.skipWhile Char.isAlpha
  cursor.accept (Token.ofWord (String.ofList (cursor.rest.takeWhile Char.isAlpha))) stop

/-- Reads digits, and if a point follows, the point and at least one more digit. -/
def readNumber (cursor : Cursor) : Reading :=
  let whole := cursor.rest.takeWhile Char.isDigit
  let afterWhole := cursor.skipWhile Char.isDigit
  match afterWhole.rest with
  | '.' :: rest =>
    let afterPoint := afterWhole.past ['.'] rest
    let fraction := rest.takeWhile Char.isDigit
    if fraction.isEmpty then
      cursor.reject .missingFraction afterPoint afterPoint
    else
      cursor.accept (.number (String.ofList (whole ++ '.' :: fraction)))
        (afterPoint.skipWhile Char.isDigit)
  | _ => cursor.accept (.number (String.ofList whole)) afterWhole

/-- Reads a string whose opening quote stands before `body`. -/
def readString (cursor : Cursor) (body : List Char) : Reading :=
  let inside := cursor.past ['"'] body
  let afterBody := inside.skipWhile isStringBody
  match afterBody.rest with
  | '"' :: rest =>
    cursor.accept (.string (String.ofList (body.takeWhile isStringBody)))
      (afterBody.past ['"'] rest)
  | c :: rest =>
    if isIllegalInString c then
      afterBody.reject (.illegalInString c) (afterBody.past [c] rest) afterBody
    else
      cursor.reject .unterminatedString afterBody afterBody
  | [] => cursor.reject .unterminatedString afterBody afterBody

def readOperator (cursor : Cursor) (c : Char) (rest : List Char) : Reading :=
  match Operator.read? cursor.rest with
  | some (op, after) => cursor.accept (.operator op) (cursor.past op.spelling.toList after)
  | none =>
    let stop := cursor.past [c] rest
    cursor.reject (if c = '!' then .loneBang rest.head? else .unknownCharacter c) stop stop

/-- Reads the token at a place where no gap stands. -/
def readToken (cursor : Cursor) : Reading :=
  match cursor.rest with
  | [] => cursor.accept .endOfInput cursor
  | c :: rest =>
    if c = '\n' then cursor.accept .newline (cursor.past [c] rest)
    else if c = '"' then cursor.readString rest
    else if c.isDigit then cursor.readNumber
    else if c.isAlpha then cursor.readWord
    else cursor.readOperator c rest

/-- Skips a gap and reads the token after it. At the end of the text this is the end of input, as
often as it is asked for. -/
def next (cursor : Cursor) : Reading :=
  cursor.skipGap.readToken

theorem length_skipWhile_le (skipped : Char → Bool) (cursor : Cursor) :
    (cursor.skipWhile skipped).rest.length ≤ cursor.rest.length := by
  simpa [skipWhile, past] using (List.dropWhile_sublist (l := cursor.rest) skipped).length_le

theorem length_skipGap_le (cursor : Cursor) : cursor.skipGap.rest.length ≤ cursor.rest.length := by
  have blanks := length_skipWhile_le isGap cursor
  have comment := length_skipWhile_le (· != '\n') (cursor.skipWhile isGap)
  unfold skipGap
  dsimp only
  split <;> omega

theorem length_skipWhile_lt (skipped : Char → Bool) {cursor : Cursor} {c : Char}
    {rest : List Char} (found : cursor.rest = c :: rest) (skips : skipped c = true) :
    (cursor.skipWhile skipped).rest.length < cursor.rest.length := by
  have := (List.dropWhile_sublist (l := rest) skipped).length_le
  simp [skipWhile, past, found, skips]
  omega

theorem length_readNumber_lt {cursor : Cursor} {c : Char} {rest : List Char}
    (found : cursor.rest = c :: rest) (digit : c.isDigit = true) :
    cursor.readNumber.2.rest.length < cursor.rest.length := by
  have shorter := length_skipWhile_lt Char.isDigit found digit
  unfold readNumber
  dsimp only
  split
  · rename_i afterPoint pointFound
    rw [pointFound] at shorter
    have fraction := length_skipWhile_le Char.isDigit
      ((cursor.skipWhile Char.isDigit).past ['.'] afterPoint)
    simp only [rest_past, List.length_cons] at shorter fraction
    split <;> simp only [accept, reject, rest_past] <;> omega
  · simpa [accept] using shorter

theorem length_readString_lt {cursor : Cursor} {c : Char} {body : List Char}
    (found : cursor.rest = c :: body) :
    (cursor.readString body).2.rest.length < cursor.rest.length := by
  have shorter := length_skipWhile_le isStringBody (cursor.past ['"'] body)
  simp only [rest_past] at shorter
  unfold readString
  dsimp only
  rw [found, List.length_cons]
  split
  · rename_i quoteFound
    rw [quoteFound, List.length_cons] at shorter
    simp only [accept, rest_past]
    omega
  · split <;> simp only [reject] <;> omega
  · simp only [reject]
    omega

theorem length_readOperator_lt {cursor : Cursor} {c : Char} {rest : List Char}
    (found : cursor.rest = c :: rest) :
    (cursor.readOperator c rest).2.rest.length < cursor.rest.length := by
  unfold readOperator
  split
  · rename_i read
    simpa [accept, past] using Operator.length_read?_lt read
  · simp [reject, past, found]

theorem length_readToken_lt {cursor : Cursor} {c : Char} {rest : List Char}
    (found : cursor.rest = c :: rest) : cursor.readToken.2.rest.length < cursor.rest.length := by
  unfold readToken
  rw [found]
  dsimp only
  split
  · simp [accept, past]
  split
  · simpa [found] using length_readString_lt found
  split
  · rename_i digit
    simpa [found] using length_readNumber_lt found digit
  split
  · rename_i letter
    simpa [found, readWord, accept] using length_skipWhile_lt Char.isAlpha found letter
  · simpa [found] using length_readOperator_lt found

/-- Reading moves forward, except at the end of the text. -/
theorem length_next_lt {cursor after : Cursor} {result : Except LexicalError Located}
    (read : cursor.next = (result, after))
    (notEnd : ∀ located, result = .ok located → located.token ≠ .endOfInput) :
    after.rest.length < cursor.rest.length := by
  unfold next at read
  have gap := length_skipGap_le cursor
  cases found : cursor.skipGap.rest with
  | nil =>
    simp [readToken, found, accept] at read
    exact absurd rfl (notEnd _ read.1.symm)
  | cons c rest =>
    have shorter := length_readToken_lt found
    rw [read] at shorter
    exact Nat.lt_of_lt_of_le shorter gap

end Cursor

inductive Ending where
  | endOfInput (offset : Nat)
  | fault (error : LexicalError)
  deriving DecidableEq, Repr

/-- The tokens of a text up to its end or its first fault. The end of input is no member of
`tokens`: it stands in `ending` and can be drawn any number of times. -/
structure Feed where
  tokens : List Located
  ending : Ending
  deriving DecidableEq, Repr

def Cursor.feed (cursor : Cursor) : Feed :=
  match _read : cursor.next with
  | (.error error, _) => { tokens := [], ending := .fault error }
  | (.ok located, after) =>
    if _atEnd : located.token = .endOfInput then
      { tokens := [], ending := .endOfInput located.span.start }
    else
      let others := after.feed
      { tokens := located :: others.tokens, ending := others.ending }
termination_by cursor.rest.length
decreasing_by
  exact Cursor.length_next_lt _read (by rintro _ ⟨⟩; exact _atEnd)

namespace Feed

def draw (feed : Feed) : Except LexicalError (Located × Feed) :=
  match feed.tokens with
  | located :: others => .ok (located, { feed with tokens := others })
  | [] =>
    match feed.ending with
    | .endOfInput offset =>
      .ok ({ token := .endOfInput, span := { start := offset, stop := offset } }, feed)
    | .fault error => .error error

/-- The tokens of a text that has no fault, with the end of input as the last one. -/
def toList (feed : Feed) : Except LexicalError (List Located) :=
  match feed.ending with
  | .endOfInput offset =>
    .ok (feed.tokens ++ [{ token := .endOfInput, span := { start := offset, stop := offset } }])
  | .fault error => .error error

end Feed

def feedOf (source : String) : Feed :=
  (Cursor.start (endLine source.toList)).feed

def tokenize (source : String) : Except LexicalError (List Located) :=
  (feedOf source).toList

/-- Two ways to ask for a token: by force, or as the next member of a sequence that is over after
the end of input or a fault. -/
inductive Request where
  | token
  | member
  deriving DecidableEq, Repr

structure TokenSequence where
  cursor : Cursor
  finished : Bool := false
  deriving DecidableEq, Repr

namespace TokenSequence

/-- Answers one request; there is no answer once the sequence is over. -/
def answer (sequence : TokenSequence) (request : Request) :
    Option (Except LexicalError Located) × TokenSequence :=
  match request with
  | .token =>
    let (result, after) := sequence.cursor.next
    (some result, { sequence with cursor := after })
  | .member =>
    if sequence.finished then
      (none, sequence)
    else
      let (result, after) := sequence.cursor.next
      let done := match result with
        | .ok located => located.token == .endOfInput
        | .error _ => true
      (some result, { cursor := after, finished := done })

def answers (sequence : TokenSequence) : List Request → List (Option (Except LexicalError Located))
  | [] => []
  | request :: others =>
    let (result, after) := sequence.answer request
    result :: after.answers others

end TokenSequence

end TeenyBasic
