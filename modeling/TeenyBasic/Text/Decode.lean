/-!
Bytes as text. Where the bytes are no UTF-8, each stretch that could not be continued becomes one
replacement character.
-/

set_option autoImplicit false

namespace TeenyBasic.Text

/-- How a character of several bytes goes on after its first byte: the range of the second byte, and
the number of bytes after the first. -/
structure Continuation where
  low : Nat
  high : Nat
  count : Nat
  deriving DecidableEq, Repr

def continuation? (byte : Nat) : Option Continuation :=
  if byte < 0xc2 then none
  else if byte < 0xe0 then some { low := 0x80, high := 0xbf, count := 1 }
  else if byte = 0xe0 then some { low := 0xa0, high := 0xbf, count := 2 }
  else if byte = 0xed then some { low := 0x80, high := 0x9f, count := 2 }
  else if byte < 0xf0 then some { low := 0x80, high := 0xbf, count := 2 }
  else if byte = 0xf0 then some { low := 0x90, high := 0xbf, count := 3 }
  else if byte < 0xf4 then some { low := 0x80, high := 0xbf, count := 3 }
  else if byte = 0xf4 then some { low := 0x80, high := 0x8f, count := 3 }
  else none

def continuing (continuation : Continuation) (bytes : List Nat) : List Nat :=
  match bytes with
  | [] => []
  | second :: rest =>
    if continuation.low ≤ second ∧ second ≤ continuation.high then
      second :: (rest.take (continuation.count - 1)).takeWhile
        fun byte => 0x80 ≤ byte && byte ≤ 0xbf
    else
      []

/-- What stands for bytes that are no text. -/
def replacement : Char := '�'

def codePointOf (first : Nat) (others : List Nat) : Nat :=
  let front := match others.length with
    | 1 => first % 32
    | 2 => first % 16
    | _ => first % 8
  others.foldl (fun value byte => value * 64 + byte % 64) front

def decode : List Nat → List Char
  | [] => []
  | first :: rest =>
    if first < 0x80 then Char.ofNat first :: decode rest
    else
      match continuation? first with
      | none => replacement :: decode rest
      | some continuation =>
        let others := continuing continuation rest
        let c := if others.length = continuation.count then Char.ofNat (codePointOf first others)
          else replacement
        c :: decode (rest.drop others.length)
termination_by bytes => bytes.length

def ofBytes (bytes : ByteArray) : String :=
  String.ofList (decode (bytes.toList.map UInt8.toNat))

end TeenyBasic.Text
