import TeenyBasic.Machine.Shell.Process

/-!
Printed text: escapes that stand for single bytes, and formats with places for arguments.
-/

set_option autoImplicit false

namespace TeenyBasic.Machine.Shell

def isOctal (c : Char) : Bool :=
  '0' ≤ c && c ≤ '7'

def controlCode? (c : Char) : Option Nat :=
  match c with
  | 'a' => some 7
  | 'b' => some 8
  | 'f' => some 12
  | 'n' => some 10
  | 'r' => some 13
  | 't' => some 9
  | 'v' => some 11
  | '\\' => some 92
  | '"' => some 34
  | '\'' => some 39
  | _ => none

def bytesOf (text : List Char) : ByteArray :=
  (String.ofList text).toUTF8

def byteOf (code : Nat) : ByteArray :=
  ByteArray.mk #[UInt8.ofNat code]

/-- The bytes of a text in which a backslash gives a meaning to what follows it. -/
def unescape : List Char → ByteArray
  | [] => ByteArray.empty
  | '\\' :: first :: second :: third :: rest =>
    if isOctal first && isOctal second && isOctal third then
      byteOf ((first.toNat - 48) * 64 + (second.toNat - 48) * 8 + (third.toNat - 48)) ++
        unescape rest
    else
      match controlCode? first with
      | some code => byteOf code ++ unescape (second :: third :: rest)
      | none => bytesOf ['\\', first] ++ unescape (second :: third :: rest)
  | '\\' :: first :: rest =>
    match controlCode? first with
    | some code => byteOf code ++ unescape rest
    | none =>
      if isOctal first then byteOf (first.toNat - 48) ++ unescape rest
      else bytesOf ['\\', first] ++ unescape rest
  | c :: rest => bytesOf [c] ++ unescape rest

/-- A part of a format: bytes as they are, or a place for an argument. -/
inductive FormatPart where
  | bytes (bytes : ByteArray)
  | text
  | escapedText
  | character
  | decimal

/-- The parts of a format; `plain` are the characters before, backwards. -/
def formatParts (plain : List Char) : List Char → List FormatPart
  | [] => [.bytes (unescape plain.reverse)]
  | '%' :: '%' :: rest =>
    .bytes (unescape plain.reverse) :: .bytes (bytesOf ['%']) :: formatParts [] rest
  | '%' :: 's' :: rest => .bytes (unescape plain.reverse) :: .text :: formatParts [] rest
  | '%' :: 'b' :: rest => .bytes (unescape plain.reverse) :: .escapedText :: formatParts [] rest
  | '%' :: 'c' :: rest => .bytes (unescape plain.reverse) :: .character :: formatParts [] rest
  | '%' :: 'd' :: rest => .bytes (unescape plain.reverse) :: .decimal :: formatParts [] rest
  | '%' :: 'i' :: rest => .bytes (unescape plain.reverse) :: .decimal :: formatParts [] rest
  | c :: rest => formatParts (c :: plain) rest

/-- Fills the places of a format with arguments, and gives the arguments that are left. -/
def fill : List FormatPart → List String → ByteArray × List String
  | [], arguments => (ByteArray.empty, arguments)
  | .bytes bytes :: rest, arguments =>
    let (after, left) := fill rest arguments
    (bytes ++ after, left)
  | part :: rest, arguments =>
    let argument := arguments.head?.getD ""
    let bytes := match part with
      | .escapedText => unescape argument.toList
      | .character => bytesOf (argument.toList.take 1)
      | .decimal => bytesOf (toString ((number? argument).getD 0)).toList
      | _ => bytesOf argument.toList
    let (after, left) := fill rest arguments.tail
    (bytes ++ after, left)

/-- Fills a format again and again until no argument is left; at most `rounds` times more. -/
def fillAll (parts : List FormatPart) (arguments : List String) : Nat → ByteArray
  | 0 => (fill parts arguments).1
  | rounds + 1 =>
    let (bytes, left) := fill parts arguments
    if left.isEmpty || left.length = arguments.length then bytes
    else bytes ++ fillAll parts left rounds

end TeenyBasic.Machine.Shell
