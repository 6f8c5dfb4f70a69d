/-!
Byte positions in a text. Texts are lists of characters and positions count the bytes of their
UTF-8 form, so a position may fall inside a character; `splitAtByte` then takes the boundary
before that character.
-/

set_option autoImplicit false

namespace TeenyBasic.Text

/-- Number of bytes of a text in UTF-8. -/
def byteLength : List Char → Nat
  | [] => 0
  | c :: rest => c.utf8Size + byteLength rest

/-- Splits a text at the greatest character boundary that is not above the offset. -/
def splitAtByte : List Char → Nat → List Char × List Char
  | [], _ => ([], [])
  | c :: rest, offset =>
    if c.utf8Size ≤ offset then
      let parts := splitAtByte rest (offset - c.utf8Size)
      (c :: parts.1, parts.2)
    else
      ([], c :: rest)

def floorBoundary (text : List Char) (offset : Nat) : Nat :=
  byteLength (splitAtByte text offset).1

/-- Drops from the end of a text the characters that lie wholly in its last `count` bytes. -/
def dropLastBytes (text : List Char) (count : Nat) : List Char :=
  (splitAtByte text.reverse count).2.reverse

@[simp] theorem byteLength_nil : byteLength [] = 0 := rfl

@[simp] theorem byteLength_cons (c : Char) (rest : List Char) :
    byteLength (c :: rest) = c.utf8Size + byteLength rest := rfl

@[simp] theorem byteLength_append (front back : List Char) :
    byteLength (front ++ back) = byteLength front + byteLength back := by
  induction front with
  | nil => simp
  | cons c rest ih => simp [ih, Nat.add_assoc]

@[simp] theorem splitAtByte_append (text : List Char) (offset : Nat) :
    (splitAtByte text offset).1 ++ (splitAtByte text offset).2 = text := by
  induction text generalizing offset with
  | nil => rfl
  | cons c rest ih =>
    by_cases fits : c.utf8Size ≤ offset <;> simp [splitAtByte, fits, ih]

theorem floorBoundary_le (text : List Char) (offset : Nat) : floorBoundary text offset ≤ offset := by
  unfold floorBoundary
  induction text generalizing offset with
  | nil => simp [splitAtByte]
  | cons c rest ih =>
    by_cases fits : c.utf8Size ≤ offset
    · have := ih (offset - c.utf8Size)
      simp [splitAtByte, fits]
      omega
    · simp [splitAtByte, fits]

end TeenyBasic.Text
