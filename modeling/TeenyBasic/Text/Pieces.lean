/-!
Cutting a text at every place where a mark stands.
-/

set_option autoImplicit false

namespace TeenyBasic.Text

/-- The pieces of a text between the marks. There is always one more than there are marks. -/
def pieces (mark : Char) : List Char → List (List Char)
  | [] => [[]]
  | c :: rest =>
    if c = mark then [] :: pieces mark rest
    else
      match pieces mark rest with
      | [] => [[c]]
      | piece :: others => (c :: piece) :: others

theorem pieces_ne_nil (mark : Char) (text : List Char) : pieces mark text ≠ [] := by
  cases text with
  | nil => simp [pieces]
  | cons c rest =>
    by_cases isMark : c = mark
    · simp [pieces, isMark]
    · cases found : pieces mark rest <;> simp [pieces, isMark, found]

theorem length_pieces (mark : Char) (text : List Char) :
    (pieces mark text).length = text.count mark + 1 := by
  induction text with
  | nil => rfl
  | cons c rest ih =>
    by_cases isMark : c = mark
    · simp [pieces, isMark, ih]
    · cases found : pieces mark rest with
      | nil => exact absurd found (pieces_ne_nil mark rest)
      | cons piece others =>
        rw [found] at ih
        simpa [pieces, isMark, found] using ih

theorem pieces_append (mark : Char) (front back : List Char) :
    pieces mark (front ++ mark :: back) = pieces mark front ++ pieces mark back := by
  induction front with
  | nil => simp [pieces]
  | cons c front ih =>
    by_cases isMark : c = mark
    · simp [pieces, isMark, ih]
    · cases found : pieces mark front with
      | nil => exact absurd found (pieces_ne_nil mark front)
      | cons piece others => simp [pieces, isMark, ih, found]

theorem pieces_of_notMem {mark : Char} {text : List Char} (whole : mark ∉ text) :
    pieces mark text = [text] := by
  induction text with
  | nil => rfl
  | cons c text ih =>
    rw [List.mem_cons, not_or] at whole
    rw [pieces, if_neg (Ne.symm whole.1), ih whole.2]

end TeenyBasic.Text
