import Mathlib.Data.Prod.Lex
import Mathlib.Data.Set.Function
import TeenyBasic.Proofs.Boundaries
import TeenyBasic.Proofs.Underlining
import TeenyBasic.Text.Pieces

/-!
Lines and columns against offsets. The characters before a boundary are some whole lines, each with its
line feed, and the start of one more line. Line and column count these two parts, so walking over as many
line feeds and then characters leads back to the boundary. Every column of every line is that of one
boundary (`offsets_correspond_positions`).
-/

set_option autoImplicit false

namespace TeenyBasic

namespace Text

/-- The offset reached by walking over line feeds, with all that stands before them, and then over
characters, if there are as many. -/
def walk? : Nat → Nat → List Char → Option Nat
  | 0, 0, _ => some 0
  | 0, chars + 1, c :: rest => (walk? 0 chars rest).map (c.utf8Size + ·)
  | feeds + 1, chars, c :: rest =>
    (walk? (if c = '\n' then feeds else feeds + 1) chars rest).map (c.utf8Size + ·)
  | _, _, [] => none

/-- Lines that all have their line feed, or none. -/
def WholeLines (lines : List Char) : Prop :=
  lines = [] ∨ ∃ front, lines = front ++ ['\n']

private theorem WholeLines.of_cons {c : Char} {lines : List Char} (whole : WholeLines (c :: lines)) :
    WholeLines lines ∧ (c ≠ '\n' → lines ≠ []) := by
  rcases whole with none | ⟨front, split⟩
  · cases none
  · cases front with
    | nil =>
      obtain ⟨rfl, rfl⟩ := List.cons.inj split
      exact ⟨.inl rfl, fun other => absurd rfl other⟩
    | cons d front =>
      obtain ⟨rfl, rfl⟩ := List.cons.inj split
      exact ⟨.inr ⟨front, rfl⟩, fun _ => by simp⟩

private theorem WholeLines.append_feed {lines : List Char} (whole : WholeLines lines)
    (front : List Char) : WholeLines (front ++ '\n' :: lines) := by
  rcases whole with rfl | ⟨others, rfl⟩
  · exact .inr ⟨front, rfl⟩
  · exact .inr ⟨front ++ '\n' :: others, by simp⟩

private theorem WholeLines.count_pos {lines : List Char} (whole : WholeLines lines)
    (nonempty : lines ≠ []) : 0 < lines.count '\n' := by
  rcases whole with none | ⟨front, rfl⟩
  · exact absurd none nonempty
  · simp

private theorem walk?_lines {lines : List Char} (whole : WholeLines lines) (chars : Nat)
    (rest : List Char) : walk? (lines.count '\n') chars (lines ++ rest) =
      (walk? 0 chars rest).map (byteLength lines + ·) := by
  induction lines with
  | nil => simp
  | cons c lines ih =>
    obtain ⟨others, more⟩ := whole.of_cons
    have further := ih others
    by_cases feed : c = '\n'
    · rw [feed, List.count_cons_self, List.cons_append, walk?, if_pos rfl, further]
      simp [Function.comp_def, Nat.add_assoc]
    · obtain ⟨feeds, counted⟩ := Nat.exists_eq_add_one.mpr (others.count_pos (more feed))
      rw [counted] at further
      rw [List.count_cons_of_ne feed, counted, List.cons_append, walk?, if_neg feed, further]
      simp [Function.comp_def, Nat.add_assoc]

private theorem walk?_length (front rest : List Char) :
    walk? 0 front.length (front ++ rest) = some (byteLength front) := by
  induction front with
  | nil => simp [walk?]
  | cons c front ih => simp [walk?, ih]

theorem pieces_eq_splitOn (mark : Char) (text : List Char) : pieces mark text = text.splitOn mark := by
  induction text with
  | nil => rfl
  | cons c text ih =>
    rw [List.splitOn, List.splitOnP_cons_eq_if_modifyHead, ← List.splitOn, ← ih, pieces]
    by_cases isMark : c = mark
    · simp [isMark]
    · cases found : pieces mark text with
      | nil => exact absurd found (pieces_ne_nil mark text)
      | cons piece others => simp [isMark]

theorem head?_pieces (mark : Char) (text : List Char) :
    (pieces mark text).head? = some (text.takeWhile (· != mark)) := by
  induction text with
  | nil => rfl
  | cons c text ih =>
    by_cases isMark : c = mark
    · simp [pieces, isMark]
    · cases found : pieces mark text with
      | nil => exact absurd found (pieces_ne_nil mark text)
      | cons piece others =>
        rw [found, List.head?_cons, Option.some.injEq] at ih
        simp [pieces, isMark, found, ih]

private theorem getElem?_pieces_lines {lines : List Char} (whole : WholeLines lines)
    (rest : List Char) :
    (pieces '\n' (lines ++ rest))[lines.count '\n']? = some (rest.takeWhile (· != '\n')) := by
  rw [← head?_pieces, List.head?_eq_getElem?]
  rcases whole with rfl | ⟨front, rfl⟩
  · rfl
  · have before : (pieces '\n' front).length = (front ++ ['\n']).count '\n' := by
      rw [length_pieces, List.count_append]
      rfl
    rw [List.append_assoc, List.singleton_append, pieces_append,
      List.getElem?_append_right (Nat.le_of_eq before), before, Nat.sub_self]

/-- A piece between line feeds stands behind whole lines. -/
theorem exists_lines_of_getElem?_pieces {text piece : List Char} {number : Nat}
    (found : (pieces '\n' text)[number]? = some piece) :
    ∃ lines rest, text = lines ++ (piece ++ rest) ∧ WholeLines lines ∧
      lines.count '\n' = number ∧ '\n' ∉ piece := by
  induction number generalizing text with
  | zero =>
    rw [← List.head?_eq_getElem?, head?_pieces, Option.some.injEq] at found
    refine ⟨[], text.dropWhile (· != '\n'), ?_, .inl rfl, rfl, ?_⟩
    · rw [← found, List.nil_append, List.takeWhile_append_dropWhile]
    · rw [← found]
      intro member
      simpa using List.mem_takeWhile_imp member
  | succ number ih =>
    by_cases feed : '\n' ∈ text
    · obtain ⟨front, back, rfl, plain⟩ := List.eq_append_cons_of_mem feed
      rw [pieces_append, pieces_of_notMem plain, List.singleton_append, List.getElem?_cons_succ] at found
      obtain ⟨lines, rest, rfl, whole, counted, none⟩ := ih found
      refine ⟨front ++ '\n' :: lines, rest, by simp, whole.append_feed front, ?_, none⟩
      rw [List.count_append, List.count_cons_self, List.count_eq_zero.mpr plain, counted, Nat.zero_add]
    · rw [pieces_of_notMem feed] at found
      simp at found

end Text

namespace Location

open Text

/-! ## Whole lines and the start of one more -/

theorem lastLine_append {back : List Char} (plain : '\n' ∉ back) (front : List Char) :
    lastLine (front ++ back) = lastLine front ++ back := by
  have noFeed : ∀ c ∈ back.reverse, (c != '\n') = true := fun c member =>
    bne_of_notMem plain c (List.mem_reverse.mp member)
  rw [lastLine, List.reverse_append, List.takeWhile_append_of_pos noFeed, List.reverse_append,
    List.reverse_reverse, lastLine]

private theorem exists_wholeLines (text : List Char) :
    ∃ lines front, text = lines ++ front ∧ WholeLines lines ∧ '\n' ∉ front := by
  by_cases feed : '\n' ∈ text
  · obtain ⟨front, back, split, plain⟩ := List.eq_append_cons_of_mem (List.mem_reverse.mpr feed)
    refine ⟨back.reverse ++ ['\n'], front.reverse, ?_, .inr ⟨_, rfl⟩, ?_⟩
    · simpa using congrArg List.reverse split
    · rwa [List.mem_reverse]
  · exact ⟨[], text, rfl, .inl rfl, feed⟩

/-- Whole lines and the start of one more stand before the boundary of an offset. -/
structure Parts (text : List Char) (offset : Nat) (lines front rest : List Char) : Prop where
  split : splitAtByte text offset = (lines ++ front, rest)
  whole : WholeLines lines
  plain : '\n' ∉ front

theorem exists_parts (text : List Char) (offset : Nat) :
    ∃ lines front rest, Parts text offset lines front rest := by
  obtain ⟨lines, front, before, whole, plain⟩ := exists_wholeLines (splitAtByte text offset).1
  exact ⟨lines, front, _, Prod.ext before rfl, whole, plain⟩

namespace Parts

variable {text lines front rest : List Char} {offset : Nat} (parts : Parts text offset lines front rest)

include parts

theorem text_eq : text = lines ++ (front ++ rest) := by
  rw [← splitAtByte_append text offset, parts.split, List.append_assoc]

theorem ofOffset_eq : ofOffset text offset =
    { line := lines.count '\n' + 1
      column := front.length + 1
      content := String.ofList (front ++ rest.takeWhile (· != '\n')) } := by
  have last : lastLine (lines ++ front) = front := by
    rw [lastLine_append parts.plain]
    rcases parts.whole with rfl | ⟨others, rfl⟩
    · rfl
    · simp [lastLine]
  rw [ofOffset_of_split parts.split, last, List.count_append, List.count_eq_zero.mpr parts.plain,
    Nat.add_zero]

private theorem walk? :
    Text.walk? (lines.count '\n') front.length text = some (floorBoundary text offset) := by
  rw [floorBoundary, parts.split, parts.text_eq, walk?_lines parts.whole, walk?_length,
    byteLength_append]
  rfl

theorem splitOn : (text.splitOn '\n')[lines.count '\n']? =
    some (front ++ rest.takeWhile (· != '\n')) := by
  rw [← pieces_eq_splitOn, parts.text_eq, getElem?_pieces_lines parts.whole,
    List.takeWhile_append_of_pos (bne_of_notMem parts.plain)]

end Parts

/-! ## Order -/

/-- Line and column, to be compared in this order. -/
def position (text : List Char) (offset : Nat) : Nat ×ₗ Nat :=
  toLex ((ofOffset text offset).line, (ofOffset text offset).column)

/-- The columns of the lines of a text. In each line one column stands behind the last character. -/
def positions (text : List Char) : Set (Nat ×ₗ Nat) :=
  {place | ∃ number line count, (text.splitOn '\n')[number]? = some line ∧ count ≤ line.length ∧
    place = toLex (number + 1, count + 1)}

private theorem position_lt (before more after : List Char) (nonempty : more ≠ []) :
    position (before ++ (more ++ after)) (byteLength before) <
      position (before ++ (more ++ after)) (byteLength (before ++ more)) := by
  have first := ofOffset_of_split (splitAtByte_byteLength before (more ++ after))
  have second := ofOffset_of_split (splitAtByte_byteLength (before ++ more) after)
  rw [List.append_assoc] at second
  rw [position, position, first, second, Prod.Lex.toLex_lt_toLex, List.count_append]
  by_cases feed : '\n' ∈ more
  · left
    have counted := List.count_pos_iff.mpr feed
    simp only
    omega
  · right
    have longer := List.length_pos_iff.mpr nonempty
    rw [lastLine_append feed, List.length_append, List.count_eq_zero.mpr feed]
    exact ⟨rfl, Nat.succ_lt_succ (Nat.lt_add_of_pos_right longer)⟩

theorem strictMonoOn_position (text : List Char) :
    StrictMonoOn (position text) {offset | IsBoundary text offset} := by
  intro first isFirst second isSecond less
  obtain ⟨before, after, rfl, rfl⟩ := isFirst
  obtain ⟨other, rest, split, rfl⟩ := isSecond
  rcases List.append_eq_append_iff.mp split with ⟨more, rfl, rfl⟩ | ⟨more, rfl, -⟩
  · refine position_lt before more rest ?_
    rintro rfl
    simp at less
  · rw [byteLength_append] at less
    omega

private theorem bijOn_position (text : List Char) :
    Set.BijOn (position text) {offset | IsBoundary text offset} (positions text) := by
  refine ⟨?_, (strictMonoOn_position text).injOn, ?_⟩
  · intro offset _
    obtain ⟨lines, front, rest, parts⟩ := exists_parts text offset
    refine ⟨_, _, front.length, parts.splitOn, ?_, ?_⟩
    · rw [List.length_append]
      exact Nat.le_add_right _ _
    · rw [position, parts.ofOffset_eq]
  · intro place isPlace
    obtain ⟨number, line, count, found, within, rfl⟩ := isPlace
    rw [← pieces_eq_splitOn] at found
    obtain ⟨lines, rest, rfl, whole, counted, plain⟩ := exists_lines_of_getElem?_pieces found
    have text : lines ++ (line ++ rest) = (lines ++ line.take count) ++ (line.drop count ++ rest) := by
      rw [List.append_assoc, ← List.append_assoc (line.take count), List.take_append_drop]
    refine ⟨byteLength (lines ++ line.take count), ⟨_, _, text, rfl⟩, ?_⟩
    have parts : Parts _ _ lines (line.take count) (line.drop count ++ rest) :=
      ⟨splitAtByte_byteLength _ _, whole, fun member => plain (List.mem_of_mem_take member)⟩
    rw [text, position, parts.ofOffset_eq, counted, List.length_take, Nat.min_eq_left within]

end Location

/-- The location of an offset is that of the greatest character boundary not above it. Walking over the
line feeds before its line and the characters before its column leads to that boundary; its content is its
line, without the line feeds around it. Locations increase with the boundaries, and there is one boundary
for each column of each line, the one behind the last character included. -/
theorem offsets_correspond_positions (text : List Char) :
    (∀ offset, ∃ boundary place,
      IsGreatest (Text.boundariesUpTo text offset) boundary ∧
      place = Location.ofOffset text offset ∧
      1 ≤ place.line ∧ 1 ≤ place.column ∧
      Text.walk? (place.line - 1) (place.column - 1) text = some boundary ∧
      (text.splitOn '\n')[place.line - 1]? = some place.content.toList ∧
      place.column ≤ place.content.length + 1) ∧
    StrictMonoOn (Location.position text) {offset | Text.IsBoundary text offset} ∧
    Set.BijOn (Location.position text) {offset | Text.IsBoundary text offset}
      (Location.positions text) := by
  refine ⟨fun offset => ?_, Location.strictMonoOn_position text, Location.bijOn_position text⟩
  obtain ⟨lines, front, rest, parts⟩ := Location.exists_parts text offset
  refine ⟨_, _, Text.isGreatest_floorBoundary text offset, rfl, ?_⟩
  rw [parts.ofOffset_eq]
  refine ⟨Nat.le_add_left _ _, Nat.le_add_left _ _, parts.walk?, ?_, ?_⟩
  · rw [String.toList_ofList]
    exact parts.splitOn
  · simp

end TeenyBasic
