import Mathlib.Order.Bounds.Basic
import TeenyBasic.Proofs.LongestLexeme
import TeenyBasic.Report.Drawn

/-!
Character boundaries, and the stretch that a drawn report marks. An offset is cut down to the greatest
boundary that is not above it (`isGreatest_floorBoundary`). The two ends of a span are cut down apart
from each other, so nothing may be left between them; `Report.Marked` says what is marked in each case.
What is marked is a character at least, unless there is none (`labelRange_usable`).
-/

set_option autoImplicit false

namespace TeenyBasic

namespace Text

/-- The boundaries that are not above an offset, nor above the length of the text. -/
def boundariesUpTo (text : List Char) (offset : Nat) : Set Nat :=
  {boundary | IsBoundary text boundary ∧ boundary ≤ min offset (byteLength text)}

variable {text : List Char} {offset : Nat}

theorem IsBoundary.le (boundary : IsBoundary text offset) : offset ≤ byteLength text := by
  obtain ⟨before, after, rfl, rfl⟩ := boundary
  rw [byteLength_append]
  exact Nat.le_add_right _ _

theorem isBoundary_floorBoundary (text : List Char) (offset : Nat) :
    IsBoundary text (floorBoundary text offset) :=
  ⟨_, _, (splitAtByte_append text offset).symm, rfl⟩

theorem IsBoundary.floorBoundary_eq (boundary : IsBoundary text offset) :
    floorBoundary text offset = offset := by
  obtain ⟨before, after, rfl, rfl⟩ := boundary
  rw [floorBoundary, splitAtByte_byteLength]

private theorem floorBoundary_mono (text : List Char) {first second : Nat} (ordered : first ≤ second) :
    floorBoundary text first ≤ floorBoundary text second := by
  unfold floorBoundary
  induction text generalizing first second with
  | nil => exact Nat.le_refl _
  | cons c text ih =>
    by_cases fits : c.utf8Size ≤ first
    · have fitsToo := Nat.le_trans fits ordered
      have others := ih (Nat.sub_le_sub_right ordered c.utf8Size)
      simp only [splitAtByte, fits, fitsToo, if_true, byteLength_cons]
      omega
    · simp [splitAtByte, fits]

theorem isGreatest_floorBoundary (text : List Char) (offset : Nat) :
    IsGreatest (boundariesUpTo text offset) (floorBoundary text offset) := by
  have boundary := isBoundary_floorBoundary text offset
  refine ⟨⟨boundary, Nat.le_min.mpr ⟨floorBoundary_le text offset, boundary.le⟩⟩, ?_⟩
  intro other below
  obtain ⟨isBoundary, least⟩ := below
  rw [← isBoundary.floorBoundary_eq]
  exact floorBoundary_mono text (Nat.le_trans least (Nat.min_le_left _ _))

end Text

namespace Report

open Text

/-- What is marked for a span: what is left of it, or the character after it, or the last one. -/
inductive Marked (text : List Char) (span : Span) : Span → Prop where
  | whole : floorBoundary text span.start < floorBoundary text span.stop →
      Marked text span ⟨floorBoundary text span.start, floorBoundary text span.stop⟩
  | next {before after : List Char} {c : Char} :
      floorBoundary text span.stop ≤ floorBoundary text span.start → text = before ++ c :: after →
      floorBoundary text span.start = byteLength before →
      Marked text span ⟨byteLength before, byteLength before + c.utf8Size⟩
  | last {before : List Char} {c : Char} :
      floorBoundary text span.stop ≤ floorBoundary text span.start → text = before ++ [c] →
      floorBoundary text span.start = byteLength text →
      Marked text span ⟨byteLength before, byteLength before + c.utf8Size⟩
  | nothing : text = [] → Marked text span ⟨0, 0⟩

private theorem marked_labelRange (text : List Char) (span : Span) :
    Marked text span (labelRange text span) := by
  have whole := splitAtByte_append text span.start
  by_cases wide : floorBoundary text span.start < floorBoundary text span.stop
  · have greater := Nat.max_eq_right (Nat.le_of_lt wide)
    simp only [labelRange, greater, wide, if_true]
    exact .whole wide
  have narrow := Nat.le_of_not_lt wide
  have floor : floorBoundary text span.start = byteLength (splitAtByte text span.start).1 := rfl
  simp only [labelRange, Nat.max_eq_left narrow, Nat.lt_irrefl, if_false]
  generalize splitAtByte text span.start = parts at whole floor
  obtain ⟨before, after⟩ := parts
  cases after with
  | cons c after =>
    rw [floor]
    exact .next narrow whole.symm floor
  | nil =>
    rw [List.append_nil] at whole
    rcases List.eq_nil_or_concat before with rfl | ⟨before, c, rfl⟩
    · rw [floor]
      exact .nothing whole.symm
    · have atEnd : floorBoundary text span.start = byteLength before + c.utf8Size := by
        rw [floor, List.concat_eq_append, byteLength_append]
        rfl
      have last := Marked.last narrow (whole.symm.trans List.concat_eq_append) (whole ▸ floor)
      simpa [atEnd] using last

namespace Marked

variable {text : List Char} {span range : Span}

theorem boundaries (marked : Marked text span range) :
    IsBoundary text range.start ∧ IsBoundary text range.stop := by
  cases marked with
  | whole => exact ⟨isBoundary_floorBoundary _ _, isBoundary_floorBoundary _ _⟩
  | @next before after c _ split _ =>
    refine ⟨⟨before, c :: after, split, rfl⟩, before ++ [c], after, by simp [split], ?_⟩
    simp
  | @last before c _ split _ =>
    refine ⟨⟨before, [c], split, rfl⟩, before ++ [c], [], by simp [split], ?_⟩
    simp
  | nothing none => exact ⟨⟨[], [], none, rfl⟩, [], [], none, rfl⟩

theorem lt_or_nil (marked : Marked text span range) :
    range.start < range.stop ∨ text = [] ∧ range = ⟨0, 0⟩ := by
  cases marked with
  | whole wide => exact .inl wide
  | @next before after c _ _ _ => exact .inl (Nat.lt_add_of_pos_right c.utf8Size_pos)
  | @last before c _ _ _ => exact .inl (Nat.lt_add_of_pos_right c.utf8Size_pos)
  | nothing none => exact .inr ⟨none, rfl⟩

private theorem start_eq_stop_iff (marked : Marked text span range) :
    range.start = range.stop ↔ text = [] := by
  rcases marked.lt_or_nil with wide | ⟨none, rfl⟩
  · refine ⟨fun same => absurd same (Nat.ne_of_lt wide), fun none => ?_⟩
    have within := marked.boundaries.2.le
    rw [none, byteLength_nil] at within
    exact absurd (Nat.lt_of_lt_of_le wide within) (Nat.not_lt_zero _)
  · exact ⟨fun _ => none, fun _ => rfl⟩

private theorem eq_whole (marked : Marked text span range)
    (wide : floorBoundary text span.start < floorBoundary text span.stop) :
    range = ⟨floorBoundary text span.start, floorBoundary text span.stop⟩ := by
  cases marked with
  | whole => rfl
  | next narrow => exact absurd wide (Nat.not_lt_of_le narrow)
  | last narrow => exact absurd wide (Nat.not_lt_of_le narrow)
  | nothing none =>
    rw [none] at wide
    exact absurd wide (Nat.lt_irrefl 0)

private theorem exists_character (marked : Marked text span range)
    (narrow : floorBoundary text span.stop ≤ floorBoundary text span.start) (nonempty : text ≠ []) :
    ∃ before c after, text = before ++ c :: after ∧
      range = ⟨byteLength before, byteLength before + c.utf8Size⟩ ∧
      (byteLength before = floorBoundary text span.start ∨
        floorBoundary text span.start = byteLength text ∧ after = []) := by
  cases marked with
  | whole wide => exact absurd wide (Nat.not_lt_of_le narrow)
  | next _ split start => exact ⟨_, _, _, split, rfl, .inl start.symm⟩
  | last _ split start => exact ⟨_, _, [], split, rfl, .inr ⟨start, rfl⟩⟩
  | nothing none => exact absurd none nonempty

end Marked

private theorem labelRange_of_boundaries {text : List Char} {range : Span}
    (start : IsBoundary text range.start)
    (stop : IsBoundary text range.stop) (wide : range.start < range.stop) :
    labelRange text range = range := by
  have greater := Nat.max_eq_right (Nat.le_of_lt wide)
  simp only [labelRange, start.floorBoundary_eq, stop.floorBoundary_eq, greater, wide, if_true]

/-- The stretch marked for a span lies in the text between two character boundaries and is empty for the
empty text only. It is what the span covers between boundaries; where that is nothing, it is the character
at the start, or the last one if there is none. It is marked unchanged if it is itself the span. -/
theorem labelRange_usable (text : List Char) (span : Span) :
    ∃ start stop range,
      IsGreatest (boundariesUpTo text span.start) start ∧
      IsGreatest (boundariesUpTo text span.stop) stop ∧
      range = labelRange text span ∧
      IsBoundary text range.start ∧ IsBoundary text range.stop ∧
      range.start ≤ range.stop ∧ range.stop ≤ byteLength text ∧
      (range.start = range.stop ↔ text = []) ∧
      (start < stop → range = ⟨start, stop⟩) ∧
      (stop ≤ start → text ≠ [] → ∃ before c after, text = before ++ c :: after ∧
        range = ⟨byteLength before, byteLength before + c.utf8Size⟩ ∧
        (byteLength before = start ∨ start = byteLength text ∧ after = [])) ∧
      labelRange text range = range := by
  have marked := marked_labelRange text span
  obtain ⟨start, stop⟩ := marked.boundaries
  refine ⟨_, _, _, isGreatest_floorBoundary _ _, isGreatest_floorBoundary _ _, rfl, start, stop,
    ?_, stop.le, marked.start_eq_stop_iff, marked.eq_whole, marked.exists_character, ?_⟩ <;>
    rcases marked.lt_or_nil with wide | ⟨rfl, empty⟩
  · exact Nat.le_of_lt wide
  · rw [empty]
  · exact labelRange_of_boundaries start stop wide
  · rw [empty]
    rfl

/-- Inside a character of two bytes nothing is covered, and the character is marked. -/
example : labelRange ['a', 'é', 'b'] ⟨2, 2⟩ = ⟨1, 3⟩ := by decide

end Report

end TeenyBasic
