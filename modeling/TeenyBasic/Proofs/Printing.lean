import Mathlib.Data.List.Basic
import TeenyBasic.Proofs.Lexemes
import TeenyBasic.Proofs.Pass.Program

/-!
Printing and reading back. Tokens are printed with one blank between each two, strings between quotes.
A blank goes on with no token, and no token that can stand in a text holds a character that would be
read with the one before it, so reading finds the same tokens again (`tokenize_printed`). What follows
them is the line end that every text gets.
-/

set_option autoImplicit false

namespace TeenyBasic

open Grammar

/-- The tokens as they are written, with one blank between each two. -/
def printed (tokens : List Token) : String :=
  " ".intercalate (tokens.map fun token => String.ofList token.written)

private theorem toList_printed (tokens : List Token) :
    (printed tokens).toList = [' '].intercalate (tokens.map Token.written) := by
  have written : (String.toList ∘ fun token : Token => String.ofList token.written) = Token.written :=
    funext fun _ => String.toList_ofList
  rw [printed, String.toList_intercalate, List.map_map, written]
  rfl

theorem toList_printed_cons (first : Token) (others : List Token) :
    (printed (first :: others)).toList = first.written ++ spacedOut others := by
  rw [toList_printed]
  induction others generalizing first with
  | nil => simp [spacedOut]
  | cons second others ih =>
    rw [List.map_cons, List.map_cons, List.intercalate_cons_cons, ← List.map_cons, ih second]
    simp [spacedOut]

private theorem exists_toList_printed_concat (others : List Token) (last : Token) :
    ∃ front, (printed (others ++ [last])).toList = front ++ last.written := by
  cases others with
  | nil => exact ⟨[], by rw [List.nil_append, toList_printed_cons]; simp [spacedOut]⟩
  | cons first others =>
    refine ⟨first.written ++ (spacedOut others ++ [' ']), ?_⟩
    rw [List.cons_append, toList_printed_cons]
    simp [spacedOut]

/-- The line end that is added to the text of the tokens. -/
def closing (tokens : List Token) : List Token :=
  if tokens.getLast? = some .newline then [] else [.newline]

/-- Only a line end is written with a line feed, so the text ends in one just when the tokens do. -/
theorem endLine_printed {tokens : List Token} (readable : ∀ token ∈ tokens, token.Readable) :
    endLine (printed tokens).toList =
      (printed tokens).toList ++ (closing tokens).flatMap Token.written := by
  rcases List.eq_nil_or_concat tokens with rfl | ⟨others, last, rfl⟩
  · decide
  · rw [List.concat_eq_append] at readable ⊢
    obtain ⟨front, text⟩ := exists_toList_printed_concat others last
    have lastReadable := readable last (by simp)
    obtain ⟨c, more, written, -⟩ := lastReadable.spelled.exists_cons lastReadable.notEnd
    have sameLast : (printed (others ++ [last])).toList.getLast? = last.written.getLast? := by
      rw [text, List.getLast?_append_of_ne_nil _ (by simp [written])]
    unfold endLine closing
    rw [sameLast, List.getLast?_concat]
    by_cases isNewline : last = .newline
    · simp [isNewline]
    · have noLineFeed : last.written.getLast? ≠ some '\n' := fun isLast =>
        isNewline (lastReadable.spelled.eq_newline (List.mem_of_getLast? isLast))
      simp [isNewline, noLineFeed]

private theorem stops_closing (tokens : List Token) :
    Stops continuesToken ((closing tokens).flatMap Token.written) := by
  unfold closing
  split
  · exact stops_nil _
  · exact stops_cons.mpr (by decide)

private theorem Cursor.feed_closing {cursor : Cursor} {tokens : List Token}
    (found : cursor.rest = (closing tokens).flatMap Token.written) :
    cursor.feed.tokens.map (·.token) = closing tokens ∧
      ∃ offset, cursor.feed.ending = .endOfInput offset := by
  unfold closing at found ⊢
  split at found
  · rename_i ended
    obtain ⟨offset, nothing⟩ := feed_of_rest_nil found
    rw [nothing, if_pos ended]
    exact ⟨rfl, offset, rfl⟩
  · rename_i unended
    obtain ⟨after, empty, ending, first⟩ := feed_written [] Token.readable_newline (by simp)
      found (stops_nil _)
    obtain ⟨offset, nothing⟩ := feed_of_rest_nil empty
    rw [nothing] at ending first
    rw [if_neg unended]
    exact ⟨first, offset, ending⟩

private theorem Cursor.feed_printed (cursor : Cursor) {tokens : List Token} {rest : List Char}
    (readable : ∀ token ∈ tokens, token.Readable)
    (found : cursor.rest = (printed tokens).toList ++ rest) (stops : Stops continuesToken rest) :
    ∃ after : Cursor, after.rest = rest ∧ cursor.feed.ending = after.feed.ending ∧
      cursor.feed.tokens.map (·.token) = tokens ++ after.feed.tokens.map (·.token) := by
  cases tokens with
  | nil => exact ⟨cursor, found, rfl, rfl⟩
  | cons first others =>
    have behind : Stops continuesToken (spacedOut others ++ rest) := by
      cases others with
      | nil => exact stops
      | cons next others => exact stops_cons.mpr (by decide)
    rw [toList_printed_cons, List.append_assoc] at found
    obtain ⟨between, restBetween, ending, read⟩ :=
      feed_written [] (readable first (.head _)) (by simp) found behind
    obtain ⟨after, restAfter, endingAfter, readOthers⟩ := between.feed_spacedOut
      (fun other member => readable other (.tail _ member)) restBetween stops
    exact ⟨after, restAfter, ending.trans endingAfter, by rw [read, readOthers, List.cons_append]⟩

/-- Tokens that can stand in a text are read back from what they are printed as, and after them the line
end that the text lacks and the end of input. -/
theorem tokenize_printed {tokens : List Token} (readable : ∀ token ∈ tokens, token.Readable) :
    ∃ located, tokenize (printed tokens) = .ok located ∧
      located.map (·.token) = tokens ++ closing tokens ++ [.endOfInput] := by
  obtain ⟨after, rest, ending, read⟩ := (Cursor.start (endLine (printed tokens).toList)).feed_printed
    readable (endLine_printed readable) (stops_closing tokens)
  obtain ⟨closed, offset, atEnd⟩ := Cursor.feed_closing rest
  refine ⟨_, tokenize_eq_ok.mpr ⟨offset, ending.trans atEnd, rfl⟩, ?_⟩
  rw [List.map_append]
  exact congrArg (· ++ [Token.endOfInput]) (read.trans (congrArg (tokens ++ ·) closed))

/-- Tokens that begin alike, a mark that starts a comment elsewhere, and no line end. -/
theorem tokenize_printed_lookalikes :
    (∀ token ∈ [.name "PRINTER", .operator .assign, .operator (.comparison .equal),
        .string "# PRINT é", .number "007.50", .keyword .print], Token.Readable token) ∧
      ∃ located, tokenize (printed [.name "PRINTER", .operator .assign,
          .operator (.comparison .equal), .string "# PRINT é", .number "007.50", .keyword .print]) =
            .ok located ∧
        located.map (·.token) = [.name "PRINTER", .operator .assign, .operator (.comparison .equal),
          .string "# PRINT é", .number "007.50", .keyword .print, .newline, .endOfInput] := by
  have isName : (Token.name "PRINTER").Readable :=
    ⟨⟨by decide, List.all_eq_true.mp (by decide), by decide⟩, by simp⟩
  have isString : (Token.string "# PRINT é").Readable :=
    ⟨List.all_eq_true.mp (by decide), by simp⟩
  have isNumber : (Token.number "007.50").Readable :=
    ⟨@Numeral.pointed ['0', '0', '7'] ['5', '0'] ⟨by simp, List.all_eq_true.mp (by decide)⟩
      ⟨by simp, List.all_eq_true.mp (by decide)⟩, by simp⟩
  have readable : ∀ token ∈ [.name "PRINTER", .operator .assign, .operator (.comparison .equal),
      .string "# PRINT é", .number "007.50", .keyword .print], Token.Readable token := by
    simp only [List.forall_mem_cons, List.not_mem_nil, false_implies, implies_true, and_true]
    exact ⟨isName, Token.readable_operator _, Token.readable_operator _, isString, isNumber,
      Token.readable_keyword _⟩
  exact ⟨readable, tokenize_printed readable⟩

end TeenyBasic
