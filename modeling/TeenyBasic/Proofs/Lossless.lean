import TeenyBasic.Proofs.Decoding
import TeenyBasic.Proofs.Layout
import TeenyBasic.Proofs.Translation

/-!
Translation loses nothing but layout. The tokens of a program, without the line ends that follow
another one, are those of its lines, each with one line end (`Written.collapse`); and the lines are
determined by the C text.
-/

set_option autoImplicit false

namespace TeenyBasic

open Grammar

/-! ## Tokens without layout -/

theorem collapse_true_newlines {front : List Located} (rest : List Located)
    (newlines : ∀ located ∈ front, located.token = .newline) :
    collapse true (front ++ rest) = collapse true rest := by
  induction front with
  | nil => rfl
  | cons located front ih =>
    rw [List.cons_append, collapse_true_newline (newlines located (.head _))]
    exact ih fun other member => newlines other (.tail _ member)

private theorem collapse_words {front : List Located} (rest : List Located) (nonempty : front ≠ [])
    (words : ∀ located ∈ front, located.token ≠ .newline) (broken : Bool) :
    collapse broken (front ++ rest) = front ++ collapse false rest := by
  induction front generalizing broken with
  | nil => exact absurd rfl nonempty
  | cons located front ih =>
    rw [List.cons_append, collapse_of_ne (words located (.head _)), List.cons_append]
    cases front with
    | nil => rfl
    | cons => rw [ih (by simp) fun other member => words other (.tail _ member)]

/-- The tokens of lines with one line end each. -/
def tokensOfLines (lines : List Line) : List Token :=
  lines.flatMap fun line => line.tokens ++ [.newline]

theorem Grammar.Written.collapse {lines : List Line} {tokens : List Token}
    (written : Written lines tokens) {located : List Located} (rest : List Located)
    (spelled : located.map (·.token) = tokens) :
    (TeenyBasic.collapse true (located ++ rest)).map (·.token) =
      tokensOfLines lines ++ (TeenyBasic.collapse true rest).map (·.token) := by
  induction written generalizing located with
  | nil =>
    obtain rfl := List.map_eq_nil_iff.mp spelled
    rfl
  | @cons line lines ends more lineEnds _ ih =>
    obtain ⟨front, others, rfl, frontSpelled, rfl⟩ := List.map_eq_append_iff.mp spelled
    obtain ⟨words, breaks, rfl, wordTokens, breakTokens⟩ := List.map_eq_append_iff.mp frontSpelled
    obtain ⟨count, rfl⟩ := lineEnds
    obtain ⟨first, moreBreaks, rfl, firstBreak, moreTokens⟩ := List.map_eq_cons_iff.mp breakTokens
    have nonempty : words ≠ [] := by
      rintro rfl
      obtain ⟨_, lineTokens⟩ := line.head_tokens
      rw [lineTokens] at wordTokens
      cases wordTokens
    have notNewline : ∀ located ∈ words, located.token ≠ .newline := fun located member =>
      (Line.ne_of_mem (wordTokens ▸ List.mem_map_of_mem member)).1
    have newlines : ∀ located ∈ moreBreaks, located.token = .newline := fun located member =>
      List.eq_of_mem_replicate (moreTokens ▸ List.mem_map_of_mem member)
    have whole : TeenyBasic.collapse true (words ++ first :: moreBreaks ++ others ++ rest) =
        words ++ first :: TeenyBasic.collapse true (others ++ rest) := by
      rw [List.append_assoc, List.append_assoc, collapse_words _ nonempty notNewline,
        List.cons_append, collapse_false, firstBreak]
      exact congrArg (words ++ first :: ·) (collapse_true_newlines _ newlines)
    rw [whole, List.map_append, List.map_cons, ih rfl, wordTokens, firstBreak]
    simp [tokensOfLines]

theorem Grammar.Program.Derives.collapse {program : Grammar.Program} {located : List Located}
    (derives : program.Derives (located.map (·.token))) :
    (TeenyBasic.collapse true located).map (·.token) =
      tokensOfLines (linesOf program.statements) ++ [.endOfInput] := by
  obtain ⟨count, used, written, spelled⟩ := derives.exists_written
  obtain ⟨front, last, rfl, frontTokens, lastToken⟩ := List.map_eq_append_iff.mp spelled
  obtain ⟨blank, body, rfl, blankTokens, bodyTokens⟩ := List.map_eq_append_iff.mp frontTokens
  obtain ⟨stop, rfl, isEnd⟩ := Pass.exists_located_of_map_eq lastToken
  have newlines : ∀ located ∈ blank, located.token = .newline := fun located member =>
    List.eq_of_mem_replicate (blankTokens ▸ List.mem_map_of_mem member)
  rw [List.append_assoc, collapse_true_newlines _ newlines, written.collapse _ bodyTokens,
    collapse_of_ne (by simp [isEnd])]
  simp [isEnd, TeenyBasic.collapse]

/-! ## Programs from their C text -/

private theorem Grammar.Written.mem_of_mem_line {lines : List Line} {tokens : List Token}
    (written : Written lines tokens) {line : Line} (inside : line ∈ lines) {token : Token}
    (member : token ∈ line.tokens) : token ∈ tokens := by
  induction written with
  | nil => cases inside
  | cons first _ _ ih =>
    rcases List.mem_cons.mp inside with rfl | later
    · exact List.mem_append_left _ (List.mem_append_left _ member)
    · exact List.mem_append_right _ (ih later)

theorem Grammar.Program.Derives.spelled {source : String} {tokens : List Located}
    {program : Grammar.Program} (derives : program.Derives (tokens.map (·.token)))
    (tokenized : tokenize source = .ok tokens) : program.Spelled := by
  intro line inside token member
  obtain ⟨count, used, written, split⟩ := derives.exists_written
  obtain ⟨offset, -, rfl⟩ := tokenize_eq_ok.mp tokenized
  rw [List.map_append] at split
  refine spelled_of_mem_tokens source ?_
  rw [List.append_cancel_right split]
  exact List.mem_append_right _ (written.mem_of_mem_line inside member)

/-- A source that is compiled has a program with the C text, spelled as the source spells it. -/
theorem exists_program_of_compile {source text : String} (compiled : compile source = .ok text) :
    ∃ tokens, tokenize source = .ok tokens ∧ ∃ program : Grammar.Program,
      program.Derives (tokens.map (·.token)) ∧ program.Spelled ∧ program.cText = text := by
  obtain ⟨after, completed, rfl⟩ := compile_eq_ok.mp compiled
  obtain ⟨tokens, tokenized, program, derives, performed, -⟩ :=
    run_completed_iff.mp ⟨after, completed, rfl⟩
  exact ⟨tokens, tokenized, program, derives, derives.spelled tokenized,
    (program.finish_performAll performed).symm⟩

/-- Sources with the same C text have the same tokens up to line ends at the start or after another
one. -/
theorem compile_determines_tokens {first second text : String}
    (firstCompiled : compile first = .ok text) (secondCompiled : compile second = .ok text) :
    ∃ firstTokens secondTokens, tokenize first = .ok firstTokens ∧
      tokenize second = .ok secondTokens ∧
      (collapse true firstTokens).map (·.token.kindAndText) =
        (collapse true secondTokens).map (·.token.kindAndText) := by
  obtain ⟨firstTokens, firstTokenized, program, firstDerives, firstSpelled, firstText⟩ :=
    exists_program_of_compile firstCompiled
  obtain ⟨secondTokens, secondTokenized, other, secondDerives, secondSpelled, secondText⟩ :=
    exists_program_of_compile secondCompiled
  obtain rfl := Program.cText_inj firstSpelled secondSpelled (firstText.trans secondText.symm)
  refine ⟨firstTokens, secondTokens, firstTokenized, secondTokenized, ?_⟩
  have same := firstDerives.collapse.trans secondDerives.collapse.symm
  simpa [Function.comp_def] using congrArg (List.map Token.kindAndText) same

theorem compile_determines_tokens_spread :
    ∃ text, compile "INPUT a\nLET a = 0\n" = .ok text ∧
      compile "\n# zero\n INPUT a\r\n\r\nLET\ta=0" = .ok text ∧
      ∃ firstTokens secondTokens, tokenize "INPUT a\nLET a = 0\n" = .ok firstTokens ∧
        tokenize "\n# zero\n INPUT a\r\n\r\nLET\ta=0" = .ok secondTokens ∧
        (collapse true firstTokens).map (·.token.kindAndText) =
          (collapse true secondTokens).map (·.token.kindAndText) := by
  have same : compile "\n# zero\n INPUT a\r\n\r\nLET\ta=0" = compile "INPUT a\nLET a = 0\n" := by
    decide +kernel
  have succeeds : (compile "INPUT a\nLET a = 0\n").toOption.isSome := by decide +kernel
  cases compiled : compile "INPUT a\nLET a = 0\n" with
  | error failure =>
    rw [compiled] at succeeds
    cases succeeds
  | ok text =>
    rw [compiled] at same
    exact ⟨text, rfl, same, compile_determines_tokens compiled same⟩

end TeenyBasic
