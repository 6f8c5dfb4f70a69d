import TeenyBasic.Proofs.MaximalMunch

/-!
Reading on. A cursor goes on from wherever the last token or fault has left it, so requests of both kinds
can be made in any order and any number. Between two requests the cursor stands at a character of the
text (`Cursor.exists_passes_next`), and a request that is answered moves it on unless the end is reached.
The two kinds of requests differ only in when there is no answer (`TokenSequence.answer_cases`); what is
answered is the same (`TokenSequence.answers_plain`).
-/

set_option autoImplicit false

namespace TeenyBasic

open Grammar

/-- Whether the result is a fault or a token before the end of input. -/
def isProgress : Except LexicalError Located → Bool
  | .ok located => located.token != .endOfInput
  | .error _ => true

/-- Whether a sequence of tokens is over after the result. -/
def isLast : Except LexicalError Located → Bool
  | .ok located => located.token == .endOfInput
  | .error _ => true

/-- The end of input, found at the offset. -/
def endAt (offset : Nat) : Located :=
  { token := .endOfInput, span := { start := offset, stop := offset } }

/-! ## One token -/

namespace Cursor

variable {cursor : Cursor}

theorem exists_passes_readNumber (cursor : Cursor) :
    ∃ taken, cursor.Passes taken cursor.readNumber.2 := by
  have whole := passes_skipWhile Char.isDigit cursor
  unfold readNumber
  dsimp only
  split
  · rename_i rest found
    have point := whole.trans (passes_past ['.'] found)
    split
    · exact ⟨_, point⟩
    · exact ⟨_, point.trans (passes_skipWhile Char.isDigit _)⟩
  · exact ⟨_, whole⟩

theorem exists_passes_readString {body : List Char} (found : cursor.rest = '"' :: body) :
    ∃ taken, cursor.Passes taken (cursor.readString body).2 := by
  have inside := (passes_past ['"'] found).trans (passes_skipWhile isStringBody _)
  unfold readString
  dsimp only
  split
  · rename_i closes
    exact ⟨_, inside.trans (passes_past ['"'] closes)⟩
  · split
    · exact ⟨_, inside⟩
    · exact ⟨_, inside⟩
  · exact ⟨_, inside⟩

theorem exists_passes_readOperator {c : Char} {rest : List Char} (found : cursor.rest = c :: rest) :
    ∃ taken, cursor.Passes taken (cursor.readOperator c rest).2 := by
  unfold readOperator
  split
  · rename_i read
    exact ⟨_, passes_past _ (Operator.read?_split read)⟩
  · exact ⟨_, passes_past [c] found⟩

theorem exists_passes_readToken (cursor : Cursor) :
    ∃ taken, cursor.Passes taken cursor.readToken.2 := by
  unfold readToken
  split
  · exact ⟨[], rfl, rfl⟩
  rename_i c rest found
  split
  · exact ⟨_, passes_past [c] found⟩
  split
  · rename_i quote
    exact exists_passes_readString (quote ▸ found)
  split
  · exact exists_passes_readNumber cursor
  split
  · exact ⟨_, passes_skipWhile Char.isAlpha cursor⟩
  · exact exists_passes_readOperator found

theorem exists_passes_next (cursor : Cursor) : ∃ taken, cursor.Passes taken cursor.next.2 := by
  obtain ⟨gap, -, skipped⟩ := passes_skipGap cursor
  obtain ⟨taken, passes⟩ := cursor.skipGap.exists_passes_readToken
  exact ⟨_, skipped.trans passes⟩

theorem offset_lt_next (progress : isProgress cursor.next.1 = true) :
    cursor.offset < cursor.next.2.offset := by
  obtain ⟨taken, passes⟩ := cursor.exists_passes_next
  have shorter : cursor.next.2.rest.length < cursor.rest.length := by
    cases read : cursor.next with
    | mk result after =>
      refine length_next_lt read fun located found => ?_
      rw [read, found] at progress
      simpa [isProgress] using progress
  have nonempty : taken ≠ [] := by
    intro nothing
    rw [passes.rest, nothing, List.nil_append] at shorter
    exact Nat.lt_irrefl _ shorter
  rw [passes.offset]
  exact Nat.lt_add_of_pos_right (Text.byteLength_pos nonempty)

/-- Before the end of a text that ends in a line feed there is always something to read. -/
theorem isProgress_next (ends : EndsLine cursor.rest) (nonempty : cursor.rest ≠ []) :
    isProgress cursor.next.1 = true := by
  cases read : cursor.next with
  | mk result after =>
    cases result with
    | error error => rfl
    | ok located =>
      have notEnd : located.token ≠ .endOfInput := by
        intro atEnd
        obtain ⟨gap, isGap, passes, -⟩ := exists_gap cursor
        have whole := passes.rest
        rw [rest_of_readToken_endOfInput read atEnd, List.append_nil] at whole
        rw [whole] at ends nonempty
        exact nonempty (ends.eq_nil_of_gap isGap)
      simpa [isProgress] using notEnd

end Cursor

/-! ## Any requests -/

/-- The results among the answers. -/
def results (answers : List (Option (Except LexicalError Located))) : List (Except LexicalError Located) :=
  answers.filterMap id

theorem results_some (result : Except LexicalError Located)
    (answers : List (Option (Except LexicalError Located))) :
    results (some result :: answers) = result :: results answers :=
  rfl

namespace TokenSequence

variable {sequence : TokenSequence}

/-- The sequence once the requests are answered. -/
def afterAll (sequence : TokenSequence) : List Request → TokenSequence
  | [] => sequence
  | request :: others => (sequence.answer request).2.afterAll others

theorem answer_token (sequence : TokenSequence) :
    sequence.answer .token = (some sequence.cursor.next.1, { sequence with cursor := sequence.cursor.next.2 }) :=
  rfl

theorem answer_member_of_finished (finished : sequence.finished = true) :
    sequence.answer .member = (none, sequence) := by
  simp [answer, finished]

theorem answer_member_of_unfinished (unfinished : sequence.finished = false) :
    sequence.answer .member = (some sequence.cursor.next.1,
      { cursor := sequence.cursor.next.2, finished := isLast sequence.cursor.next.1 }) := by
  simp only [answer, unfinished, Bool.false_eq_true, if_false]
  rfl

/-- A request is left without an answer, and then nothing changes, or it is answered by the next token. -/
theorem answer_cases (sequence : TokenSequence) (request : Request) :
    sequence.answer request = (none, sequence) ∨
      ∃ finished, sequence.answer request =
        (some sequence.cursor.next.1, { cursor := sequence.cursor.next.2, finished }) := by
  cases request with
  | token => exact .inr ⟨_, answer_token sequence⟩
  | member =>
    cases finished : sequence.finished with
    | true => exact .inl (answer_member_of_finished finished)
    | false => exact .inr ⟨_, answer_member_of_unfinished finished⟩

private theorem exists_passes_answer (sequence : TokenSequence) (request : Request) :
    ∃ taken, sequence.cursor.Passes taken (sequence.answer request).2.cursor := by
  obtain unanswered | ⟨finished, answered⟩ := answer_cases sequence request
  · exact ⟨[], by rw [unanswered]; exact ⟨rfl, rfl⟩⟩
  · rw [answered]
    exact sequence.cursor.exists_passes_next

private theorem offset_lt_answer {request : Request} {result : Except LexicalError Located}
    (answered : (sequence.answer request).1 = some result) (progress : isProgress result = true) :
    sequence.cursor.offset < (sequence.answer request).2.cursor.offset := by
  obtain unanswered | ⟨finished, found⟩ := answer_cases sequence request
  · rw [unanswered] at answered
    cases answered
  · rw [found] at answered ⊢
    cases answered
    exact Cursor.offset_lt_next progress

theorem answer_token_of_rest_nil (empty : sequence.cursor.rest = []) :
    sequence.answer .token = (some (.ok (endAt sequence.cursor.offset)), sequence) := by
  rw [answer_token, Cursor.next_of_rest_nil empty]
  rfl

theorem answer_eq_none_iff (sequence : TokenSequence) :
    (sequence.answer .member).1 = none ↔ sequence.finished = true := by
  cases finished : sequence.finished with
  | true => simp [answer_member_of_finished finished]
  | false => simp [answer_member_of_unfinished finished]

/-- The flag is set by a last result that answers a member request, and never cleared. -/
theorem finished_answer_iff (sequence : TokenSequence) (request : Request) :
    (sequence.answer request).2.finished = true ↔
      sequence.finished = true ∨
        request = .member ∧ ∃ result, (sequence.answer request).1 = some result ∧ isLast result = true := by
  cases request with
  | token => simp [answer_token]
  | member =>
    cases finished : sequence.finished with
    | true => simp [answer_member_of_finished finished, finished]
    | false => simp [answer_member_of_unfinished finished]

private theorem finished_afterAll_iff (requests : List Request) (sequence : TokenSequence) :
    (sequence.afterAll requests).finished = true ↔
      sequence.finished = true ∨
        ∃ result, (Request.member, some result) ∈ requests.zip (sequence.answers requests) ∧
          isLast result = true := by
  induction requests generalizing sequence with
  | nil => simp [afterAll]
  | cons request others ih =>
    rw [afterAll, ih, finished_answer_iff, answers, List.zip_cons_cons]
    simp only [List.mem_cons, Prod.mk.injEq]
    grind

/-- What is answered does not depend on the kind of the requests. -/
theorem answers_plain (requests : List Request) {sequence plain : TokenSequence}
    (together : plain.cursor = sequence.cursor) :
    plain.answers (List.replicate (results (sequence.answers requests)).length .token) =
      (results (sequence.answers requests)).map some := by
  induction requests generalizing sequence plain with
  | nil => rfl
  | cons request others ih =>
    obtain unanswered | ⟨finished, answered⟩ := answer_cases sequence request
    · rw [answers, unanswered]
      exact ih together
    · have rest := @ih { cursor := sequence.cursor.next.2, finished }
        { plain with cursor := plain.cursor.next.2 } (by rw [together])
      simp only [answers, answered, results_some, List.length_cons, List.replicate_succ, List.map_cons,
        answer_token]
      rw [rest, together]

/-- Where the requests bring a sequence, and what they are answered with on the way. -/
structure Brings (sequence : TokenSequence) (requests : List Request) (taken : List Char) : Prop where
  passes : sequence.cursor.Passes taken (sequence.afterAll requests).cursor
  progress : (results (sequence.answers requests)).countP isProgress ≤ Text.byteLength taken
  ended : ∀ result ∈ results (sequence.answers requests), isProgress result = false →
    (sequence.afterAll requests).cursor.rest = [] ∧
      result = .ok (endAt (sequence.afterAll requests).cursor.offset)

private theorem Brings.unanswered {request : Request} {others : List Request} {taken : List Char}
    (unanswered : sequence.answer request = (none, sequence)) (brings : sequence.Brings others taken) :
    sequence.Brings (request :: others) taken where
  passes := by rw [afterAll, unanswered]; exact brings.passes
  progress := by rw [answers, unanswered]; exact brings.progress
  ended := by rw [afterAll, answers, unanswered]; exact brings.ended

private theorem Brings.answered {request : Request} {others : List Request} {first taken : List Char}
    {finished : Bool} (ends : EndsLine sequence.cursor.rest)
    (answered : sequence.answer request =
      (some sequence.cursor.next.1, { cursor := sequence.cursor.next.2, finished }))
    (passes : sequence.cursor.Passes first sequence.cursor.next.2)
    (brings : Brings { cursor := sequence.cursor.next.2, finished } others taken) :
    sequence.Brings (request :: others) (first ++ taken) where
  passes := by rw [afterAll, answered]; exact passes.trans brings.passes
  progress := by
    have count := brings.progress
    simp only [answers, answered, results_some, List.countP_cons, Text.byteLength_append]
    split
    · rename_i progress
      have forward := Cursor.offset_lt_next progress
      rw [passes.offset] at forward
      omega
    · omega
  ended := by
    simp only [afterAll, answers, answered, results_some, List.forall_mem_cons]
    refine ⟨fun atEnd => ?_, brings.ended⟩
    have empty : sequence.cursor.rest = [] := by
      by_contra nonempty
      rw [Cursor.isProgress_next ends nonempty] at atEnd
      cases atEnd
    rw [Cursor.next_of_rest_nil empty] at brings ⊢
    have nothing := brings.passes.rest.symm.trans empty
    obtain ⟨rfl, atEnd⟩ := List.append_eq_nil_iff.mp nothing
    have offset : _ = sequence.cursor.offset := brings.passes.offset
    exact ⟨atEnd, by rw [offset, endAt]⟩

private theorem exists_brings (requests : List Request) (sequence : TokenSequence)
    (ends : EndsLine sequence.cursor.rest) : ∃ taken, sequence.Brings requests taken := by
  induction requests generalizing sequence with
  | nil => exact ⟨[], ⟨rfl, rfl⟩, Nat.le_refl _, fun _ member => nomatch member⟩
  | cons request others ih =>
    obtain unanswered | ⟨finished, answered⟩ := answer_cases sequence request
    · obtain ⟨taken, brings⟩ := ih sequence ends
      exact ⟨taken, brings.unanswered unanswered⟩
    · obtain ⟨first, passes⟩ := sequence.cursor.exists_passes_next
      obtain ⟨taken, brings⟩ := ih { cursor := sequence.cursor.next.2, finished }
        (passes.rest ▸ ends).of_append
      exact ⟨first ++ taken, .answered ends answered passes brings⟩

/-- As many results as there are bytes are enough to come to the end. -/
theorem Brings.rest_nil {requests : List Request} {taken : List Char} (brings : sequence.Brings requests taken)
    (enough : Text.byteLength sequence.cursor.rest ≤ (results (sequence.answers requests)).length ∨
      ∃ result ∈ results (sequence.answers requests), isProgress result = false) :
    (sequence.afterAll requests).cursor.rest = [] := by
  by_cases atEnd : ∃ result ∈ results (sequence.answers requests), isProgress result = false
  · obtain ⟨result, given, last⟩ := atEnd
    exact (brings.ended result given last).1
  · have many := enough.resolve_right atEnd
    have progress : (results (sequence.answers requests)).countP isProgress =
        (results (sequence.answers requests)).length := by
      refine List.countP_eq_length.mpr fun result given => ?_
      by_contra last
      exact atEnd ⟨result, given, Bool.not_eq_true _ ▸ last⟩
    have covered := brings.progress
    rw [brings.passes.rest, Text.byteLength_append] at many
    exact Text.eq_nil_of_byteLength (by omega)

/-- A sequence in front of the text. -/
def start (text : List Char) : TokenSequence :=
  { cursor := .start text }

end TokenSequence

/--
What holds of a text after any requests, the sequence being `here` by then: where it stands in the text,
what one more request does, and how the answers so far compare with those to plain requests.
-/
structure Resumes (text : List Char) (requests : List Request)
    (answers : List (Option (Except LexicalError Located))) (here : TokenSequence) : Prop where
  stands : ∃ front, text = front ++ here.cursor.rest ∧ here.cursor.offset = Text.byteLength front
  forward : ∀ request, here.cursor.offset ≤ (here.answer request).2.cursor.offset
  advances : ∀ request result, (here.answer request).1 = some result → isProgress result = true →
    here.cursor.offset < (here.answer request).2.cursor.offset
  bounded : (results answers).countP isProgress ≤ Text.byteLength text
  atEnd : ∀ result ∈ results answers, isProgress result = false → result = .ok (endAt (Text.byteLength text))
  ended : Text.byteLength text ≤ (results answers).length ∨
      (∃ result ∈ results answers, isProgress result = false) →
    here.answer .token = (some (.ok (endAt (Text.byteLength text))), here)
  plain : (TokenSequence.start text).answers (List.replicate (results answers).length .token) =
    (results answers).map some
  unanswered : (here.answer .member).1 = none ↔
    ∃ result, (Request.member, some result) ∈ requests.zip answers ∧ isLast result = true
  still : (here.answer .member).1 = none → (here.answer .member).2 = here

/--
A reader can be asked for tokens in either way, in any order and past any fault: it stands at a character
of the text throughout, goes forward with every token and fault, comes to the end, and answers what plain
requests would have been answered.
-/
theorem resumes_afterAll (source : String) (requests : List Request) :
    Resumes (endLine source.toList) requests
      ((TokenSequence.start (endLine source.toList)).answers requests)
      ((TokenSequence.start (endLine source.toList)).afterAll requests) := by
  obtain ⟨taken, brings⟩ := TokenSequence.exists_brings requests
    (.start (endLine source.toList)) (endsLine_endLine source.toList)
  have whole : endLine source.toList = taken ++ _ := brings.passes.rest
  have offset : _ = Text.byteLength taken := brings.passes.offset.trans (Nat.zero_add _)
  generalize arrived : (TokenSequence.start (endLine source.toList)).afterAll requests = here at *
  have last : here.cursor.rest = [] → here.cursor.offset = Text.byteLength (endLine source.toList) := by
    intro empty
    rw [offset, whole, empty, List.append_nil]
  exact {
    stands := ⟨taken, whole, offset⟩
    forward := by
      intro request
      obtain ⟨more, passes⟩ := here.exists_passes_answer request
      rw [passes.offset]
      exact Nat.le_add_right _ _
    advances := fun _ _ answered progress => TokenSequence.offset_lt_answer answered progress
    bounded := by
      refine Nat.le_trans brings.progress ?_
      rw [whole, Text.byteLength_append]
      exact Nat.le_add_right _ _
    atEnd := by
      intro result given notProgress
      have ended := brings.ended result given notProgress
      rw [arrived] at ended
      rw [ended.2, last ended.1]
    ended := by
      intro enough
      have empty := brings.rest_nil enough
      rw [arrived] at empty
      rw [TokenSequence.answer_token_of_rest_nil empty, last empty]
    plain := TokenSequence.answers_plain requests rfl
    unanswered := by
      rw [TokenSequence.answer_eq_none_iff, ← arrived, TokenSequence.finished_afterAll_iff]
      simp [TokenSequence.start]
    still := by
      intro unanswered
      rw [TokenSequence.answer_member_of_finished ((TokenSequence.answer_eq_none_iff here).mp unanswered)] }

end TeenyBasic
