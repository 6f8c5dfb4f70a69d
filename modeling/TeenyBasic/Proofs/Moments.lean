import TeenyBasic.Proofs.Lookahead
import TeenyBasic.Proofs.Pass.Naming

/-!
Every moment of a run. A run can be looked at where it ends, and it can end wherever it asks for a token:
a fault there stops it and leaves its state as it is. So the moments of a run over a source are the ends
of the runs over its tokens broken off at some point, and the end of the run itself (`Moment`).

At every moment the books are those of the tokens used up (`Moment.stands`). So the declarations in the
header are exact all the time, and a variable is refused just when an operand is reached that has none
(`declarations_exact`).
-/

set_option autoImplicit false

namespace TeenyBasic

open Grammar Pass

variable {σ : Type}

/-- The first tokens that are drawn from the feed, and a fault where the next one would be. -/
def Feed.brokenOff (feed : Feed) (count : Nat) (error : LexicalError) : Feed where
  tokens := (List.range count).filterMap feed.drawn?
  ending := .fault error

/-- A state in which a run over the source asks for a token, or ends. -/
inductive Moment [Sink σ] (sink : σ) (source : String) : State σ → Prop where
  | asking {count : Nat} {error : LexicalError} {state : State σ} :
      runFeed sink ((feedOf source).brokenOff count error) = .halted error.failure state →
      Moment sink source state
  | ended {state : State σ} : (run sink source).state? = some state → Moment sink source state

/-- Compiling the source comes to the token after the tokens before it. -/
def Reaches (source : String) (used : List Located) (here : Located) : Prop :=
  ∃ state : State Emitter, Moment {} source state ∧ state.current = here ∧
    ∃ behind, streamOf source = used ++ here :: behind

/-! ## Tokens broken off -/

namespace Feed

variable {feed : Feed} {count index : Nat} {error : LexicalError} {located : Located}

private theorem isSome_drawn?_of_le {later : Nat} (found : (feed.drawn? later).isSome)
    (before : index ≤ later) : (feed.drawn? index).isSome := by
  rcases Nat.lt_or_ge index feed.tokens.length with inside | outside
  · rw [drawn?_of_lt inside, List.getElem?_eq_getElem inside]
    rfl
  · rw [drawn?_of_le outside]
    rwa [drawn?_of_le (Nat.le_trans outside before)] at found

private theorem length_range_filterMap (found : (feed.drawn? count).isSome) :
    ((List.range count).filterMap feed.drawn?).length = count := by
  induction count with
  | zero => rfl
  | succ count ih =>
    have before := isSome_drawn?_of_le found (Nat.le_succ count)
    obtain ⟨located, drawn⟩ := Option.isSome_iff_exists.mp before
    rw [List.range_succ, List.filterMap_append, List.length_append, ih before]
    simp [drawn]

private theorem drawn?_of_range
    (found : ((List.range count).filterMap feed.drawn?)[index]? = some located) :
    feed.drawn? index = some located := by
  induction count with
  | zero => cases found
  | succ count ih =>
    rw [List.range_succ, List.filterMap_append] at found
    cases drawn : feed.drawn? count with
    | none =>
      simp only [List.filterMap_cons, drawn, List.filterMap_nil, List.append_nil] at found
      exact ih found
    | some last =>
      have length := length_range_filterMap (Option.isSome_of_eq_some drawn)
      simp only [List.filterMap_cons, drawn, List.filterMap_nil] at found
      rw [List.getElem?_append] at found
      split at found
      · exact ih found
      · rename_i outside
        have atEnd : index - ((List.range count).filterMap feed.drawn?).length = 0 := by
          have inside := (List.getElem?_eq_some_iff.mp found).1
          simpa using inside
        rw [atEnd] at found
        cases found
        rw [show index = count by omega]
        exact drawn

private theorem drawn?_of_brokenOff (found : (feed.brokenOff count error).drawn? index = some located) :
    feed.drawn? index = some located := by
  apply drawn?_of_range
  simpa [drawn?, brokenOff, endToken?] using found

theorem spelled_drawn? (spelled : ∀ located ∈ feed.tokens, located.token.Spelled)
    (drawn : feed.drawn? index = some located) :
    located.token.Spelled := by
  rcases Nat.lt_or_ge index feed.tokens.length with inside | outside
  · rw [drawn?_of_lt inside] at drawn
    exact spelled located (List.mem_of_getElem? drawn)
  · rw [drawn?_of_le outside] at drawn
    rw [token_of_endToken? drawn]
    trivial

end Feed

theorem spelled_feedOf (source : String) : ∀ located ∈ (feedOf source).tokens, located.token.Spelled :=
  fun _ member => spelled_of_mem_tokens source (List.mem_map_of_mem member)

theorem spelled_brokenOff (source : String) (count : Nat) (error : LexicalError) :
    ∀ located ∈ ((feedOf source).brokenOff count error).tokens, located.token.Spelled := by
  intro located member
  obtain ⟨index, -, drawn⟩ := List.mem_filterMap.mp member
  exact Feed.spelled_drawn? (spelled_feedOf source) drawn

/-! ## Where a run stands -/

section Runs

variable [Sink σ] {sink : σ} {source : String} {state : State σ} {used : List Located}

/-- The tokens used up are the first ones of any feed that gives the same tokens. -/
theorem Standing.stream {whole feed : Feed} (standing : Standing whole sink used state)
    (agrees : ∀ index located, whole.drawn? index = some located →
      feed.drawn? index = some located) :
    ∃ behind, feed.stream = used ++ state.current :: behind := by
  have inside : ∀ (index : Nat) (located : Located), used[index]? = some located →
      feed.tokens[index]? = some located := by
    intro index located found
    have drawn : whole.drawn? index = some located := by
      have within := (List.getElem?_eq_some_iff.mp found).1
      rw [← standing.taken, List.getElem?_take, if_pos within] at found
      simp [Feed.drawn?, found]
    have drawnFeed := agrees index located drawn
    rcases Nat.lt_or_ge index feed.tokens.length with below | outside
    · rwa [Feed.drawn?_of_lt below] at drawnFeed
    · rw [Feed.drawn?_of_le outside] at drawnFeed
      exact absurd (Feed.token_of_endToken? drawnFeed) (standing.notEnd located (List.mem_of_getElem? found))
  have bound : used.length ≤ feed.tokens.length := by
    refine Nat.le_of_not_lt fun shorter => ?_
    have found := inside _ _ (List.getElem?_eq_getElem shorter)
    exact Nat.lt_irrefl _ (List.getElem?_eq_some_iff.mp found).1
  have front : feed.tokens.take used.length = used := by
    apply List.ext_getElem?
    intro index
    rw [List.getElem?_take]
    split
    · rename_i within
      rw [inside _ _ (List.getElem?_eq_getElem within), List.getElem?_eq_getElem within]
    · rename_i beyond
      rw [List.getElem?_eq_none (Nat.le_of_not_lt beyond)]
  have current : feed.stream[used.length]? = some state.current := by
    rw [← Feed.drawn?_eq_stream bound]
    exact agrees _ _ standing.isAt.current
  obtain ⟨within, current⟩ := List.getElem?_eq_some_iff.mp current
  refine ⟨feed.stream.drop (used.length + 1), ?_⟩
  calc feed.stream = feed.stream.take used.length ++ feed.stream.drop used.length :=
        (List.take_append_drop _ _).symm
    _ = used ++ state.current :: feed.stream.drop (used.length + 1) := by
        rw [List.drop_eq_getElem_cons within, current, Feed.stream, List.take_append_of_le_length bound,
          front]

theorem used_unique {front back other rest : List Located} {here : Located}
    (split : streamOf source = front ++ here :: back)
    (otherSplit : streamOf source = other ++ here :: rest) : front = other := by
  have found : (streamOf source)[front.length]? = some here := by simp [split]
  have otherFound : (streamOf source)[other.length]? = some here := by simp [otherSplit]
  have same := (ordered_feedOf source).index_unique found otherFound rfl
  exact (List.append_inj (split.symm.trans otherSplit) same).1

/-- The refusals of a name by their numbers. -/
def nameRefusals : List (String × (String → Refusal)) :=
  [("E200", .undefinedVariable), ("E201", .reservedName), ("E250", .duplicateLabel),
   ("E251", .undefinedLabel)]

theorem Failure.number_eq_iff {number : String} {refusal : String → Refusal}
    (listed : (number, refusal) ∈ nameRefusals) (failure : Failure) :
    failure.diagnostic.code.number = number ↔
      ∃ name line, failure.cause = .refused (refusal name) line := by
  obtain ⟨cause, span⟩ := failure
  simp only [nameRefusals, List.mem_cons, Prod.mk.injEq, List.not_mem_nil, or_false] at listed
  rcases listed with ⟨rfl, rfl⟩ | ⟨rfl, rfl⟩ | ⟨rfl, rfl⟩ | ⟨rfl, rfl⟩ <;> cases cause with
  | lexical fault => cases fault <;> simp [Failure.diagnostic, Cause.code, LexicalFault.code, Code.number]
  | refused found line => cases found <;> simp [Failure.diagnostic, Cause.code, Refusal.code, Code.number]

theorem Failure.naming?_eq_some {failure : Failure} {refusal : Refusal} :
    failure.naming? = some refusal ↔
      refusal.code.isNaming = true ∧ ∃ line, failure.cause = .refused refusal line := by
  unfold Failure.naming? Refusal.naming?
  cases failure.cause with
  | lexical fault => simp
  | refused found line =>
    by_cases naming : found.code.isNaming = true
    · simp only [naming, if_true, Option.some.injEq, Cause.refused.injEq, exists_and_left,
        exists_eq', and_true]
      exact ⟨fun same => ⟨same ▸ naming, same⟩, And.right⟩
    · have apart : refusal.code.isNaming = true → found ≠ refusal :=
        fun isNaming same => naming (same ▸ isNaming)
      simpa [naming] using apart

theorem runFeed_ends {whole : Feed} {failure : Failure}
    (spelled : ∀ located ∈ whole.tokens, located.token.Spelled)
    (halted : runFeed sink whole = .halted failure state) :
    Stopped whole sink failure state ∨
      ∃ jump, Finished whole sink state ∧ state.labels.firstUnresolved = some jump ∧
        failure = { cause := .refused (.undefinedLabel jump.label) jump.line, span := jump.span } := by
  obtain ⟨start, started, ran⟩ := runFeed_eq_halted.mp halted
  have ends := program_ends spelled started
  rwa [ran] at ends

theorem runFeed_finishes {whole : Feed} (spelled : ∀ located ∈ whole.tokens, located.token.Spelled)
    (completed : runFeed sink whole = .completed state) :
    Finished whole sink state ∧ state.labels.firstUnresolved = none := by
  obtain ⟨start, started, ran⟩ := runFeed_eq_completed.mp completed
  have ends := program_ends spelled started
  rwa [ran] at ends

theorem Moment.stands (moment : Moment sink source state) :
    ∃ used behind calls, streamOf source = used ++ state.current :: behind ∧
      Books sink used calls state ∧
      ∀ refusal, disallowance? used state.current.token = some refusal →
        ∃ line, run sink source = .halted
          { cause := .refused refusal line, span := state.current.span } state := by
  have finished : Finished (feedOf source) sink state →
      ∃ used behind calls, streamOf source = used ++ state.current :: behind ∧
        Books sink used calls state ∧ disallowance? used state.current.token = none := by
    intro isFinished
    obtain ⟨atEnd, used, standing⟩ := isFinished
    obtain ⟨behind, split⟩ := standing.stream fun _ _ drawn => drawn
    obtain ⟨calls, books⟩ := standing.books
    exact ⟨used, behind, calls, split, books, by rw [atEnd]; rfl⟩
  cases moment with
  | @asking count error _ halted =>
    rcases runFeed_ends (spelled_brokenOff source count error) halted with ⟨used, standing, judged⟩ | ⟨_, _, _, impossible⟩
    · obtain ⟨behind, split⟩ := standing.stream fun _ _ => Feed.drawn?_of_brokenOff
      obtain ⟨calls, books⟩ := standing.books
      refine ⟨used, behind, calls, split, books, fun refusal disallowed => ?_⟩
      rw [← judged.naming] at disallowed
      cases disallowed
    · cases impossible
  | ended ends =>
    unfold Run.state? at ends
    split at ends
    · cases ends
    · rename_i failure halted
      cases ends
      rcases runFeed_ends (spelled_feedOf source) halted with
        ⟨used, standing, judged⟩ | ⟨_, isFinished, _⟩
      · obtain ⟨behind, split⟩ := standing.stream fun _ _ drawn => drawn
        obtain ⟨calls, books⟩ := standing.books
        refine ⟨used, behind, calls, split, books, fun refusal disallowed => ?_⟩
        rw [← judged.naming] at disallowed
        obtain ⟨-, line, cause⟩ := Failure.naming?_eq_some.mp disallowed
        have span := judged.span (Option.isSome_of_eq_some disallowed)
        refine ⟨line, halted.trans ?_⟩
        rw [← cause, ← span]
      · obtain ⟨used, behind, calls, split, books, allowed⟩ := finished isFinished
        exact ⟨used, behind, calls, split, books, by simp [allowed]⟩
    · rename_i completed
      cases ends
      obtain ⟨used, behind, calls, split, books, allowed⟩ :=
        finished (runFeed_finishes (spelled_feedOf source) completed).1
      exact ⟨used, behind, calls, split, books, by simp [allowed]⟩

end Runs

/-- A source is refused for a name just when the name is reached and may not stand there. -/
theorem refused_iff_reaches {source : String} {refusal : Refusal} {span : Span}
    (naming : refusal.code.isNaming = true) :
    (∃ line, compile source = .error { cause := .refused refusal line, span := span }) ↔
      ∃ used token, Reaches source used { token := token, span := span } ∧
        disallowance? used token = some refusal := by
  constructor
  · intro refused
    obtain ⟨line, failed⟩ := refused
    rcases compile_eq_error.mp failed with ⟨notes, unstarted⟩ | ⟨after, halted⟩
    · obtain ⟨error, -, impossible⟩ := State.start_eq_error (runFeed_eq_unstarted unstarted)
      cases impossible
    · rcases runFeed_ends (spelled_feedOf source) halted with ⟨used, standing, judged⟩ |
        ⟨jump, -, -, impossible⟩
      · have named : Failure.naming? { cause := .refused refusal line, span := span } = some refusal :=
          Failure.naming?_eq_some.mpr ⟨naming, line, rfl⟩
        obtain ⟨behind, split⟩ := standing.stream fun _ _ drawn => drawn
        have sameSpan : span = after.current.span := judged.span (Option.isSome_of_eq_some named)
        have here : after.current = { token := after.current.token, span := span } := by
          rw [sameSpan]
        refine ⟨used, after.current.token, ⟨after, .ended ?_, here, behind, here ▸ split⟩,
          judged.naming.symm.trans named⟩
        rw [run, halted]
        rfl
      · cases impossible
        cases naming
  · intro reached
    obtain ⟨used, token, ⟨state, moment, here, behind, split⟩, disallowed⟩ := reached
    obtain ⟨front, back, calls, otherSplit, -, judged⟩ := moment.stands
    rw [here] at otherSplit judged
    obtain rfl := used_unique split otherSplit
    obtain ⟨line, halted⟩ := judged refusal disallowed
    exact ⟨line, compile_eq_error.mpr (.inr ⟨state, halted⟩)⟩

theorem refused_iff_reaches_name {source name : String} {refusal : Refusal} {span : Span}
    {forbidden : List Located → Prop} (naming : refusal.code.isNaming = true)
    (disallows : ∀ used token,
      disallowance? used token = some refusal ↔ token = .name name ∧ forbidden used) :
    (∃ line, compile source = .error { cause := .refused refusal line, span := span }) ↔
      ∃ used, Reaches source used { token := .name name, span := span } ∧ forbidden used := by
  rw [refused_iff_reaches naming]
  simp only [disallows]
  constructor
  · intro reached
    obtain ⟨used, token, reaches, named, forbids⟩ := reached
    exact ⟨used, named ▸ reaches, forbids⟩
  · intro reached
    obtain ⟨used, reaches, forbids⟩ := reached
    exact ⟨used, .name name, reaches, rfl, forbids⟩

/-! ## Declarations -/

theorem replay_transcript (calls : List Call) :
    (Sink.replay ({} : Transcript) calls).calls.toList = calls := by
  have onto : ∀ transcript : Transcript,
      (Sink.replay transcript calls).calls.toList = transcript.calls.toList ++ calls := by
    induction calls with
    | nil => simp [Sink.replay]
    | cons call calls ih =>
      intro transcript
      rw [show Sink.replay transcript (call :: calls) =
        Sink.replay (Sink.perform transcript call) calls from rfl, ih, transcript.calls_perform,
        List.append_assoc]
      rfl
  exact onto {}

/-- At every moment the header declares the variables given a value so far, each once and in the order
of their first ones, and these are the variables known; a name in an expression has been declared
before; and a source is refused for a variable, which is what `E200` says, just when a name is reached
where an operand stands and is not among them. -/
theorem declarations_exact (source : String) :
    (∀ state, Moment ({} : Transcript) source state →
      ∃ used behind, streamOf source = used ++ state.current :: behind ∧
        headerLines state.sink.calls.toList =
          CLines.prologue ++ (targets used).map CLines.declaration ∧
        state.declared.size = (targets used).length ∧
        (∀ name, state.declared.contains name = true ↔ name ∈ targets used) ∧
        ∀ before name after, state.sink.calls.toList = before ++ .emit name :: after → Name name →
          .header (CLines.declaration name) ∈ before) ∧
    (∀ failure : Failure, failure.diagnostic.code.number = "E200" ↔
      ∃ name line, failure.cause = .refused (.undefinedVariable name) line) ∧
    ∀ name span,
      (∃ line, compile source =
        .error { cause := .refused (.undefinedVariable name) line, span := span }) ↔
      ∃ used, Reaches source used { token := .name name, span := span } ∧
        precededBy Token.asksOperand used = true ∧ name ∉ targets used := by
  refine ⟨?_, Failure.number_eq_iff (by simp [nameRefusals]), ?_⟩
  · intro state moment
    obtain ⟨used, behind, calls, split, books, -⟩ := moment.stands
    have made : state.sink.calls.toList = calls := by
      rw [books.written]
      exact replay_transcript calls
    rw [made]
    refine ⟨used, behind, split, books.header, ?_, fun name => books.contains_declared, books.emitted⟩
    rw [Variables.size, books.declared, List.length_reverse]
  · intro name span
    exact refused_iff_reaches_name rfl fun _ _ => disallowance?_eq_undefinedVariable

end TeenyBasic
