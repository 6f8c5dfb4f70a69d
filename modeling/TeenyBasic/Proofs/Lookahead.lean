import TeenyBasic.Proofs.Acceptance
import TeenyBasic.Proofs.Pass.Position

/-!
Faults and refusals. A source can fail in three ways (`Fails`): at a fault inside a token, at a token
that is refused, or at a jump that leads nowhere. The pass looks one token ahead, so a fault comes
before a refusal of the token right before it and after every earlier one
(`lookahead_faults_and_refusals`).
-/

set_option autoImplicit false

namespace TeenyBasic

open Grammar Pass

/-- The tokens of a source up to its first fault or the end of input. -/
def streamOf (source : String) : List Located :=
  (feedOf source).stream

/-- The calls that a run over the source makes on its sink. -/
def transcript (source : String) : List Call :=
  match (run ({} : Transcript) source).state? with
  | some state => state.sink.calls.toList
  | none => []

theorem LexicalFault.isLexical_code (fault : LexicalFault) : fault.code.isLexical = true := by
  cases fault <;> rfl

theorem Refusal.isLexical_code (refusal : Refusal) : refusal.code.isLexical = false := by
  cases refusal <;> rfl

/-! ## Ways to fail -/

theorem State.start_eq_error {σ : Type} {sink : σ} {feed : Feed} {failure : Failure}
    {notes : Array Note} (failed : State.start sink feed = .error (failure, notes)) :
    ∃ error, feed.ending = .fault error ∧ failure = error.failure := by
  unfold State.start at failed
  split at failed
  · rename_i error stuck
    cases failed
    exact ⟨error, Feed.draw_eq_error stuck, rfl⟩
  · rename_i first between drewFirst
    split at failed
    · rename_i error stuck
      cases failed
      obtain ⟨-, rfl⟩ := Feed.drawn?_of_draw drewFirst
      have ending := Feed.draw_eq_error stuck
      exact ⟨error, ending, rfl⟩
    · cases failed

theorem runFeed_eq_unstarted {σ : Type} [Sink σ] {sink : σ} {feed : Feed} {failure : Failure}
    {notes : Array Note} (unstarted : runFeed sink feed = .unstarted failure notes) :
    State.start sink feed = .error (failure, notes) := by
  unfold runFeed at unstarted
  split at unstarted
  · rename_i found started
    cases unstarted
    exact started
  · split at unstarted <;> cases unstarted

theorem compile_eq_error {source : String} {failure : Failure} :
    compile source = .error failure ↔
      (∃ notes, runFeed ({} : Emitter) (feedOf source) = .unstarted failure notes) ∨
      ∃ after, runFeed ({} : Emitter) (feedOf source) = .halted failure after := by
  unfold compile emission run
  cases runFeed ({} : Emitter) (feedOf source) <;> simp [Run.outcome, Except.map]

/-- The ways in which a source fails. -/
inductive Fails (source : String) : Failure → Prop where
  /-- Some token cannot be read. -/
  | faulty {error : LexicalError} : (feedOf source).ending = .fault error →
      Fails source error.failure
  /-- A token is refused; what stands before it could start a program. -/
  | refused {index : Nat} {failure : Failure} {state after : State Emitter} :
      Refuses {} (feedOf source) index failure after →
      State.start {} (feedOf source) = .ok state →
      Halts programWords state (feedOf source).tokens failure after → Fails source failure
  /-- The source is a program, and a jump leads nowhere. -/
  | unresolved {tree : Grammar.Program} {after : State Emitter} {jump : Jump} :
      (feedOf source).Faultless →
      tree.Derives ((feedOf source).tokens.map (·.token) ++ [.endOfInput]) →
      runFeed ({} : Emitter) (feedOf source) = .halted
        { cause := .refused (.undefinedLabel jump.label) jump.line, span := jump.span } after →
      jump ∈ after.labels.jumps →
      Fails source { cause := .refused (.undefinedLabel jump.label) jump.line, span := jump.span }

theorem fails_of_compile {source : String} {failure : Failure}
    (failed : compile source = .error failure) : Fails source failure := by
  rcases compile_eq_error.mp failed with ⟨notes, unstarted⟩ | ⟨after, halted⟩
  · obtain ⟨error, ending, rfl⟩ := State.start_eq_error (runFeed_eq_unstarted unstarted)
    exact .faulty ending
  · obtain ⟨state, started, ran⟩ := runFeed_eq_halted.mp halted
    obtain ⟨faces, -, closed, ending⟩ :=
      State.faces_of_start (token_ne_endOfInput_of_mem_feedOf source) started
    obtain ⟨index, isAt⟩ := State.exists_isAt_of_program started
    rw [ran] at isAt
    rcases program_halts faces closed ran with halts | ⟨⟨offset, faultless⟩, tree, derives, jump, member, rfl⟩
    · obtain ⟨used, rest, done, split, facesRest, account, sameEnding, stuck⟩ := id halts
      cases stuck with
      | faulty fault => exact .faulty (ending.symm.trans (sameEnding.symm.trans fault))
      | misplaced => exact .refused ⟨halted, ⟨_, _, rfl⟩, isAt, rfl⟩ started halts
      | disallowed => exact .refused ⟨halted, ⟨_, _, rfl⟩, isAt, rfl⟩ started halts
    · exact .unresolved ⟨offset, ending.symm.trans faultless⟩ derives halted member

/-! ## Refusals depend on what has been seen -/

theorem exists_of_take {left right : Feed} {count number : Nat} {here : Located}
    (same : (left.stream.map (·.token)).take count = (right.stream.map (·.token)).take count)
    (within : number < count) (found : left.stream[number]? = some here) :
    ∃ there, right.stream[number]? = some there ∧ there.token = here.token := by
  have same := congrArg (·[number]?) same
  simp only [List.getElem?_take, within, if_true, List.getElem?_map, found] at same
  exact Option.map_eq_some_iff.mp same.symm

theorem agree_of_ahead {left right : Feed} {index : Nat}
    (leftNotEnd : ∀ located ∈ left.tokens, located.token ≠ .endOfInput)
    (rightNotEnd : ∀ located ∈ right.tokens, located.token ≠ .endOfInput)
    (inside : index < left.stream.length)
    (same : (left.stream.map (·.token)).take (index + 1) =
      (right.stream.map (·.token)).take (index + 1))
    (ahead : (right.drawn? (index + 1)).isSome) : left.Agree right index := by
  refine ⟨fun number within => ?_, ahead, leftNotEnd, rightNotEnd⟩
  have found := List.getElem?_eq_getElem (Nat.lt_of_le_of_lt within inside)
  obtain ⟨there, foundThere, sameToken⟩ := exists_of_take same (by omega) found
  rw [Feed.drawn?_of_stream found, Feed.drawn?_of_stream foundThere]
  exact congrArg some sameToken.symm

theorem agree_of_take {left right : Feed} {place : Place} {index : Nat}
    (leftNotEnd : ∀ located ∈ left.tokens, located.token ≠ .endOfInput)
    (rightNotEnd : ∀ located ∈ right.tokens, located.token ≠ .endOfInput)
    (isAt : place.IsAt left index)
    (same : (left.stream.map (·.token)).take (index + 2) =
      (right.stream.map (·.token)).take (index + 2)) : left.Agree right index := by
  have ahead : (right.drawn? (index + 1)).isSome := by
    cases found : left.stream[index + 1]? with
    | some here =>
      obtain ⟨there, foundThere, -⟩ := exists_of_take same (by omega) found
      exact Option.isSome_of_eq_some (Feed.drawn?_of_stream foundThere)
    | none =>
      have atEnd : left.tokens.length ≤ index := by
        refine Nat.le_of_not_lt fun inside => ?_
        have upcoming := isAt.upcoming
        rw [Feed.drawn?_eq_stream inside, found] at upcoming
        cases upcoming
      have isEnd : place.current.token = .endOfInput :=
        Feed.token_of_endToken? ((Feed.drawn?_of_le atEnd).symm.trans isAt.current)
      obtain ⟨there, foundThere, sameToken⟩ := exists_of_take same (by omega) isAt.stream
      have drawn := Feed.drawn?_of_stream foundThere
      have outside : right.tokens.length ≤ index := by
        refine Nat.le_of_not_lt fun inside => ?_
        obtain ⟨token, found, notEnd⟩ := (Feed.lt_length_iff rightNotEnd).mp inside
        rw [drawn] at found
        cases found
        exact notEnd (sameToken.trans isEnd)
      rw [Feed.drawn?_of_le (Nat.le_succ_of_le outside), ← Feed.drawn?_of_le outside]
      exact Option.isSome_of_eq_some drawn
  have shorter := congrArg (List.take (index + 1)) same
  rw [List.take_take, List.take_take, Nat.min_eq_left (by omega)] at shorter
  exact agree_of_ahead leftNotEnd rightNotEnd (List.getElem?_eq_some_iff.mp isAt.stream).1 shorter ahead

/-- The source is refused, and the refusal points at its token numbered `index`. -/
def RefusedAt (source : String) (index : Nat) (failure : Failure) : Prop :=
  compile source = .error failure ∧
    ∃ here, (streamOf source)[index]? = some here ∧ failure.span = here.span

theorem Refuses.refusedAt {source : String} {index : Nat} {failure : Failure}
    {after : State Emitter} (refuses : Refuses {} (feedOf source) index failure after) :
    RefusedAt source index failure :=
  ⟨compile_eq_error.mpr (.inr ⟨after, refuses.halted⟩), after.current, refuses.isAt.stream,
    refuses.span⟩

private theorem Refuses.transcript_eq {source : String} {index : Nat} {failure : Failure}
    {after : State Transcript} (refuses : Refuses {} (feedOf source) index failure after) :
    transcript source = after.sink.calls.toList := by
  rw [transcript, run, refuses.halted]
  rfl

/-- Whether a failure is a refusal of a token, not a fault and not a jump that leads nowhere. -/
def Failure.isRefusal (failure : Failure) : Bool :=
  !failure.cause.code.isLexical && failure.cause.code != .undefinedLabel

/-- A refusal of a token comes from a pass that stands at the token. -/
theorem RefusedAt.exists_refuses {source : String} {index : Nat} {failure : Failure}
    (refusedAt : RefusedAt source index failure) (isRefusal : failure.isRefusal = true) :
    ∃ after, Refuses ({} : Emitter) (feedOf source) index failure after := by
  obtain ⟨failed, here, found, span⟩ := refusedAt
  cases fails_of_compile failed with
  | @faulty error =>
    have isLexical : error.failure.cause.code.isLexical = true := error.fault.isLexical_code
    simp [Failure.isRefusal, isLexical] at isRefusal
  | unresolved => cases isRefusal
  | @refused number _ _ after refuses =>
    have sameIndex : index = number :=
      (ordered_feedOf source).index_unique found refuses.isAt.stream (span.symm.trans refuses.span)
    exact ⟨after, sameIndex ▸ refuses⟩

theorem Fails.isRefusal {source : String} {failure : Failure} {index : Nat}
    {state after : State Emitter} (refuses : Refuses {} (feedOf source) index failure after)
    (halts : Halts programWords state (feedOf source).tokens failure after) :
    failure.isRefusal = true := by
  obtain ⟨refusal, line, cause⟩ := refuses.refused
  obtain ⟨used, rest, done, -, -, -, -, stuck⟩ := halts
  cases stuck with
  | faulty => cases cause
  | @misplaced refusal _ _ _ _ syntactic =>
    cases refusal <;> first | rfl | cases syntactic
  | @disallowed refusal _ _ _ _ naming =>
    cases refusal <;> first | rfl | cases naming

private theorem agree_self {source : String} {place : Place} {index : Nat}
    (isAt : place.IsAt (feedOf source) index) : (feedOf source).Agree (feedOf source) index :=
  agree_of_take (token_ne_endOfInput_of_mem_feedOf source) (token_ne_endOfInput_of_mem_feedOf source)
    isAt rfl

/-- Sources that agree up to the token after a refusal are refused alike. -/
theorem refusedAt_of_take {source other : String} {index : Nat} {failure : Failure}
    (refusedAt : RefusedAt source index failure) (isRefusal : failure.isRefusal = true)
    (same : ((streamOf source).map (·.token)).take (index + 2) =
      ((streamOf other).map (·.token)).take (index + 2)) :
    transcript other = transcript source ∧
      ∃ there, RefusedAt other index there ∧ there.cause = failure.cause := by
  obtain ⟨after, refuses⟩ := refusedAt.exists_refuses isRefusal
  have ordered := ordered_feedOf source
  have agree : (feedOf source).Agree (feedOf other) index :=
    agree_of_take (token_ne_endOfInput_of_mem_feedOf source)
      (token_ne_endOfInput_of_mem_feedOf other) refuses.isAt same
  obtain ⟨_, _, recorded, -, -⟩ := refuses.of_agree ordered (agree_self refuses.isAt)
    (Nat.le_refl _) (fun (_ : Emitter) (_ : Transcript) => True) (fun _ _ => trivial) trivial
  obtain ⟨_, _, recordedThere, -, sameSink⟩ := recorded.of_agree ordered agree (Nat.le_refl _)
    Eq (fun call same => same ▸ rfl) rfl
  obtain ⟨there, _, refusesThere, sameCause, -⟩ := refuses.of_agree ordered agree (Nat.le_refl _)
    (fun _ (_ : Emitter) => True) (fun _ _ => trivial) trivial
  refine ⟨?_, there, refusesThere.refusedAt, sameCause⟩
  rw [recorded.transcript_eq, recordedThere.transcript_eq, sameSink]

/-! ## Faults and refusals -/

/-- Kind and text of a token; they determine it. -/
def Token.kindAndText (token : Token) : Kind × String :=
  (token.kind, token.text)

/-- Kinds and texts of the tokens of a source up to its first fault or the end of input. -/
def kindsAndTexts (source : String) : List (Kind × String) :=
  (streamOf source).map (·.token.kindAndText)

theorem map_kindAndText_inj {first second : List Token} :
    first.map Token.kindAndText = second.map Token.kindAndText ↔ first = second := by
  refine List.map_inj_right fun left right same => ?_
  exact Token.eq_of_kind_of_text (congrArg Prod.fst same) (congrArg Prod.snd same)

theorem take_kindsAndTexts {source other : String} {count : Nat} :
    (kindsAndTexts source).take count = (kindsAndTexts other).take count ↔
      ((streamOf source).map (·.token)).take count = ((streamOf other).map (·.token)).take count := by
  rw [← map_kindAndText_inj]
  simp [kindsAndTexts, List.map_take, List.map_map, Function.comp_def]

theorem tokenize_eq_error {source : String} {error : LexicalError} :
    tokenize source = .error error ↔ (feedOf source).ending = .fault error := by
  unfold tokenize Feed.toList
  cases (feedOf source).ending <;> simp

theorem streamOf_of_tokenize {source : String} {tokens : List Located}
    (tokenized : tokenize source = .ok tokens) :
    (feedOf source).Faultless ∧ tokens = streamOf source := by
  obtain ⟨offset, ending, rfl⟩ := tokenize_eq_ok.mp tokenized
  exact ⟨⟨offset, ending⟩, by simp [streamOf, Feed.stream, Feed.endToken?, ending]⟩

theorem streamOf_of_fault {source : String} {error : LexicalError}
    (fault : (feedOf source).ending = .fault error) : streamOf source = (feedOf source).tokens := by
  simp [streamOf, Feed.stream, Feed.endToken?, fault]

private theorem exists_failure_of_fault {source : String} {error : LexicalError}
    (fault : (feedOf source).ending = .fault error) :
    ∃ failure, compile source = .error failure := by
  cases compiled : compile source with
  | error failure => exact ⟨failure, rfl⟩
  | ok text =>
    obtain ⟨after, completed, -⟩ := compile_eq_ok.mp compiled
    obtain ⟨tokens, tokenized, -⟩ := run_completed_iff.mp ⟨after, completed, rfl⟩
    rw [tokenize_eq_error.mpr fault] at tokenized
    cases tokenized

/-- A token is refused that is followed by another one, all before the first fault. -/
def RefusedEarly (source : String) (failure : Failure) : Prop :=
  failure.isRefusal = true ∧
    ∃ index, index + 2 ≤ (streamOf source).length ∧ RefusedAt source index failure

private theorem refusedEarly_or_eq_fault {source : String} {error : LexicalError} {failure : Failure}
    (fault : (feedOf source).ending = .fault error) (failed : compile source = .error failure) :
    failure = error.failure ∨ RefusedEarly source failure := by
  cases fails_of_compile failed with
  | faulty other =>
    rw [fault] at other
    cases other
    exact .inl rfl
  | unresolved faultless =>
    obtain ⟨offset, ending⟩ := faultless
    rw [fault] at ending
    cases ending
  | @refused index _ _ _ refuses _ halts =>
    refine .inr ⟨Fails.isRefusal refuses halts, index, ?_, refuses.refusedAt⟩
    rw [streamOf_of_fault fault]
    refine Nat.lt_of_not_le fun outside => ?_
    have upcoming := refuses.isAt.upcoming
    rw [Feed.drawn?_of_le outside, Feed.endToken?, fault] at upcoming
    cases upcoming

theorem readable_of_mem_feedOf {source : String} {token : Token}
    (member : token ∈ (feedOf source).tokens.map (·.token)) : token.Readable := by
  refine ⟨spelled_of_mem_tokens source member, ?_⟩
  obtain ⟨located, inside, rfl⟩ := List.mem_map.mp member
  exact token_ne_endOfInput_of_mem_feedOf source located inside

/-- What can be read of a source is the start of some source that is no program and has no fault. -/
theorem exists_other_with_else {source : String} {error : LexicalError}
    (fault : (feedOf source).ending = .fault error) :
    ∃ other, (∃ tokens, tokenize other = .ok tokens) ∧
      .keyword .else_ ∈ (feedOf other).tokens.map (·.token) ∧
      (kindsAndTexts other).take (streamOf source).length = kindsAndTexts source := by
  let tokens := (feedOf source).tokens.map (·.token) ++ [.keyword .else_, .newline]
  have readable : ∀ token ∈ tokens, token.Readable := by
    refine List.forall_mem_append.mpr ⟨fun _ => readable_of_mem_feedOf, ?_⟩
    simp [Token.readable_keyword, Token.readable_newline]
  obtain ⟨other, offset, sameTokens, ending⟩ := exists_feedOf readable (by simp [tokens])
  refine ⟨other, ⟨_, tokenize_eq_ok.mpr ⟨offset, ending, rfl⟩⟩, ?_, ?_⟩
  · rw [sameTokens]
    simp [tokens]
  · have same : (kindsAndTexts other).take (streamOf source).length =
        (kindsAndTexts source).take (streamOf source).length := by
      rw [take_kindsAndTexts, streamOf_of_fault fault, streamOf, Feed.stream, List.map_append,
        sameTokens]
      simp [tokens, List.take_of_length_le]
    rw [same]
    exact List.take_of_length_le (by simp [kindsAndTexts])

private theorem isRefusal_of_else {source : String} {failure : Failure} {tokens : List Located}
    (tokenized : tokenize source = .ok tokens)
    (hasElse : .keyword .else_ ∈ (feedOf source).tokens.map (·.token))
    (failed : compile source = .error failure) : failure.isRefusal = true := by
  cases fails_of_compile failed with
  | faulty fault =>
    rw [tokenize_eq_error.mpr fault] at tokenized
    cases tokenized
  | refused refuses _ halts => exact Fails.isRefusal refuses halts
  | unresolved _ derives =>
    exact absurd (List.mem_append_left _ hasElse) derives.else_notMem

/-- The pass finds the same fault as reading all tokens first, unless a token that is followed by
another one is refused before. Whether that happens depends on the tokens before the fault only: it
does just when every way to go on without a fault is refused there. And a refusal depends on nothing
behind the token after it. -/
theorem lookahead_faults_and_refusals (source : String) :
    (∀ error, tokenize source = .error error →
      ∃ failure, compile source = .error failure ∧
        (failure = error.failure ∨ RefusedEarly source failure) ∧
        (RefusedEarly source failure ↔
          ∀ other, (∃ tokens, tokenize other = .ok tokens) →
            (kindsAndTexts other).take (streamOf source).length = kindsAndTexts source →
            ∃ index there, index + 2 ≤ (streamOf source).length ∧ RefusedAt other index there)) ∧
    (∀ failure, compile source = .error failure → failure.cause.code.isLexical = true →
      ∃ error, tokenize source = .error error ∧ failure = error.failure) ∧
    ∀ index failure, RefusedAt source index failure → failure.isRefusal = true →
      ∀ other, (kindsAndTexts source).take (index + 2) = (kindsAndTexts other).take (index + 2) →
        transcript other = transcript source ∧
          ∃ there, RefusedAt other index there ∧
            there.diagnostic.code = failure.diagnostic.code ∧
            there.diagnostic.message = failure.diagnostic.message ∧
            there.diagnostic.hint = failure.diagnostic.hint := by
  refine ⟨fun error tokenized => ?_, fun failure failed isLexical => ?_,
    fun index failure refusedAt isRefusal other same => ?_⟩
  · have fault := tokenize_eq_error.mp tokenized
    obtain ⟨failure, failed⟩ := exists_failure_of_fault fault
    refine ⟨failure, failed, refusedEarly_or_eq_fault fault failed, ?_, ?_⟩
    · rintro ⟨isRefusal, index, early, refusedAt⟩ other - same
      have prefixes : (kindsAndTexts source).take (index + 2) =
          (kindsAndTexts other).take (index + 2) := by
        rw [← same, List.take_take, Nat.min_eq_left early]
      obtain ⟨-, there, refusedThere, -⟩ :=
        refusedAt_of_take refusedAt isRefusal (take_kindsAndTexts.mp prefixes)
      exact ⟨index, there, early, refusedThere⟩
    · intro always
      obtain ⟨other, ⟨tokens, tokenizedOther⟩, hasElse, same⟩ := exists_other_with_else fault
      obtain ⟨index, there, early, refusedThere⟩ := always other ⟨tokens, tokenizedOther⟩ same
      have isRefusal := isRefusal_of_else tokenizedOther hasElse refusedThere.1
      have prefixes : (kindsAndTexts other).take (index + 2) =
          (kindsAndTexts source).take (index + 2) := by
        rw [← same, List.take_take, Nat.min_eq_left early]
      obtain ⟨-, here, refusedHere, sameCause⟩ :=
        refusedAt_of_take refusedThere isRefusal (take_kindsAndTexts.mp prefixes)
      obtain rfl : here = failure := Except.error.inj (refusedHere.1.symm.trans failed)
      refine ⟨?_, index, early, refusedHere⟩
      rwa [Failure.isRefusal, sameCause]
  · cases fails_of_compile failed with
    | faulty fault => exact ⟨_, tokenize_eq_error.mpr fault, rfl⟩
    | refused refuses =>
      obtain ⟨refusal, line, cause⟩ := refuses.refused
      rw [cause, Cause.code, refusal.isLexical_code] at isLexical
      cases isLexical
    | unresolved => cases isLexical
  · obtain ⟨sameCalls, there, refusedThere, sameCause⟩ :=
      refusedAt_of_take refusedAt isRefusal (take_kindsAndTexts.mp same)
    refine ⟨sameCalls, there, refusedThere, ?_⟩
    simp only [Failure.diagnostic, sameCause, and_self]

end TeenyBasic
