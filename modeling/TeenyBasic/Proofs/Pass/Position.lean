import TeenyBasic.Proofs.Lexemes
import TeenyBasic.Proofs.Pass.Lockstep
import TeenyBasic.Proofs.Pass.Stopping

/-!
Positions in a feed. A pass sees the tokens of its feed by their numbers (`Place.IsAt`); moving on goes
to the next number until the end of input. Two passes over feeds that agree up to some token do the
same until the first of them is past that token (`Feed.Agree`), so where a pass is refused depends on
the tokens up to the one after the refusal and on nothing else.
-/

set_option autoImplicit false

namespace TeenyBasic

open Grammar Pass

variable {σ τ : Type}

namespace Feed

/-- The end of input as a token, if nothing is wrong before it. -/
def endToken? (feed : Feed) : Option Located :=
  match feed.ending with
  | .endOfInput offset => some { token := .endOfInput, span := { start := offset, stop := offset } }
  | .fault _ => none

/-- The tokens up to the first fault or the end of input. -/
def stream (feed : Feed) : List Located :=
  feed.tokens ++ feed.endToken?.toList

/-- The token that is drawn after `index` others. The end of input can be drawn again and again. -/
def drawn? (feed : Feed) (index : Nat) : Option Located :=
  feed.tokens[index]?.or feed.endToken?

variable {feed after : Feed} {located : Located} {index : Nat}

theorem drawn?_of_lt (inside : index < feed.tokens.length) :
    feed.drawn? index = feed.tokens[index]? := by
  rw [drawn?, List.getElem?_eq_getElem inside, Option.some_or]

theorem drawn?_of_le (outside : feed.tokens.length ≤ index) :
    feed.drawn? index = feed.endToken? := by
  rw [drawn?, List.getElem?_eq_none outside, Option.none_or]

theorem drawn?_eq_stream (bound : index ≤ feed.tokens.length) :
    feed.drawn? index = feed.stream[index]? := by
  rcases Nat.lt_or_eq_of_le bound with inside | rfl
  · rw [drawn?_of_lt inside, stream, List.getElem?_append_left inside]
  · rw [drawn?_of_le (Nat.le_refl _), stream, List.getElem?_append_right (Nat.le_refl _)]
    cases feed.endToken? <;> simp

theorem drawn?_of_stream (found : feed.stream[index]? = some located) :
    feed.drawn? index = some located := by
  refine (drawn?_eq_stream ?_).trans found
  have inside := (List.getElem?_eq_some_iff.mp found).1
  have most : feed.endToken?.toList.length ≤ 1 := by cases feed.endToken? <;> simp
  rw [stream, List.length_append] at inside
  omega

theorem draw_of_drawn? (found : feed.drawn? 0 = some located) :
    feed.draw = .ok (located, { feed with tokens := feed.tokens.drop 1 }) := by
  obtain ⟨tokens, ending⟩ := feed
  unfold drawn? endToken? at found
  unfold draw
  cases tokens with
  | cons first others =>
    cases found
    rfl
  | nil =>
    cases ending with
    | endOfInput offset =>
      cases found
      rfl
    | fault error => cases found

theorem drawn?_of_draw (drew : feed.draw = .ok (located, after)) :
    feed.drawn? 0 = some located ∧ after = { feed with tokens := feed.tokens.drop 1 } := by
  cases found : feed.drawn? 0 with
  | some other =>
    rw [draw_of_drawn? found] at drew
    cases drew
    exact ⟨rfl, rfl⟩
  | none =>
    obtain ⟨tokens, ending⟩ := feed
    cases tokens <;> cases ending <;> simp_all [drawn?, endToken?, draw]

theorem drawn?_drop (count : Nat) :
    drawn? { feed with tokens := feed.tokens.drop count } index = feed.drawn? (count + index) := by
  simp [drawn?, endToken?]

private theorem isSome_endToken? (found : (feed.drawn? index).isSome)
    (outside : feed.tokens.length ≤ index) : feed.endToken?.isSome := by
  rwa [drawn?_of_le outside] at found

theorem token_of_endToken? (found : feed.endToken? = some located) :
    located.token = .endOfInput := by
  unfold endToken? at found
  split at found <;> cases found
  rfl

theorem Faultless.isSome_drawn? (faultless : feed.Faultless) (index : Nat) :
    (feed.drawn? index).isSome := by
  obtain ⟨offset, ending⟩ := faultless
  simp [Feed.drawn?, Feed.endToken?, ending]

private theorem Ordered.pairwise_stream {offset : Nat} (ordered : feed.Ordered offset) :
    feed.stream.Pairwise fun first second => first.span.start < second.span.start := by
  refine List.pairwise_append.mpr ⟨ordered.ascending_start, ?_, ?_⟩
  · cases feed.endToken? <;> simp
  · intro first inside last member
    unfold endToken? at member
    split at member
    · rename_i stop ending
      obtain rfl := List.mem_singleton.mp member
      exact Nat.lt_of_lt_of_le (ordered.nonempty first inside) ((ordered.ending stop ending).2 first inside)
    · cases member

theorem Ordered.index_unique {offset first second : Nat} {left right : Located}
    (ordered : feed.Ordered offset) (foundLeft : feed.stream[first]? = some left)
    (foundRight : feed.stream[second]? = some right) (same : left.span = right.span) :
    first = second := by
  obtain ⟨insideFirst, rfl⟩ := List.getElem?_eq_some_iff.mp foundLeft
  obtain ⟨insideSecond, rfl⟩ := List.getElem?_eq_some_iff.mp foundRight
  have starts := List.pairwise_iff_getElem.mp ordered.pairwise_stream
  rcases Nat.lt_trichotomy first second with before | equal | behind
  · have := starts first second insideFirst insideSecond before
    rw [same] at this
    exact absurd this (Nat.lt_irrefl _)
  · exact equal
  · have := starts second first insideSecond insideFirst behind
    rw [same] at this
    exact absurd this (Nat.lt_irrefl _)

end Feed

/-! ## Places -/

/-- The place is the one after `index` tokens of the whole feed. -/
structure Place.IsAt (place : Place) (whole : Feed) (index : Nat) : Prop where
  bound : index ≤ whole.tokens.length
  current : whole.drawn? index = some place.current
  upcoming : whole.drawn? (index + 1) = some place.upcoming
  feed : place.feed = { whole with tokens := whole.tokens.drop (index + 2) }

namespace Place.IsAt

variable {place next : Place} {whole : Feed} {index : Nat}

theorem of_line (isAt : place.IsAt whole index) (line : Nat) :
    IsAt { place with line := line } whole index :=
  ⟨isAt.bound, isAt.current, isAt.upcoming, isAt.feed⟩

theorem stream (isAt : place.IsAt whole index) : whole.stream[index]? = some place.current := by
  rw [← Feed.drawn?_eq_stream isAt.bound]
  exact isAt.current

theorem getElem?_tokens (isAt : place.IsAt whole index) (notEnd : place.current.token ≠ .endOfInput) :
    whole.tokens[index]? = some place.current := by
  have inside : index < whole.tokens.length := by
    refine Nat.lt_of_not_le fun outside => notEnd ?_
    have current := isAt.current
    rw [Feed.drawn?_of_le outside] at current
    exact Feed.token_of_endToken? current
  rw [← Feed.drawn?_of_lt inside]
  exact isAt.current

theorem drawn?_feed (isAt : place.IsAt whole index) (count : Nat) :
    place.feed.drawn? count = whole.drawn? (index + 2 + count) := by
  rw [isAt.feed, Feed.drawn?_drop]

theorem line_of_move (moved : place.move = .ok next) : next.line = place.line := by
  unfold Place.move at moved
  split at moved <;> cases moved
  rfl

/-- Moving on goes to the next token; at the end of input it stays there. -/
theorem move (isAt : place.IsAt whole index) (moved : place.move = .ok next) :
    next.IsAt whole (min (index + 1) whole.tokens.length) := by
  unfold Place.move at moved
  cases drew : place.feed.draw with
  | error error =>
    rw [drew] at moved
    cases moved
  | ok pair =>
    obtain ⟨drawn, rest⟩ := pair
    rw [drew] at moved
    cases moved
    obtain ⟨found, rfl⟩ := Feed.drawn?_of_draw drew
    rw [isAt.drawn?_feed] at found
    rcases Nat.lt_or_eq_of_le isAt.bound with inside | atEnd
    · rw [Nat.min_eq_left inside]
      exact ⟨inside, isAt.upcoming, found, by simp [isAt.feed, Nat.add_assoc]⟩
    · rw [Nat.min_eq_right (by omega)]
      have same : ∀ count, whole.drawn? (whole.tokens.length + count) = whole.endToken? :=
        fun count => Feed.drawn?_of_le (by omega)
      have upcoming := isAt.upcoming
      rw [atEnd, same] at upcoming
      rw [atEnd, Nat.add_zero, same] at found
      refine ⟨Nat.le_refl _, ?_, ?_, ?_⟩
      · rw [← upcoming]
        exact same 0
      · rw [same]
        exact found
      · simp [isAt.feed, List.drop_eq_nil_of_le, atEnd]

theorem exists_move (isAt : place.IsAt whole index) (more : (whole.drawn? (index + 2)).isSome) :
    ∃ next, place.move = .ok next := by
  obtain ⟨drawn, found⟩ := Option.isSome_iff_exists.mp more
  unfold Place.move
  rw [Feed.draw_of_drawn? ((isAt.drawn?_feed 0).trans found)]
  exact ⟨_, rfl⟩

end Place.IsAt

/-- The state of a pass that has drawn the first two tokens of the feed. -/
def State.initial (sink : σ) (feed : Feed) (first second : Located) : State σ where
  current := first
  upcoming := second
  feed := { feed with tokens := feed.tokens.drop 2 }
  sink := sink
  notes := #[.token first, .token second]

theorem State.start_eq_ok {feed : Feed} {sink : σ} {state : State σ} :
    State.start sink feed = .ok state ↔
      ∃ first second, feed.drawn? 0 = some first ∧ feed.drawn? 1 = some second ∧
        state = State.initial sink feed first second := by
  unfold State.start
  constructor
  · intro started
    split at started
    · cases started
    · rename_i first between drewFirst
      split at started
      · cases started
      · rename_i second after drewSecond
        cases started
        obtain ⟨foundFirst, rfl⟩ := Feed.drawn?_of_draw drewFirst
        obtain ⟨foundSecond, rfl⟩ := Feed.drawn?_of_draw drewSecond
        rw [Feed.drawn?_drop] at foundSecond
        exact ⟨first, second, foundFirst, foundSecond, by simp [State.initial]⟩
  · rintro ⟨first, second, foundFirst, foundSecond, rfl⟩
    rw [Feed.draw_of_drawn? foundFirst]
    dsimp only
    rw [Feed.draw_of_drawn? ((Feed.drawn?_drop 1).trans foundSecond)]
    simp [State.initial]

theorem State.isAt_of_start {feed : Feed} {sink : σ} {state : State σ}
    (started : State.start sink feed = .ok state) : state.place.IsAt feed 0 := by
  obtain ⟨first, second, foundFirst, foundSecond, rfl⟩ := State.start_eq_ok.mp started
  exact ⟨Nat.zero_le _, foundFirst, foundSecond, rfl⟩

/-- A property of places that moving on and going to the next line keep holds wherever a pass stops. -/
theorem Pass.stays_program [Sink σ] {holds : Place → Prop}
    (moves : ∀ {place next}, holds place → place.move = .ok next → holds next)
    (lines : ∀ {place : Place}, holds place → holds { place with line := place.line + 1 }) :
    Stays holds (program : Pass σ Unit) := by
  -- A comparison in which nothing is compared, so that only the way out matters.
  let alone : Pairing σ σ :=
    { places := fun _ _ => False
      parted := holds
      spots := fun _ _ _ => True
      lines := fun _ _ => True
      sinks := fun _ _ => True }
  have uniform : alone.Uniform :=
    { token := False.elim
      spot := fun _ => trivial
      line := fun _ => trivial
      perform := fun _ _ => trivial
      move := False.elim
      nextLine := False.elim
      partedMove := moves
      partedLine := lines }
  exact uniform.program.stays

theorem State.exists_isAt_of_program [Sink σ] {feed : Feed} {sink : σ} {state : State σ}
    (started : State.start sink feed = .ok state) :
    ∃ index, (Pass.stateOf (program state)).place.IsAt feed index := by
  have stays : Stays (fun place => ∃ index, place.IsAt feed index) (program : Pass σ Unit) :=
    Pass.stays_program (fun ⟨_, isAt⟩ moved => ⟨_, isAt.move moved⟩)
      fun ⟨index, isAt⟩ => ⟨index, isAt.of_line _⟩
  exact stays state ⟨0, State.isAt_of_start started⟩

/-! ## Feeds that agree -/

/-- The feeds have the same tokens up to the one numbered `last`, and the second one goes on. -/
structure Feed.Agree (left right : Feed) (last : Nat) : Prop where
  same : ∀ index ≤ last,
    (left.drawn? index).map (·.token) = (right.drawn? index).map (·.token)
  ahead : (right.drawn? (last + 1)).isSome
  leftNotEnd : ∀ located ∈ left.tokens, located.token ≠ .endOfInput
  rightNotEnd : ∀ located ∈ right.tokens, located.token ≠ .endOfInput

theorem Feed.lt_length_iff {feed : Feed} {index : Nat}
    (notEnd : ∀ located ∈ feed.tokens, located.token ≠ .endOfInput) :
    index < feed.tokens.length ↔
      ∃ token, (feed.drawn? index).map (·.token) = some token ∧ token ≠ .endOfInput := by
  constructor
  · intro inside
    rw [drawn?_of_lt inside, List.getElem?_eq_getElem inside]
    exact ⟨_, rfl, notEnd _ (List.getElem_mem inside)⟩
  · rintro ⟨token, found, notLast⟩
    refine Nat.lt_of_not_le fun outside => notLast ?_
    rw [drawn?_of_le outside] at found
    obtain ⟨located, atEnd, rfl⟩ := Option.map_eq_some_iff.mp found
    exact token_of_endToken? atEnd

/-- What belongs together in passes over two feeds up to the token numbered `last`. -/
def Pairing.upTo (left right : Feed) (last : Nat) (sinks : σ → τ → Prop) : Pairing σ τ where
  places first second := first.line = second.line ∧
    ∃ index, index ≤ last ∧ first.IsAt left index ∧ second.IsAt right index
  parted place := ∃ index, last < index ∧ place.IsAt left index
  spots token first second := ∃ index, index ≤ last ∧
    left.stream[index]? = some { token := token, span := first } ∧
    right.stream[index]? = some { token := token, span := second }
  lines := Eq
  sinks := sinks

namespace Feed.Agree

variable {left right : Feed} {last : Nat} (agree : left.Agree right last)

include agree

private theorem lt_length (index : Nat) (within : index ≤ last) :
    index < left.tokens.length ↔ index < right.tokens.length := by
  rw [lt_length_iff agree.leftNotEnd, lt_length_iff agree.rightNotEnd, agree.same index within]

theorem isSome_drawn? {index : Nat} (within : index ≤ last + 1)
    (found : (left.drawn? index).isSome) : (right.drawn? index).isSome := by
  rcases Nat.lt_or_eq_of_le within with inside | rfl
  · have same := congrArg Option.isSome (agree.same index (by omega))
    simpa [found] using same.symm
  · exact agree.ahead

private theorem moves {first second : Place} {index : Nat} {sinks : σ → τ → Prop}
    (sameLine : first.line = second.line) (within : index ≤ last) (isAt : first.IsAt left index)
    (alongside : second.IsAt right index) : (Pairing.upTo left right last sinks).Moves first second := by
  cases moved : first.move with
  | error error => exact .faulty moved
  | ok next =>
    have isNext := isAt.move moved
    by_cases beyond : last < min (index + 1) left.tokens.length
    · exact .parted moved ⟨_, beyond, isNext⟩
    · have bounds := agree.lt_length index within
      have leftBound := isAt.bound
      have rightBound := alongside.bound
      have samePosition :
          min (index + 1) left.tokens.length = min (index + 1) right.tokens.length := by omega
      have more : (right.drawn? (index + 2)).isSome := by
        by_cases inside : index < left.tokens.length
        · have upcoming := isNext.upcoming
          rw [Nat.min_eq_left inside] at upcoming
          exact agree.isSome_drawn? (by omega) (Option.isSome_of_eq_some upcoming)
        · have atEnd := Feed.isSome_endToken? (Option.isSome_of_eq_some alongside.current) (by omega)
          rwa [Feed.drawn?_of_le (by omega)]
      obtain ⟨other, otherMoved⟩ := alongside.exists_move more
      have otherNext := alongside.move otherMoved
      rw [← samePosition] at otherNext
      refine .together moved otherMoved ⟨?_, _, Nat.le_of_not_lt beyond, isNext, otherNext⟩
      exact (Place.IsAt.line_of_move moved).trans (sameLine.trans (Place.IsAt.line_of_move otherMoved).symm)

variable [Sink σ] [Sink τ] {sinks : σ → τ → Prop}
  (perform : ∀ {first second} (call : Call), sinks first second →
    sinks (Sink.perform first call) (Sink.perform second call))

include perform

private theorem uniform : (Pairing.upTo left right last sinks).Uniform where
  token := by
    rintro first second ⟨-, index, within, isAt, alongside⟩
    have same := agree.same index within
    rw [isAt.current, alongside.current] at same
    exact Option.some.inj same
  spot := by
    rintro first second ⟨-, index, within, isAt, alongside⟩
    have same := agree.same index within
    rw [isAt.current, alongside.current] at same
    have sameToken : first.current.token = second.current.token := Option.some.inj same
    refine ⟨index, within, isAt.stream, ?_⟩
    rw [sameToken]
    exact alongside.stream
  line := fun places => places.1
  perform := perform
  move := by
    rintro first second ⟨sameLine, index, within, isAt, alongside⟩
    exact agree.moves sameLine within isAt alongside
  nextLine := by
    rintro first second ⟨sameLine, index, within, isAt, alongside⟩
    exact ⟨congrArg (· + 1) sameLine, index, within, isAt.of_line _, alongside.of_line _⟩
  partedMove := by
    rintro place next ⟨index, beyond, isAt⟩ moved
    have bound := isAt.bound
    exact ⟨_, by omega, isAt.move moved⟩
  partedLine := by
    rintro place ⟨index, beyond, isAt⟩
    exact ⟨index, beyond, isAt.of_line _⟩

theorem outcomes {leftSink : σ} {rightSink : τ} (related : sinks leftSink rightSink)
    {state : State σ} (started : State.start leftSink left = .ok state) :
    ∃ other, State.start rightSink right = .ok other ∧
      (Pairing.upTo left right last sinks).Outcomes (program state) (program other) := by
  obtain ⟨first, second, foundFirst, foundSecond, rfl⟩ := State.start_eq_ok.mp started
  obtain ⟨otherFirst, otherFoundFirst⟩ := Option.isSome_iff_exists.mp
    (agree.isSome_drawn? (Nat.zero_le _) (Option.isSome_of_eq_some foundFirst))
  obtain ⟨otherSecond, otherFoundSecond⟩ := Option.isSome_iff_exists.mp
    (agree.isSome_drawn? (Nat.le_add_left 1 last) (Option.isSome_of_eq_some foundSecond))
  have otherStarted : State.start rightSink right = .ok (.initial rightSink right _ _) :=
    State.start_eq_ok.mpr ⟨otherFirst, otherSecond, otherFoundFirst, otherFoundSecond, rfl⟩
  refine ⟨_, otherStarted, (agree.uniform perform).program.outcomes _ _ ?_ trivial⟩
  exact
    { place := ⟨rfl, 0, Nat.zero_le _, State.isAt_of_start started, State.isAt_of_start otherStarted⟩
      sink := related
      declared := rfl
      labels := rfl
      jumps := .nil
      blocks := rfl }

end Feed.Agree

/-! ## Refusals -/

/-- The run over the feed ends in a refusal of the token numbered `index`. -/
structure Refuses [Sink σ] (sink : σ) (feed : Feed) (index : Nat) (failure : Failure)
    (after : State σ) : Prop where
  halted : runFeed sink feed = .halted failure after
  refused : ∃ refusal line, failure.cause = .refused refusal line
  isAt : after.place.IsAt feed index
  span : failure.span = after.current.span

theorem runFeed_eq_halted [Sink σ] {sink : σ} {feed : Feed} {failure : Failure} {after : State σ} :
    runFeed sink feed = .halted failure after ↔
      ∃ state, State.start sink feed = .ok state ∧ program state = .error failure after := by
  unfold runFeed
  cases State.start sink feed with
  | error failed => simp
  | ok state =>
    cases ran : program state with
    | ok result final => simp [ran]
    | error failure final => simp [ran]

/-- A refusal depends on the tokens up to the one after it only. -/
theorem Refuses.of_agree [Sink σ] [Sink τ] {left right : Feed} {index last offset : Nat}
    {leftSink : σ} {rightSink : τ} {failure : Failure} {after : State σ}
    (refuses : Refuses leftSink left index failure after) (ordered : left.Ordered offset)
    (agree : left.Agree right last) (within : index ≤ last) (sinks : σ → τ → Prop)
    (perform : ∀ {first second} (call : Call), sinks first second →
      sinks (Sink.perform first call) (Sink.perform second call))
    (related : sinks leftSink rightSink) :
    ∃ there stopped, Refuses rightSink right index there stopped ∧ there.cause = failure.cause ∧
      sinks after.sink stopped.sink := by
  obtain ⟨state, started, failed⟩ := runFeed_eq_halted.mp refuses.halted
  obtain ⟨other, otherStarted, outcomes⟩ := agree.outcomes perform related started
  obtain ⟨refusal, line, cause⟩ := refuses.refused
  have unique : ∀ {number : Nat} {located : Located}, left.stream[number]? = some located →
      located.span = failure.span → number = index := by
    intro number located found same
    exact ordered.index_unique found refuses.isAt.stream (same.trans refuses.span)
  rw [failed] at outcomes
  generalize ran : program other = result at outcomes
  cases outcomes with
  | @refused refusal leftLine rightLine token leftSpan rightSpan _ stopped abreast lines spots =>
    obtain ⟨-, number, -, isAt, alongside⟩ := abreast.place
    obtain rfl := unique isAt.stream refuses.span.symm
    obtain ⟨spot, -, leftFound, rightFound⟩ := spots
    obtain rfl := unique leftFound rfl
    have sameToken := Option.some.inj (rightFound.symm.trans alongside.stream)
    refine ⟨_, stopped, ⟨runFeed_eq_halted.mpr ⟨other, otherStarted, ran⟩, ⟨_, _, rfl⟩, alongside, ?_⟩,
      ?_, abreast.sink⟩
    · exact congrArg Located.span sameToken
    · rw [show leftLine = rightLine from lines]
  | faulty => cases cause
  | parted gone =>
    obtain ⟨number, beyond, isAt⟩ := gone
    obtain rfl := unique isAt.stream refuses.span.symm
    exact absurd within (Nat.not_le_of_lt beyond)

end TeenyBasic
