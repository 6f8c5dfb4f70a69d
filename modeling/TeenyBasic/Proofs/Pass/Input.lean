import TeenyBasic.Pass.Progress
import TeenyBasic.Proofs.Pass.Account

/-!
The input and the books of a pass. `State.Faces` says which tokens lie ahead of a state, however they
are spread over the two drawn tokens and the feed; moving on takes the first of them away and changes
nothing else.
-/

set_option autoImplicit false

namespace TeenyBasic

open Grammar

variable {σ : Type}

/-- The feed ends in the end of the input and not in a fault. -/
def Feed.Faultless (feed : Feed) : Prop :=
  ∃ offset, feed.ending = .endOfInput offset

/-- A draw takes the first token away, or gives the end of input and changes nothing. -/
theorem Feed.draw_cases {feed after : Feed} {located : Located}
    (drew : feed.draw = .ok (located, after)) :
    (feed.tokens = located :: after.tokens ∧ after.ending = feed.ending) ∨
      (feed.tokens = [] ∧ after = feed ∧ feed.Faultless ∧ located.token = .endOfInput) := by
  unfold Feed.draw at drew
  split at drew
  · rename_i tokens
    cases drew
    exact .inl ⟨tokens, rfl⟩
  · rename_i tokens
    split at drew
    · rename_i offset ending
      cases drew
      exact .inr ⟨tokens, rfl, ⟨offset, ending⟩, rfl⟩
    · cases drew

theorem Feed.draw_eq_error {feed : Feed} {error : LexicalError} (stuck : feed.draw = .error error) :
    feed.ending = .fault error := by
  unfold Feed.draw at stuck
  split at stuck
  · cases stuck
  · split at stuck
    · cases stuck
    · rename_i ending
      cases stuck
      exact ending

theorem Feed.Faultless.exists_draw {feed : Feed} (faultless : feed.Faultless) :
    ∃ located after, feed.draw = .ok (located, after) ∧ after.Faultless := by
  obtain ⟨offset, ending⟩ := faultless
  unfold Feed.draw
  cases feed.tokens with
  | nil => rw [ending]; exact ⟨_, _, rfl, offset, ending⟩
  | cons located others => exact ⟨located, _, rfl, offset, ending⟩

namespace State

/-- The tokens ahead of a state, without the end of input. -/
inductive Faces (state : State σ) : List Located → Prop where
  | none : state.current.token = .endOfInput → state.upcoming.token = .endOfInput →
      state.feed.tokens = [] → state.feed.Faultless → Faces state []
  | one : state.current.token ≠ .endOfInput → state.upcoming.token = .endOfInput →
      state.feed.tokens = [] → state.feed.Faultless → Faces state [state.current]
  | more : state.current.token ≠ .endOfInput → state.upcoming.token ≠ .endOfInput →
      (∀ located ∈ state.feed.tokens, located.token ≠ .endOfInput) →
      Faces state (state.current :: state.upcoming :: state.feed.tokens)

def account (state : State σ) : Account σ where
  sink := state.sink
  declared := state.declared
  labels := state.labels.names
  jumps := state.labels.jumps.map (·.label)

/-- Every account is that of some state. -/
theorem exists_account (account : Account σ) : ∃ state : State σ, state.account = account := by
  let located : Located := { token := .endOfInput, span := { start := 0, stop := 0 } }
  let jumps := account.jumps.map fun label => Jump.mk label located.span 1
  let state : State σ :=
    { current := located
      upcoming := located
      feed := { tokens := [], ending := .endOfInput 0 }
      sink := account.sink
      declared := account.declared
      labels := { names := account.labels, jumps := jumps } }
  have labels : jumps.map (·.label) = account.jumps :=
    List.map_map.trans (List.map_id account.jumps)
  exact ⟨state, by simp [State.account, state, labels]⟩

/-- Between the two states the actions have been performed, inside the same blocks. -/
structure Performs [Sink σ] (state : State σ) (actions : List Action) (after : State σ) : Prop where
  account : state.account.performAll actions = .ok after.account
  blocks : after.openBlocks = state.openBlocks
  ending : after.feed.ending = state.feed.ending

end State

/-- The kind of the first token, or the end of input. -/
def frontKind : List Located → Kind
  | [] => .endOfInput
  | located :: _ => located.kind

namespace State

variable {state after : State σ} {tokens : List Located}

theorem Faces.kind_current (faces : state.Faces tokens) : state.current.kind = frontKind tokens := by
  cases faces with
  | none atEnd => rw [Located.kind, atEnd]; rfl
  | one => rfl
  | more => rfl

theorem Faces.of_current {located : Located} {rest : List Located}
    (faces : state.Faces (located :: rest)) :
    state.current = located ∧ state.current.token ≠ .endOfInput := by
  cases faces with
  | one notEnd => exact ⟨rfl, notEnd⟩
  | more notEnd => exact ⟨rfl, notEnd⟩

theorem Faces.eq_cons (faces : state.Faces tokens)
    (notEnd : state.current.token ≠ .endOfInput) : ∃ rest, tokens = state.current :: rest := by
  cases faces with
  | none atEnd => exact absurd atEnd notEnd
  | one => exact ⟨_, rfl⟩
  | more => exact ⟨_, rfl⟩

theorem Faces.unique {others : List Located} (first : state.Faces tokens)
    (second : state.Faces others) : tokens = others := by
  cases first with
  | none atEnd =>
    cases second with
    | none => rfl
    | one notEnd => exact absurd atEnd notEnd
    | more notEnd => exact absurd atEnd notEnd
  | one notEnd upcomingEnd =>
    cases second with
    | none atEnd => exact absurd atEnd notEnd
    | one => rfl
    | more _ upcoming => exact absurd upcomingEnd upcoming
  | more notEnd upcoming =>
    cases second with
    | none atEnd => exact absurd atEnd notEnd
    | one _ upcomingEnd => exact absurd upcomingEnd upcoming
    | more => rfl

/-- Where nothing lies ahead, the end of the input has been drawn. -/
theorem Faces.faultless (faces : state.Faces []) : state.feed.Faultless := by
  cases faces with
  | none _ _ _ faultless => exact faultless

/-- Only the two drawn tokens and the feed decide what lies ahead. -/
theorem Faces.of_same_input (faces : state.Faces tokens) (current : after.current = state.current)
    (upcoming : after.upcoming = state.upcoming) (feed : after.feed = state.feed) :
    after.Faces tokens := by
  cases faces with
  | none first second empty faultless =>
    exact .none (current ▸ first) (upcoming ▸ second) (feed ▸ empty) (feed ▸ faultless)
  | one first second empty faultless =>
    rw [← current]
    exact .one (current ▸ first) (upcoming ▸ second) (feed ▸ empty) (feed ▸ faultless)
  | more first second others =>
    rw [← current, ← upcoming, ← feed]
    exact .more (current ▸ first) (upcoming ▸ second) (feed ▸ others)

variable [Sink σ]

theorem Performs.refl (state : State σ) : state.Performs [] state :=
  ⟨rfl, rfl, rfl⟩

theorem Performs.trans {middle : State σ} {first second : List Action}
    (front : state.Performs first middle) (back : middle.Performs second after) :
    state.Performs (first ++ second) after where
  account := Account.performAll_append_eq_ok.mpr ⟨_, front.account, back.account⟩
  blocks := back.blocks.trans front.blocks
  ending := back.ending.trans front.ending

theorem Performs.faultless {actions : List Action} (performs : state.Performs actions after)
    (faultless : state.feed.Faultless) : after.feed.Faultless := by
  obtain ⟨offset, ending⟩ := faultless
  exact ⟨offset, performs.ending.trans ending⟩

end State

namespace Pass

variable [Sink σ] {state after : State σ} {located : Located} {rest : List Located}

/-- Moving on over a token. -/
theorem advance_sound (faces : state.Faces (located :: rest)) {result : Located}
    (success : advance state = .ok result after) :
    result = located ∧ after.Faces rest ∧ state.Performs [] after := by
  have current := faces.of_current.1
  unfold advance at success
  split at success
  · cases success
  · rename_i drawn feed drew
    cases success
    refine ⟨current, ?_⟩
    cases faces with
    | one _ atEnd empty _ =>
      obtain ⟨nonempty, _⟩ | ⟨_, rfl, faultless, drawnEnd⟩ := Feed.draw_cases drew
      · rw [empty] at nonempty
        cases nonempty
      · exact ⟨.none atEnd drawnEnd empty faultless, rfl, rfl, rfl⟩
    | more _ notEnd others =>
      obtain ⟨tokens, ending⟩ | ⟨tokens, rfl, faultless, drawnEnd⟩ := Feed.draw_cases drew
      · rw [tokens] at others ⊢
        refine ⟨.more notEnd (others _ (.head _)) fun member inside => others _ (.tail _ inside), ?_⟩
        exact ⟨rfl, rfl, ending⟩
      · rw [tokens]
        exact ⟨.one notEnd drawnEnd tokens faultless, rfl, rfl, rfl⟩

omit [Sink σ] in
theorem advance_complete (faces : state.Faces (located :: rest))
    (faultless : state.feed.Faultless) : ∃ after, advance state = .ok located after := by
  obtain ⟨drawn, feed, drew, -⟩ := faultless.exists_draw
  unfold advance
  rw [drew, faces.of_current.1]
  exact ⟨_, rfl⟩

end Pass

end TeenyBasic
