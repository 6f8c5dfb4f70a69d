import TeenyBasic.Pass.State

/-!
How the elementary steps of the pass use up tokens: none leaves more than there were, and moving on
over anything but the end of input uses up one. Both facts pass through sequencing and loops.
-/

set_option autoImplicit false

namespace TeenyBasic.Pass

variable {σ α β : Type}

theorem bind_eq_ok {step : Pass σ α} {next : α → Pass σ β} {state after : State σ} {result : β}
    (success : (step >>= next) state = .ok result after) :
    ∃ middle between, step state = .ok middle between ∧ next middle between = .ok result after := by
  change EStateM.bind step next state = _ at success
  unfold EStateM.bind at success
  split at success
  · rename_i middle between first
    exact ⟨middle, between, first, success⟩
  · cases success

theorem Keeps.bind {step : Pass σ α} {next : α → Pass σ β} (first : Keeps step)
    (second : ∀ middle, Keeps (next middle)) : Keeps (step >>= next) := by
  intro state result after success
  obtain ⟨middle, between, ran, continued⟩ := bind_eq_ok success
  exact Nat.le_trans (second middle between result after continued)
    (first state middle between ran)

theorem Keeps.pure (value : α) : Keeps (Pure.pure value : Pass σ α) := by
  intro state result after success
  cases success
  exact Nat.le_refl _

theorem Uses.bind {holds : State σ → Prop} {step : Pass σ α} {next : α → Pass σ β}
    (first : Uses holds step) (second : ∀ middle, Keeps (next middle)) :
    Uses holds (step >>= next) := by
  intro state result after held success
  obtain ⟨middle, between, ran, continued⟩ := bind_eq_ok success
  exact Nat.lt_of_le_of_lt (second middle between result after continued)
    (first state middle between held ran)

theorem Keeps.bind_uses {step : Pass σ α} {next : α → Pass σ β} (first : Keeps step)
    (second : ∀ middle, Uses (fun _ => True) (next middle)) :
    Uses (fun _ => True) (step >>= next) := by
  intro state result after _ success
  obtain ⟨middle, between, ran, continued⟩ := bind_eq_ok success
  exact Nat.lt_of_lt_of_le (second middle between result after trivial continued)
    (first state middle between ran)

theorem Uses.mono {holds stronger : State σ → Prop} {step : Pass σ α}
    (uses : Uses holds step) (implies : ∀ state, stronger state → holds state) :
    Uses stronger step :=
  fun state result after held success => uses state result after (implies state held) success

/-- Looking at the current token first: what follows may rely on it. -/
theorem Uses.current_bind {holds : State σ → Prop} {next : Located → Pass σ β}
    (uses : ∀ here, Uses (fun state => holds state ∧ state.current = here) (next here)) :
    Uses holds (current >>= next) :=
  fun state result after held success =>
    uses state.current state result after ⟨held, rfl⟩ success

theorem Keeps.current_bind {next : Located → Pass σ β} (keeps : ∀ here, Keeps (next here)) :
    Keeps (current >>= next) :=
  fun state result after success => keeps state.current state result after success

theorem keeps_refuse (refusal : Refusal) : Keeps (refuse refusal : Pass σ α) :=
  fun _ _ _ success => nomatch success

theorem uses_refuse (holds : State σ → Prop) (refusal : Refusal) :
    Uses holds (refuse refusal : Pass σ α) :=
  fun _ _ _ _ success => nomatch success

theorem keeps_of_total {step : Pass σ α} {result : State σ → α} {change : State σ → State σ}
    (total : ∀ state, step state = .ok (result state) (change state))
    (unchanged : ∀ state, (change state).remaining = state.remaining) : Keeps step := by
  intro state value after success
  rw [total] at success
  cases success
  exact Nat.le_of_eq (unchanged state)

theorem keeps_nextLine : Keeps (nextLine : Pass σ Unit) := by
  intro state result after success
  cases success
  exact Nat.le_refl _

theorem weight_le_one (located : Located) : State.weight located ≤ 1 := by
  unfold State.weight
  split <;> omega

theorem remaining_advance {state after : State σ} {located : Located}
    (success : advance state = .ok located after) :
    after.remaining + State.weight state.current ≤ state.remaining := by
  unfold advance at success
  split at success
  · cases success
  · rename_i drawn feed drew
    cases success
    unfold Feed.draw at drew
    unfold State.remaining
    split at drew
    · rename_i tokens
      cases drew
      have := weight_le_one drawn
      simp [tokens]
      omega
    · rename_i tokens
      split at drew
      · cases drew
        simp [tokens, State.weight]
        omega
      · cases drew

theorem keeps_advance : Keeps (advance : Pass σ Located) := by
  intro state result after success
  have := remaining_advance success
  omega

theorem uses_advance :
    Uses (fun state => state.current.token ≠ .endOfInput) (advance : Pass σ Located) := by
  intro state result after notEnd success
  have := remaining_advance success
  simp [State.weight, notEnd] at this
  omega

theorem keeps_expect (wanted : Kind) : Keeps (expect wanted : Pass σ Located) := by
  unfold expect
  refine Keeps.current_bind fun here => ?_
  split
  · exact keeps_advance
  · exact keeps_refuse _

theorem uses_expect {wanted : Kind} (notEnd : wanted ≠ .endOfInput) :
    Uses (fun _ => True) (expect wanted : Pass σ Located) := by
  unfold expect
  refine Uses.current_bind fun here => ?_
  split
  · rename_i found
    refine uses_advance.mono fun state held atEnd => notEnd ?_
    rw [← found, ← held.2, Located.kind, atEnd, Token.kind]
  · exact uses_refuse _ _

section Writing

variable [Sink σ]

theorem keeps_emit (text : String) : Keeps (emit text : Pass σ Unit) := by
  intro state result after success
  cases success
  exact Nat.le_refl _

theorem keeps_emitLine (text : String) : Keeps (emitLine text : Pass σ Unit) := by
  intro state result after success
  cases success
  exact Nat.le_refl _

theorem keeps_copyToken : Keeps (copyToken : Pass σ Unit) :=
  Keeps.bind keeps_advance fun _ => keeps_emit _

theorem uses_copyToken :
    Uses (fun state => state.current.token ≠ .endOfInput) (copyToken : Pass σ Unit) :=
  Uses.bind uses_advance fun _ => keeps_emit _

end Writing

theorem keeps_repeatWhile {more : State σ → Bool} {round : Pass σ Unit}
    (uses : Uses (fun state => more state = true) round) :
    Keeps (repeatWhile more round uses) := by
  intro state result after success
  fun_induction repeatWhile more round uses state with
  | case1 state goOn between ran ih =>
    exact Nat.le_trans (ih success)
      (Nat.le_of_lt (uses state () between goOn ran))
  | case2 => cases success
  | case3 =>
    cases success
    exact Nat.le_refl _

theorem token_ne_endOfInput {state : State σ} {test : Kind → Bool}
    (rejectsEnd : test .endOfInput = false) (found : test state.current.kind = true) :
    state.current.token ≠ .endOfInput := by
  intro atEnd
  rw [Located.kind, atEnd, Token.kind, rejectsEnd] at found
  cases found

end TeenyBasic.Pass
