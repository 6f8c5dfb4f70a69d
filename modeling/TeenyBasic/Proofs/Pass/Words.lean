import TeenyBasic.Proofs.Pass.Input
import TeenyBasic.Proofs.Spelling

/-!
Steps of the pass as translators. `Translates` ties a step to the pairs of tokens it reads and actions
it performs, in both directions: what the step accepts is such a pair (`Sound`), and every such pair
is accepted if its actions are allowed and nothing follows that the step would also read
(`Complete`); if they are not, the step refuses for the reason the actions are refused (`Blocked`).
Where a step stops, what it has read can be completed to such a pair (`Explained`). All of this passes
through sequencing and loops, so each step of the pass gets its statement from those of its parts.
-/

set_option autoImplicit false

namespace TeenyBasic

/-- Whether the code is about the order of tokens. -/
def Code.isSyntactic : Code → Bool
  | unexpectedToken | expectedExpression | expectedStatement | expectedComparison => true
  | _ => false

/-- Whether the code is about a name that is not allowed where it stands. -/
def Code.isNaming : Code → Bool
  | undefinedVariable | reservedName | duplicateLabel => true
  | _ => false

theorem Code.isSyntactic_of_isNaming {code : Code} (naming : code.isNaming = true) :
    code.isSyntactic = false := by
  cases code <;> first | rfl | cases naming

theorem Code.isSyntactic_iff {code : Code} :
    code.isSyntactic = true ↔ code.number ∈ ["E100", "E103", "E104", "E105"] := by
  cases code <;> decide

theorem Code.isNaming_iff {code : Code} :
    code.isNaming = true ↔ code.number ∈ ["E200", "E201", "E250"] := by
  cases code <;> decide

namespace Pass

open Grammar

variable {σ α β : Type}

/-- Tokens that are read together with the actions that are performed. -/
abbrev Words := List Token → List Action → Prop

namespace Words

def only (tokens : List Token) (actions : List Action) : Words :=
  fun read done => read = tokens ∧ done = actions

/-- The tokens and actions of the trees of one sort. -/
def spelled (tokens : α → List Token) (actions : α → List Action) : Words :=
  fun read done => ∃ tree, read = tokens tree ∧ done = actions tree

def seq (front back : Words) : Words := fun read done =>
  ∃ first second before after,
    read = first ++ second ∧ done = before ++ after ∧ front first before ∧ back second after

/-- One token that passes the test, copied to the C text. -/
def token (test : Kind → Prop) : Words := fun read done =>
  ∃ token, test token.kind ∧ read = [token] ∧ done = [copied token]

inductive Many (words : Words) : Words where
  | nil : Many words [] []
  | cons {first second : List Token} {before after : List Action} :
      words first before → Many words second after →
      Many words (first ++ second) (before ++ after)

end Words

/-- The kind a reader sees where the tokens stand before something of the given kind. -/
def leads (tokens : List Token) (kind : Kind) : Kind :=
  match tokens with
  | [] => kind
  | token :: _ => token.kind

/-- What holds of the first token of every word and of what follows holds of the first token of many
words. -/
theorem Words.Many.leads {words : Words} (test : Kind → Prop)
    (starts : ∀ tokens actions, words tokens actions →
      ∃ token rest, tokens = token :: rest ∧ test token.kind)
    {tokens : List Token} {actions : List Action} (many : Many words tokens actions) {kind : Kind}
    (follows : test kind) : test (leads tokens kind) := by
  cases many with
  | nil => exact follows
  | cons word _ =>
    obtain ⟨token, rest, rfl, passes⟩ := starts _ _ word
    exact passes

theorem frontKind_append (used rest : List Located) :
    frontKind (used ++ rest) = leads (used.map (·.token)) (frontKind rest) := by
  cases used <;> rfl

def anyKind : Kind → Prop := fun _ => True

/-- The single token behind a word of one token. -/
theorem exists_located_of_map_eq {used : List Located} {token : Token}
    (spelled : used.map (·.token) = [token]) :
    ∃ located, used = [located] ∧ located.token = token := by
  obtain ⟨located, others, rfl, found, empty⟩ := List.map_eq_cons_iff.mp spelled
  obtain rfl := List.map_eq_nil_iff.mp empty
  exact ⟨located, rfl, found⟩

theorem current_branch (test : Kind → Bool) (yes no : Pass σ α) (state : State σ) :
    (current >>= fun here => if test here.kind then yes else no) state =
      if test state.current.kind then yes state else no state := by
  change (if test state.current.kind then yes else no : Pass σ α) state = _
  split <;> rfl

section Writing

variable [Sink σ]

/-- From a place where the step may start, what it accepts is one of the words. -/
def Sound (step : Pass σ α) (starts : Kind → Prop) (words : α → Words) : Prop :=
  ∀ (state : State σ) (tokens : List Located) (result : α) (after : State σ),
    state.Faces tokens → starts (frontKind tokens) → step state = .ok result after →
    ∃ used rest actions, tokens = used ++ rest ∧ words result (used.map (·.token)) actions ∧
      after.Faces rest ∧ state.Performs actions after

/-- A word is accepted if its actions are allowed and what follows stops the step. -/
def Complete (step : Pass σ α) (words : α → Words) (stops : Kind → Prop) : Prop :=
  ∀ (state : State σ) (used rest : List Located) (result : α) (actions : List Action)
    (final : Account σ),
    state.Faces (used ++ rest) → state.feed.Faultless →
    words result (used.map (·.token)) actions → stops (frontKind rest) →
    state.account.performAll actions = .ok final →
    ∃ after, step state = .ok result after ∧ after.Faces rest ∧ state.Performs actions after

/-- A word whose actions are refused stops the step for the same reason. -/
def Blocked (step : Pass σ α) (words : α → Words) (stops : Kind → Prop) : Prop :=
  ∀ (state : State σ) (used rest : List Located) (result : α) (actions : List Action)
    (refusal : Refusal),
    state.Faces (used ++ rest) → state.feed.Faultless →
    words result (used.map (·.token)) actions → stops (frontKind rest) →
    state.account.performAll actions = .error refusal →
    ∃ failure after line, step state = .error failure after ∧ failure.cause = .refused refusal line

/-- Whatever the account, there is a word whose actions it allows. -/
def Fills (σ : Type) [Sink σ] (words : α → Words) : Prop :=
  ∀ account : Account σ, ∃ result tokens actions final, words result tokens actions ∧
    (∀ token ∈ tokens, token.Readable) ∧ account.performAll actions = .ok final

/-- The place a refusal points at: the token the pass stands at and its line. -/
def refusedAt (after : State σ) (refusal : Refusal) : Failure :=
  { cause := .refused refusal after.line, span := after.current.span }

/-- Why a step stopped in the state `after`, having read `used` and performed `done`. -/
inductive Stuck (words : α → Words) (used : List Token) (done : List Action) (after : State σ) :
    Failure → Prop where
  /-- The token after next cannot be read. -/
  | faulty {error : LexicalError} : after.feed.ending = .fault error →
      Stuck words used done after error.failure
  /-- The token is out of place; other tokens in its place would be accepted. -/
  | misplaced {refusal : Refusal} (result : α) (more : List Token) {actions : List Action}
      {final : Account σ} : refusal.code.isSyntactic = true →
      words result (used ++ more) (done ++ actions) → (∀ token ∈ more, token.Readable) →
      after.account.performAll actions = .ok final →
      Stuck words used done after (refusedAt after refusal)
  /-- The token is a name that is not allowed where a name may stand. -/
  | disallowed {refusal : Refusal} {name : String} (result : α) (more : List Token)
      {actions : List Action} : refusal.code.isNaming = true →
      after.current.token = .name name →
      words result (used ++ .name name :: more) (done ++ actions) →
      (∀ token ∈ more, token.Readable) → Stuck words used done after (refusedAt after refusal)

/-- From a place where the step may start, whatever stops it is explained by the words. -/
def Explained (step : Pass σ α) (starts : Kind → Prop) (words : α → Words) : Prop :=
  ∀ (state : State σ) (tokens : List Located) (failure : Failure) (after : State σ),
    state.Faces tokens → starts (frontKind tokens) → step state = .error failure after →
    ∃ used rest done, tokens = used ++ rest ∧ after.Faces rest ∧ state.Performs done after ∧
      Stuck words (used.map (·.token)) done after failure

structure Translates (step : Pass σ α) (starts : Kind → Prop) (words : α → Words)
    (stops : Kind → Prop) : Prop where
  sound : Sound step starts words
  complete : Complete step words stops
  blocked : Blocked step words stops
  explained : Explained step starts words
  fills : Fills σ words

omit [Sink σ] in
/-- A sequence fails just when one of its parts does. -/
theorem bind_eq_error {step : Pass σ α} {next : α → Pass σ β} {state after : State σ}
    {failure : Failure} (failed : (step >>= next) state = .error failure after) :
    step state = .error failure after ∨
      ∃ middle between, step state = .ok middle between ∧ next middle between = .error failure after := by
  change EStateM.bind step next state = _ at failed
  unfold EStateM.bind at failed
  split at failed
  · rename_i middle between first
    exact .inr ⟨middle, between, first, failed⟩
  · rename_i first
    cases failed
    exact .inl first

omit [Sink σ] in
theorem bind_ok {step : Pass σ α} {next : α → Pass σ β} {state between : State σ} {middle : α}
    (ran : step state = .ok middle between) : (step >>= next) state = next middle between := by
  change EStateM.bind step next state = _
  unfold EStateM.bind
  rw [ran]

omit [Sink σ] in
theorem bind_error {step : Pass σ α} {next : α → Pass σ β} {state after : State σ}
    {failure : Failure} (failed : step state = .error failure after) :
    (step >>= next) state = .error failure after := by
  change EStateM.bind step next state = _
  unfold EStateM.bind
  rw [failed]

namespace Stuck

variable {words : α → Words} {used : List Token} {done : List Action} {after : State σ}
  {failure : Failure}

/-- What stops the first of two steps stops both. -/
theorem bind_first {more : α → β → Words} (stuck : Stuck words used done after failure)
    (fills : ∀ middle, Fills σ (more middle)) :
    Stuck (fun result read done => ∃ middle, (words middle).seq (more middle result) read done)
      used done after failure := by
  cases stuck with
  | faulty ending => exact .faulty ending
  | @misplaced refusal middle tokens actions final syntactic word readable performed =>
    obtain ⟨result, others, following, last, wordMore, readableMore, performedMore⟩ :=
      fills middle final
    have performedAll := Account.performAll_append_eq_ok.mpr ⟨final, performed, performedMore⟩
    exact .misplaced result (tokens ++ others) syntactic
      ⟨middle, _, _, _, _, by simp, by simp, word, wordMore⟩
      (List.forall_mem_append.mpr ⟨readable, readableMore⟩) performedAll
  | @disallowed refusal name middle tokens actions naming current word readable =>
    obtain ⟨result, others, following, _, wordMore, readableMore, _⟩ := fills middle after.account
    have whole : (words middle).seq (more middle result) (used ++ .name name :: (tokens ++ others))
        (done ++ (actions ++ following)) := ⟨_, _, _, _, by simp, by simp, word, wordMore⟩
    exact .disallowed result (tokens ++ others) naming current ⟨middle, whole⟩
      (List.forall_mem_append.mpr ⟨readable, readableMore⟩)

/-- What stops a step stops it after others that read `front` and performed `before`. -/
theorem map {others : β → Words} (front : List Token) (before : List Action)
    (stuck : Stuck words used done after failure)
    (extend : ∀ result tokens actions, words result tokens actions →
      ∃ other, others other (front ++ tokens) (before ++ actions)) :
    Stuck others (front ++ used) (before ++ done) after failure := by
  cases stuck with
  | faulty ending => exact .faulty ending
  | misplaced _ more syntactic word readable performed =>
    obtain ⟨other, extended⟩ := extend _ _ _ word
    exact .misplaced other more syntactic (by simpa using extended) readable performed
  | disallowed _ more naming current word readable =>
    obtain ⟨other, extended⟩ := extend _ _ _ word
    exact .disallowed other more naming current (by simpa using extended) readable

end Stuck

namespace Translates

variable {step : Pass σ α} {starts stops : Kind → Prop} {words : α → Words}

theorem congr (translates : Translates step starts words stops) {others : α → Words}
    (same : ∀ result tokens actions, words result tokens actions ↔ others result tokens actions) :
    Translates step starts others stops := by
  have equal : words = others := by
    funext result tokens actions
    exact propext (same result tokens actions)
  exact equal ▸ translates

theorem of_any (translates : Translates step anyKind words stops) :
    Translates step starts words stops where
  sound := fun state tokens result after faces _ success =>
    translates.sound state tokens result after faces trivial success
  complete := translates.complete
  blocked := translates.blocked
  explained := fun state tokens failure after faces _ failed =>
    translates.explained state tokens failure after faces trivial failed
  fills := translates.fills

theorem weaken (translates : Translates step starts words stops) {ends : Kind → Prop}
    (implies : ∀ kind, ends kind → stops kind) : Translates step starts words ends where
  sound := translates.sound
  complete := fun state used rest result actions final faces faultless word stopped =>
    translates.complete state used rest result actions final faces faultless word
      (implies _ stopped)
  blocked := fun state used rest result actions refusal faces faultless word stopped =>
    translates.blocked state used rest result actions refusal faces faultless word
      (implies _ stopped)
  explained := translates.explained
  fills := translates.fills

/-- Two steps one after the other; the second may start where the first leaves the input. -/
theorem bind_from {next : α → Pass σ β} {more : α → β → Words} {begins ends : Kind → Prop}
    (first : Translates step starts words stops)
    (second : ∀ middle, Translates (next middle) begins (more middle) ends)
    (passes : ∀ middle tokens actions kind,
      words middle tokens actions → starts (leads tokens kind) → begins kind)
    (follows : ∀ middle result tokens actions kind,
      more middle result tokens actions → ends kind → stops (leads tokens kind)) :
    Translates (step >>= next) starts
      (fun result read done => ∃ middle, (words middle).seq (more middle result) read done) ends where
  sound := by
    intro state tokens result after faces started success
    obtain ⟨middle, between, ran, continued⟩ := bind_eq_ok success
    obtain ⟨used, rest, before, rfl, word, facesRest, performs⟩ :=
      first.sound state tokens middle between faces started ran
    obtain ⟨usedMore, restMore, following, rfl, wordMore, facesMore, performsMore⟩ :=
      (second middle).sound between rest result after facesRest
        (passes _ _ _ _ word (frontKind_append used rest ▸ started)) continued
    refine ⟨used ++ usedMore, restMore, before ++ following, by simp, ?_, facesMore,
      performs.trans performsMore⟩
    exact ⟨middle, _, _, _, _, by simp, rfl, word, wordMore⟩
  complete := by
    intro state used rest result actions final faces faultless word stopped allowed
    obtain ⟨middle, front, back, before, following, split, rfl, word, wordMore⟩ := word
    obtain ⟨usedFront, usedBack, rfl, rfl, rfl⟩ := List.map_eq_append_iff.mp split
    obtain ⟨account, allowedFront, allowedBack⟩ := Account.performAll_append_eq_ok.mp allowed
    rw [List.append_assoc] at faces
    obtain ⟨between, ran, facesBetween, performs⟩ :=
      first.complete state usedFront (usedBack ++ rest) middle before account faces faultless word
        (by rw [frontKind_append]; exact follows _ _ _ _ _ wordMore stopped) allowedFront
    have sameAccount : between.account = account := by
      have performed := performs.account
      rw [allowedFront] at performed
      exact (Except.ok.inj performed).symm
    obtain ⟨after, continued, facesAfter, performsMore⟩ :=
      (second middle).complete between usedBack rest result following final facesBetween
        (performs.faultless faultless) wordMore stopped (by rw [sameAccount]; exact allowedBack)
    refine ⟨after, ?_, facesAfter, performs.trans performsMore⟩
    change EStateM.bind step next state = _
    unfold EStateM.bind
    rw [ran]
    exact continued
  blocked := by
    intro state used rest result actions refusal faces faultless word stopped refused
    obtain ⟨middle, front, back, before, following, split, rfl, word, wordMore⟩ := word
    obtain ⟨usedFront, usedBack, rfl, rfl, rfl⟩ := List.map_eq_append_iff.mp split
    rw [List.append_assoc] at faces
    have stoppedFront : stops (frontKind (usedBack ++ rest)) := by
      rw [frontKind_append]
      exact follows _ _ _ _ _ wordMore stopped
    rcases Account.performAll_append_eq_error.mp refused with refusedFront |
      ⟨account, allowedFront, refusedBack⟩
    · obtain ⟨failure, after, line, failed, cause⟩ :=
        first.blocked state usedFront (usedBack ++ rest) middle before refusal faces faultless word
          stoppedFront refusedFront
      exact ⟨failure, after, line, bind_error failed, cause⟩
    · obtain ⟨between, ran, facesBetween, performs⟩ :=
        first.complete state usedFront (usedBack ++ rest) middle before account faces faultless word
          stoppedFront allowedFront
      have sameAccount : between.account = account :=
        Except.ok.inj (performs.account.symm.trans allowedFront)
      obtain ⟨failure, after, line, failed, cause⟩ :=
        (second middle).blocked between usedBack rest result following refusal facesBetween
          (performs.faultless faultless) wordMore stopped (by rw [sameAccount]; exact refusedBack)
      exact ⟨failure, after, line, (bind_ok ran).trans failed, cause⟩
  explained := by
    intro state tokens failure after faces started failed
    rcases bind_eq_error failed with failedFirst | ⟨middle, between, ran, failedSecond⟩
    · obtain ⟨used, rest, done, rfl, facesRest, performs, stuck⟩ :=
        first.explained state tokens failure after faces started failedFirst
      exact ⟨used, rest, done, rfl, facesRest, performs,
        stuck.bind_first fun middle => (second middle).fills⟩
    · obtain ⟨used, rest, before, rfl, word, facesRest, performs⟩ :=
        first.sound state tokens middle between faces started ran
      obtain ⟨usedMore, restMore, done, rfl, facesMore, performsMore, stuck⟩ :=
        (second middle).explained between rest failure after facesRest
          (passes _ _ _ _ word (frontKind_append used rest ▸ started)) failedSecond
      refine ⟨used ++ usedMore, restMore, before ++ done, by simp, facesMore,
        performs.trans performsMore, ?_⟩
      rw [List.map_append]
      exact stuck.map _ _ fun result tokens actions wordMore =>
        ⟨result, middle, _, _, _, _, rfl, rfl, word, wordMore⟩
  fills := by
    intro account
    obtain ⟨middle, tokens, actions, between, word, readable, performed⟩ := first.fills account
    obtain ⟨result, others, following, final, wordMore, readableMore, performedMore⟩ :=
      (second middle).fills between
    exact ⟨result, tokens ++ others, actions ++ following, final,
      ⟨middle, _, _, _, _, rfl, rfl, word, wordMore⟩,
      List.forall_mem_append.mpr ⟨readable, readableMore⟩,
      Account.performAll_append_eq_ok.mpr ⟨between, performed, performedMore⟩⟩

theorem bind_step {next : α → Pass σ β} {more : α → β → Words} {ends : Kind → Prop}
    (first : Translates step starts words stops)
    (second : ∀ middle, Translates (next middle) anyKind (more middle) ends)
    (follows : ∀ middle result tokens actions kind,
      more middle result tokens actions → ends kind → stops (leads tokens kind)) :
    Translates (step >>= next) starts
      (fun result read done => ∃ middle, (words middle).seq (more middle result) read done) ends :=
  first.bind_from second (fun _ _ _ _ _ _ => trivial) follows

/-- A choice by the kind of the token the pass stands at. -/
theorem branch (test : Kind → Bool) {yes no : Pass σ α} {others : α → Words}
    (ifPasses : Translates yes (fun kind => test kind = true) words stops)
    (ifFails : Translates no (fun kind => test kind = false) others stops)
    (passes : ∀ result tokens actions, words result tokens actions →
      ∃ token rest, tokens = token :: rest ∧ test token.kind = true)
    (fails : ∀ result tokens actions, others result tokens actions →
      ∃ token rest, tokens = token :: rest ∧ test token.kind = false) :
    Translates (current >>= fun here => if test here.kind then yes else no) anyKind
      (fun result read done => words result read done ∨ others result read done) stops where
  sound := by
    intro state tokens result after faces _ success
    rw [current_branch, faces.kind_current] at success
    split at success
    · rename_i started
      obtain ⟨used, rest, actions, split, word, performed⟩ :=
        ifPasses.sound state tokens result after faces started success
      exact ⟨used, rest, actions, split, .inl word, performed⟩
    · rename_i started
      obtain ⟨used, rest, actions, split, word, performed⟩ :=
        ifFails.sound state tokens result after faces (by simpa using started) success
      exact ⟨used, rest, actions, split, .inr word, performed⟩
  complete := by
    intro state used rest result actions final faces faultless word stopped allowed
    rw [current_branch, faces.kind_current, frontKind_append]
    rcases word with word | word
    · obtain ⟨token, others, split, started⟩ := passes _ _ _ word
      rw [split, if_pos (show test (leads (token :: others) _) = true from started)]
      exact ifPasses.complete state used rest result actions final faces faultless word stopped allowed
    · obtain ⟨token, others, split, started⟩ := fails _ _ _ word
      rw [split, if_neg (by simpa [leads] using started)]
      exact ifFails.complete state used rest result actions final faces faultless word stopped allowed
  blocked := by
    intro state used rest result actions refusal faces faultless word stopped refused
    rw [current_branch, faces.kind_current, frontKind_append]
    rcases word with word | word
    · obtain ⟨token, others, split, started⟩ := passes _ _ _ word
      rw [split, if_pos (show test (leads (token :: others) _) = true from started)]
      exact ifPasses.blocked state used rest result actions refusal faces faultless word stopped refused
    · obtain ⟨token, others, split, started⟩ := fails _ _ _ word
      rw [split, if_neg (by simpa [leads] using started)]
      exact ifFails.blocked state used rest result actions refusal faces faultless word stopped refused
  explained := by
    intro state tokens failure after faces _ failed
    rw [current_branch, faces.kind_current] at failed
    split at failed
    · rename_i started
      obtain ⟨used, rest, done, split, facesRest, performs, stuck⟩ :=
        ifPasses.explained state tokens failure after faces started failed
      refine ⟨used, rest, done, split, facesRest, performs, ?_⟩
      exact stuck.map [] [] fun result _ _ word => ⟨result, .inl word⟩
    · rename_i started
      obtain ⟨used, rest, done, split, facesRest, performs, stuck⟩ :=
        ifFails.explained state tokens failure after faces (by simpa using started) failed
      refine ⟨used, rest, done, split, facesRest, performs, ?_⟩
      exact stuck.map [] [] fun result _ _ word => ⟨result, .inr word⟩
  fills := by
    intro account
    obtain ⟨result, tokens, actions, final, word, filled⟩ := ifPasses.fills account
    exact ⟨result, tokens, actions, final, .inl word, filled⟩

/-- A step that is refused where none of its words can start. -/
theorem guarded {test : Kind → Prop} [DecidablePred test] {whole : Pass σ α}
    (translates : Translates step test words stops) (refusal : State σ → Refusal)
    (eq : ∀ state, whole state =
      if test state.current.kind then step state else refuse (refusal state) state)
    (syntactic : ∀ state, (refusal state).code.isSyntactic = true)
    (started : ∀ result tokens actions, words result tokens actions →
      ∃ token rest, tokens = token :: rest ∧ test token.kind) :
    Translates whole anyKind words stops := by
  have passes : ∀ {state : State σ} {used rest : List Located} {result : α} {actions : List Action},
      state.Faces (used ++ rest) →
      words result (used.map (·.token)) actions → test state.current.kind := by
    intro state used rest result actions faces word
    obtain ⟨token, others, split, passes⟩ := started _ _ _ word
    rw [faces.kind_current, frontKind_append, split]
    exact passes
  constructor
  · intro state tokens result after faces _ success
    rw [eq] at success
    split at success
    · rename_i found
      exact translates.sound state tokens result after faces (faces.kind_current ▸ found) success
    · cases success
  · intro state used rest result actions final faces faultless word stopped allowed
    rw [eq, if_pos (passes faces word)]
    exact translates.complete state used rest result actions final faces faultless word stopped allowed
  · intro state used rest result actions refusal faces faultless word stopped refused
    rw [eq, if_pos (passes faces word)]
    exact translates.blocked state used rest result actions refusal faces faultless word stopped refused
  · intro state tokens failure after faces _ failed
    rw [eq] at failed
    split at failed
    · rename_i found
      exact translates.explained state tokens failure after faces (faces.kind_current ▸ found) failed
    · cases failed
      obtain ⟨result, more, actions, final, word, readable, performed⟩ :=
        translates.fills state.account
      exact ⟨[], tokens, [], rfl, faces, .refl _, .misplaced _ _ (syntactic state) word readable performed⟩
  · exact translates.fills

end Translates

/-! ## Loops -/

omit [Sink σ] in
theorem repeatWhile_of_ok {more : State σ → Bool} {round : Pass σ Unit}
    (uses : Uses (fun state => more state = true) round) {state between : State σ}
    (goesOn : more state = true) (ran : round state = .ok () between) :
    repeatWhile more round uses state = repeatWhile more round uses between := by
  rw [repeatWhile, dif_pos goesOn]
  split
  · rename_i after result
    rw [ran] at result
    cases result
    rfl
  · rename_i failure after result
    rw [ran] at result
    cases result

omit [Sink σ] in
theorem repeatWhile_of_stopped {more : State σ → Bool} {round : Pass σ Unit}
    (uses : Uses (fun state => more state = true) round) {state : State σ}
    (stopped : more state = false) : repeatWhile more round uses state = .ok () state := by
  rw [repeatWhile, dif_neg (by simp [stopped])]

omit [Sink σ] in
/-- A loop that goes on is one round and the loop again. -/
theorem repeatWhile_of_goesOn {more : State σ → Bool} {round : Pass σ Unit}
    (uses : Uses (fun state => more state = true) round) {state : State σ}
    (goesOn : more state = true) :
    repeatWhile more round uses state = (round >>= fun _ => repeatWhile more round uses) state := by
  change _ = EStateM.bind round _ state
  unfold EStateM.bind
  cases ran : round state with
  | ok result between => exact repeatWhile_of_ok uses goesOn ran
  | error failure between =>
    rw [repeatWhile, dif_pos goesOn]
    split
    · rename_i after result
      rw [ran] at result
      cases result
    · rename_i other after result
      rw [ran] at result
      exact result.symm

section Loop

variable {test : Kind → Bool} {round : Pass σ Unit} {words : Words} {stops : Kind → Prop}
  (uses : Uses (fun state => standsAt test state = true) round)

theorem Sound.repeatWhile (once : Sound round (fun kind => test kind = true) fun _ => words) :
    Sound (repeatWhile (standsAt test) round uses) anyKind fun _ => Words.Many words := by
  intro state tokens result after faces _ success
  fun_induction Pass.repeatWhile (standsAt test) round uses state generalizing tokens with
  | case1 state goesOn between ran ih =>
    have started : test (frontKind tokens) = true := by
      rw [← faces.kind_current]
      exact goesOn
    obtain ⟨used, rest, before, rfl, word, facesRest, performs⟩ :=
      once state tokens () between faces started ran
    obtain ⟨usedMore, restMore, following, rfl, wordMore, facesMore, performsMore⟩ :=
      ih rest facesRest trivial success
    refine ⟨used ++ usedMore, restMore, before ++ following, by simp, ?_, facesMore,
      performs.trans performsMore⟩
    rw [List.map_append]
    exact .cons word wordMore
  | case2 => cases success
  | case3 =>
    cases success
    exact ⟨[], tokens, [], rfl, .nil, faces, .refl _⟩

theorem Complete.repeatWhile (once : Complete round (fun _ => words) stops)
    (starts : ∀ tokens actions, words tokens actions →
      ∃ token rest, tokens = token :: rest ∧ test token.kind = true)
    (continues : ∀ kind, test kind = true → stops kind) :
    Complete (repeatWhile (standsAt test) round uses) (fun _ => Words.Many words)
      (fun kind => stops kind ∧ test kind = false) := by
  intro state used rest result actions final faces faultless many stopped allowed
  generalize spelled : used.map (·.token) = tokens at many
  induction many generalizing state used with
  | nil =>
    obtain rfl := List.map_eq_nil_iff.mp spelled
    refine ⟨state, repeatWhile_of_stopped uses ?_, faces, .refl state⟩
    rw [standsAt, faces.kind_current]
    exact stopped.2
  | @cons first second before following word many ih =>
    obtain ⟨usedFront, usedBack, rfl, rfl, rfl⟩ := List.map_eq_append_iff.mp spelled
    obtain ⟨account, allowedFront, allowedBack⟩ := Account.performAll_append_eq_ok.mp allowed
    rw [List.append_assoc] at faces
    have follows : stops (frontKind (usedBack ++ rest)) := by
      rw [frontKind_append]
      refine many.leads stops (fun tokens actions word => ?_) stopped.1
      obtain ⟨token, others, rfl, passes⟩ := starts tokens actions word
      exact ⟨token, others, rfl, continues _ passes⟩
    obtain ⟨between, ran, facesBetween, performs⟩ :=
      once state usedFront (usedBack ++ rest) () before account faces faultless word follows
        allowedFront
    have sameAccount : between.account = account := by
      have performed := performs.account
      rw [allowedFront] at performed
      exact (Except.ok.inj performed).symm
    obtain ⟨after, continued, facesAfter, performsMore⟩ :=
      ih between usedBack facesBetween (performs.faultless faultless)
        (by rw [sameAccount]; exact allowedBack) rfl
    refine ⟨after, ?_, facesAfter, performs.trans performsMore⟩
    rw [repeatWhile_of_ok uses _ ran]
    · exact continued
    · obtain ⟨token, others, firstToken, passes⟩ := starts _ _ word
      rw [standsAt, faces.kind_current, frontKind_append, firstToken]
      exact passes

theorem Blocked.repeatWhile (complete : Complete round (fun _ => words) stops)
    (once : Blocked round (fun _ => words) stops)
    (starts : ∀ tokens actions, words tokens actions →
      ∃ token rest, tokens = token :: rest ∧ test token.kind = true)
    (continues : ∀ kind, test kind = true → stops kind) :
    Blocked (repeatWhile (standsAt test) round uses) (fun _ => Words.Many words)
      (fun kind => stops kind ∧ test kind = false) := by
  intro state used rest result actions refusal faces faultless many stopped refused
  generalize spelled : used.map (·.token) = tokens at many
  induction many generalizing state used with
  | nil => cases refused
  | @cons first second before following word many ih =>
    obtain ⟨usedFront, usedBack, rfl, rfl, rfl⟩ := List.map_eq_append_iff.mp spelled
    rw [List.append_assoc] at faces
    have goesOn : standsAt test state = true := by
      obtain ⟨token, others, firstToken, passes⟩ := starts _ _ word
      rw [standsAt, faces.kind_current, frontKind_append, firstToken]
      exact passes
    have follows : stops (frontKind (usedBack ++ rest)) := by
      rw [frontKind_append]
      refine many.leads stops (fun tokens actions word => ?_) stopped.1
      obtain ⟨token, others, rfl, passes⟩ := starts tokens actions word
      exact ⟨token, others, rfl, continues _ passes⟩
    rw [repeatWhile_of_goesOn uses goesOn]
    rcases Account.performAll_append_eq_error.mp refused with refusedFront |
      ⟨account, allowedFront, refusedBack⟩
    · obtain ⟨failure, after, line, failed, cause⟩ :=
        once state usedFront (usedBack ++ rest) () before refusal faces faultless word follows
          refusedFront
      exact ⟨failure, after, line, bind_error failed, cause⟩
    · obtain ⟨between, ran, facesBetween, performs⟩ :=
        complete state usedFront (usedBack ++ rest) () before account faces faultless word follows
          allowedFront
      have sameAccount : between.account = account :=
        Except.ok.inj (performs.account.symm.trans allowedFront)
      obtain ⟨failure, after, line, failed, cause⟩ :=
        ih between usedBack facesBetween (performs.faultless faultless)
          (by rw [sameAccount]; exact refusedBack) rfl
      exact ⟨failure, after, line, (bind_ok ran).trans failed, cause⟩

theorem Explained.repeatWhile (sound : Sound round (fun kind => test kind = true) fun _ => words)
    (once : Explained round (fun kind => test kind = true) fun _ => words) :
    Explained (repeatWhile (standsAt test) round uses) anyKind fun _ => Words.Many words := by
  intro state tokens failure after faces _ failed
  fun_induction Pass.repeatWhile (standsAt test) round uses state generalizing tokens with
  | case1 state goesOn between ran ih =>
    have started : test (frontKind tokens) = true := by
      rw [← faces.kind_current]
      exact goesOn
    obtain ⟨used, rest, before, rfl, word, facesRest, performs⟩ :=
      sound state tokens () between faces started ran
    obtain ⟨usedMore, restMore, done, rfl, facesMore, performsMore, stuck⟩ :=
      ih rest facesRest trivial failed
    refine ⟨used ++ usedMore, restMore, before ++ done, by simp, facesMore,
      performs.trans performsMore, ?_⟩
    rw [List.map_append]
    exact stuck.map _ _ fun result _ _ many => ⟨result, .cons word many⟩
  | case2 state goesOn failure after ran =>
    cases failed
    have started : test (frontKind tokens) = true := by
      rw [← faces.kind_current]
      exact goesOn
    obtain ⟨used, rest, done, rfl, facesRest, performs, stuck⟩ :=
      once state tokens failure after faces started ran
    refine ⟨used, rest, done, rfl, facesRest, performs, ?_⟩
    refine stuck.map [] [] fun result tokens actions word => ⟨result, ?_⟩
    simpa using Words.Many.cons word .nil
  | case3 => cases failed

theorem Translates.repeatWhile
    (once : Translates round (fun kind => test kind = true) (fun _ => words) stops)
    (starts : ∀ tokens actions, words tokens actions →
      ∃ token rest, tokens = token :: rest ∧ test token.kind = true)
    (continues : ∀ kind, test kind = true → stops kind) :
    Translates (repeatWhile (standsAt test) round uses) anyKind (fun _ => Words.Many words)
      (fun kind => stops kind ∧ test kind = false) where
  sound := once.sound.repeatWhile uses
  complete := once.complete.repeatWhile uses starts continues
  blocked := once.blocked.repeatWhile uses once.complete starts continues
  explained := once.explained.repeatWhile uses once.sound
  fills := fun account => ⟨(), [], [], account, .nil, by simp, rfl⟩

end Loop

/-! ## Elementary steps -/

/-- A step that always succeeds, leaves the input and the blocks alone and performs the actions. -/
theorem translates_of_total {step : Pass σ Unit} {actions : List Action}
    (total : ∀ state, ∃ after, step state = .ok () after ∧ after.current = state.current ∧
      after.upcoming = state.upcoming ∧ after.feed = state.feed ∧
      after.openBlocks = state.openBlocks ∧
      state.account.performAll actions = .ok after.account) :
    Translates step anyKind (fun _ => Words.only [] actions) anyKind where
  sound := by
    intro state tokens result after faces _ success
    obtain ⟨changed, ran, current, upcoming, feed, blocks, account⟩ := total state
    rw [ran] at success
    cases success
    exact ⟨[], tokens, actions, rfl, ⟨rfl, rfl⟩, faces.of_same_input current upcoming feed,
      account, blocks, by rw [feed]⟩
  complete := by
    intro state used rest result performed final faces _ word _ _
    obtain ⟨noTokens, rfl⟩ := word
    obtain rfl := List.map_eq_nil_iff.mp noTokens
    obtain ⟨changed, ran, current, upcoming, feed, blocks, account⟩ := total state
    exact ⟨changed, ran, faces.of_same_input current upcoming feed, account, blocks, by rw [feed]⟩
  blocked := by
    intro state used rest result performed refusal faces _ word _ refused
    obtain ⟨-, rfl⟩ := word
    obtain ⟨changed, _, _, _, _, _, account⟩ := total state
    rw [account] at refused
    cases refused
  explained := by
    intro state tokens failure after faces _ failed
    obtain ⟨changed, ran, _⟩ := total state
    rw [ran] at failed
    cases failed
  fills := by
    intro account
    obtain ⟨state, rfl⟩ := State.exists_account account
    obtain ⟨changed, _, _, _, _, _, account⟩ := total state
    exact ⟨(), [], actions, changed.account, ⟨rfl, rfl⟩, by simp, account⟩

section Only

variable {step : Pass σ Unit} {actions : List Action}
  (translates : Translates step anyKind (fun _ => Words.only [] actions) anyKind)
  {state : State σ} {tokens : List Located}

include translates

theorem Translates.sound_only {after : State σ} (faces : state.Faces tokens)
    (success : step state = .ok () after) : after.Faces tokens ∧ state.Performs actions after := by
  obtain ⟨used, rest, _, rfl, ⟨empty, rfl⟩, facesRest, performs⟩ :=
    translates.sound state tokens () after faces trivial success
  obtain rfl := List.map_eq_nil_iff.mp empty
  exact ⟨facesRest, performs⟩

theorem Translates.complete_only {final : Account σ} (faces : state.Faces tokens)
    (faultless : state.feed.Faultless) (allowed : state.account.performAll actions = .ok final) :
    ∃ after, step state = .ok () after ∧ after.Faces tokens ∧ state.Performs actions after :=
  translates.complete state [] tokens () actions final faces faultless ⟨rfl, rfl⟩ trivial allowed

end Only

theorem translates_emit (text : String) :
    Translates (emit text : Pass σ Unit) anyKind
      (fun _ => Words.only [] [.write (.emit text)]) anyKind :=
  translates_of_total fun _ => ⟨_, rfl, rfl, rfl, rfl, rfl, rfl⟩

theorem translates_emitLine (text : String) :
    Translates (emitLine text : Pass σ Unit) anyKind
      (fun _ => Words.only [] [.write (.line text)]) anyKind :=
  translates_of_total fun _ => ⟨_, rfl, rfl, rfl, rfl, rfl, rfl⟩

theorem translates_headerLine (text : String) :
    Translates (headerLine text : Pass σ Unit) anyKind
      (fun _ => Words.only [] [.write (.header text)]) anyKind :=
  translates_of_total fun _ => ⟨_, rfl, rfl, rfl, rfl, rfl, rfl⟩

omit [Sink σ] in
theorem advance_result {state after : State σ} {here : Located}
    (moved : advance state = .ok here after) : here = state.current := by
  unfold advance at moved
  split at moved
  · cases moved
  · cases moved
    rfl

omit [Sink σ] in
/-- Moving on fails because of a fault only, and then the pass stays where it is. -/
theorem advance_eq_error {state after : State σ} {failure : Failure}
    (failed : advance state = .error failure after) :
    after = state ∧ ∃ error, state.feed.ending = .fault error ∧ failure = error.failure := by
  unfold advance at failed
  split at failed
  · rename_i error stuck
    cases failed
    exact ⟨rfl, error, Feed.draw_eq_error stuck, rfl⟩
  · cases failed

/-- Where moving on fails, the step it starts is stuck at a fault. -/
theorem explained_advance {words : α → Words} {state after : State σ} {tokens : List Located}
    {failure : Failure} (faces : state.Faces tokens) (failed : advance state = .error failure after) :
    ∃ used rest done, tokens = used ++ rest ∧ after.Faces rest ∧ state.Performs done after ∧
      Stuck words (used.map (·.token)) done after failure := by
  obtain ⟨rfl, error, ending, rfl⟩ := advance_eq_error failed
  exact ⟨[], tokens, [], rfl, faces, .refl _, .faulty ending⟩

/-- Moving on over a token that is known to pass the test, and then something else. -/
theorem Translates.advance_bind (test : Kind → Prop) {next : Pass σ β} {more : β → Words}
    {ends : Kind → Prop} (rejectsEnd : ¬ test .endOfInput)
    (sample : ∃ token : Token, token.Readable ∧ test token.kind) (second : Translates next anyKind more ends) :
    Translates (advance >>= fun _ => next) test
      (fun result read done =>
        ∃ token tokens, test token.kind ∧ read = token :: tokens ∧ more result tokens done)
      ends where
  sound := by
    intro state tokens result after faces started success
    obtain ⟨middle, between, ran, continued⟩ := bind_eq_ok success
    cases tokens with
    | nil => exact absurd started rejectsEnd
    | cons located rest =>
      obtain ⟨-, facesRest, performs⟩ := advance_sound faces ran
      obtain ⟨used, others, actions, rfl, word, facesOthers, performsMore⟩ :=
        second.sound between rest result after facesRest trivial continued
      exact ⟨located :: used, others, actions, rfl, ⟨_, _, started, rfl, word⟩, facesOthers,
        performs.trans performsMore⟩
  complete := by
    intro state used rest result actions final faces faultless word stopped allowed
    obtain ⟨token, tokens, -, spelled, word⟩ := word
    obtain ⟨located, others, rfl, -, rfl⟩ := List.map_eq_cons_iff.mp spelled
    obtain ⟨between, ran⟩ := advance_complete faces faultless
    obtain ⟨-, facesRest, performs⟩ := advance_sound faces ran
    have sameAccount : between.account = state.account := (Except.ok.inj performs.account).symm
    obtain ⟨after, continued, facesAfter, performsMore⟩ :=
      second.complete between others rest result actions final facesRest
        (performs.faultless faultless) word stopped (by rw [sameAccount]; exact allowed)
    exact ⟨after, (bind_ok ran).trans continued, facesAfter, performs.trans performsMore⟩
  blocked := by
    intro state used rest result actions refusal faces faultless word stopped refused
    obtain ⟨token, tokens, -, spelled, word⟩ := word
    obtain ⟨located, others, rfl, -, rfl⟩ := List.map_eq_cons_iff.mp spelled
    obtain ⟨between, ran⟩ := advance_complete faces faultless
    obtain ⟨-, facesRest, performs⟩ := advance_sound faces ran
    have sameAccount : between.account = state.account := (Except.ok.inj performs.account).symm
    obtain ⟨failure, after, line, failed, cause⟩ :=
      second.blocked between others rest result actions refusal facesRest
        (performs.faultless faultless) word stopped (by rw [sameAccount]; exact refused)
    exact ⟨failure, after, line, (bind_ok ran).trans failed, cause⟩
  explained := by
    intro state tokens failure after faces started failed
    rcases bind_eq_error failed with failedMove | ⟨middle, between, ran, failedNext⟩
    · exact explained_advance faces failedMove
    · cases tokens with
      | nil => exact absurd started rejectsEnd
      | cons located rest =>
        obtain ⟨-, facesRest, performs⟩ := advance_sound faces ran
        obtain ⟨used, others, done, rfl, facesOthers, performsMore, stuck⟩ :=
          second.explained between rest failure after facesRest trivial failedNext
        refine ⟨located :: used, others, done, rfl, facesOthers, performs.trans performsMore, ?_⟩
        exact stuck.map [located.token] [] fun result _ _ word =>
          ⟨result, _, _, started, rfl, word⟩
  fills := by
    intro account
    obtain ⟨token, readable, passes⟩ := sample
    obtain ⟨result, tokens, actions, final, word, readableMore, performed⟩ := second.fills account
    exact ⟨result, token :: tokens, actions, final, ⟨token, tokens, passes, rfl, word⟩,
      List.forall_mem_cons.mpr ⟨readable, readableMore⟩, performed⟩

omit [Sink σ] in
theorem expect_eq (wanted : Kind) (state : State σ) :
    expect wanted state =
      if state.current.kind = wanted then advance state
      else refuse (.unexpectedToken wanted state.current.kind) state := by
  change (if _ then advance else refuse _ : Pass σ Located) state = _
  split <;> rfl

omit [Sink σ] in
theorem expect_bind_eq (wanted : Kind) (next : Pass σ α) (state : State σ) :
    (expect wanted >>= fun _ => next) state =
      if state.current.kind = wanted then (advance >>= fun _ => next) state
      else refuse (.unexpectedToken wanted state.current.kind) state := by
  change EStateM.bind (expect wanted) _ state = _
  unfold EStateM.bind
  rw [expect_eq]
  by_cases found : state.current.kind = wanted
  · simp only [if_pos found]
    rfl
  · simp only [if_neg found]
    rfl

/-- A token of the wanted kind, and then something else. -/
theorem Translates.expect_bind (wanted : Kind) {next : Pass σ β} {more : β → Words}
    {ends : Kind → Prop} (notEnd : wanted ≠ .endOfInput)
    (second : Translates next anyKind more ends) :
    Translates (expect wanted >>= fun _ => next) anyKind
      (fun result read done =>
        ∃ token tokens, token.kind = wanted ∧ read = token :: tokens ∧ more result tokens done)
      ends := by
  have moving := second.advance_bind (fun kind => kind = wanted) (Ne.symm notEnd)
    (exists_readable notEnd)
  refine moving.guarded _ (expect_bind_eq wanted next) (fun _ => rfl) ?_
  rintro result _ actions ⟨token, tokens, kind, rfl, -⟩
  exact ⟨token, tokens, rfl, kind⟩

theorem copyToken_sound {state after : State σ} {located : Located} {rest : List Located}
    (faces : state.Faces (located :: rest)) (success : copyToken state = .ok () after) :
    after.Faces rest ∧ state.Performs [copied located.token] after := by
  obtain ⟨middle, between, ran, wrote⟩ := bind_eq_ok success
  obtain ⟨rfl, facesRest, performs⟩ := advance_sound faces ran
  cases wrote
  refine ⟨facesRest.of_same_input rfl rfl rfl, ?_⟩
  exact performs.trans ⟨rfl, rfl, rfl⟩

theorem copyToken_complete {state : State σ} {located : Located} {rest : List Located}
    (faces : state.Faces (located :: rest)) (faultless : state.feed.Faultless) :
    ∃ after, copyToken state = .ok () after := by
  obtain ⟨between, ran⟩ := advance_complete faces faultless
  exact ⟨_, bind_ok ran⟩

/-- Copying a token fails where moving on does. -/
theorem copyToken_eq_error {state after : State σ} {failure : Failure}
    (failed : copyToken state = .error failure after) : advance state = .error failure after := by
  rcases bind_eq_error failed with failedMove | ⟨_, _, _, impossible⟩
  · exact failedMove
  · cases impossible

/-- Moving on over a token and performing actions that depend on it. -/
theorem Translates.advance_write (test : Kind → Prop) (rejectsEnd : ¬ test .endOfInput)
    (sample : ∃ token : Token, token.Readable ∧ test token.kind) {step : Token → Pass σ Unit}
    {actions : Token → List Action}
    (writes : ∀ token, Translates (step token) anyKind (fun _ => Words.only [] (actions token)) anyKind) :
    Translates (advance >>= fun here => step here.token) test
      (fun _ read done => ∃ token, test token.kind ∧ read = [token] ∧ done = actions token)
      anyKind where
  sound := by
    intro state tokens result after faces started success
    obtain ⟨here, between, ran, wrote⟩ := bind_eq_ok success
    cases tokens with
    | nil => exact absurd started rejectsEnd
    | cons located rest =>
      obtain ⟨rfl, facesRest, performs⟩ := advance_sound faces ran
      obtain ⟨facesAfter, performsMore⟩ := (writes here.token).sound_only facesRest wrote
      exact ⟨[here], rest, _, rfl, ⟨here.token, started, rfl, rfl⟩, facesAfter,
        performs.trans performsMore⟩
  complete := by
    intro state used rest result done final faces faultless word _ allowed
    obtain ⟨token, -, spelled, rfl⟩ := word
    obtain ⟨located, rfl, rfl⟩ := exists_located_of_map_eq spelled
    obtain ⟨between, ran⟩ := advance_complete faces faultless
    obtain ⟨-, facesRest, performs⟩ := advance_sound faces ran
    have sameAccount : between.account = state.account := (Except.ok.inj performs.account).symm
    obtain ⟨after, wrote, facesAfter, performsMore⟩ :=
      (writes located.token).complete_only facesRest (performs.faultless faultless)
        (by rw [sameAccount]; exact allowed)
    exact ⟨after, (bind_ok ran).trans wrote, facesAfter, performs.trans performsMore⟩
  blocked := by
    intro state used rest result done refusal faces faultless word _ refused
    obtain ⟨token, -, spelled, rfl⟩ := word
    obtain ⟨located, rfl, rfl⟩ := exists_located_of_map_eq spelled
    obtain ⟨between, ran⟩ := advance_complete faces faultless
    obtain ⟨-, facesRest, performs⟩ := advance_sound faces ran
    have sameAccount : between.account = state.account := (Except.ok.inj performs.account).symm
    obtain ⟨failure, after, line, failed, cause⟩ :=
      (writes located.token).blocked between [] rest () _ refusal facesRest
        (performs.faultless faultless) ⟨rfl, rfl⟩ trivial (by rw [sameAccount]; exact refused)
    exact ⟨failure, after, line, (bind_ok ran).trans failed, cause⟩
  explained := by
    intro state tokens failure after faces started failed
    rcases bind_eq_error failed with failedMove | ⟨here, between, ran, failedWrite⟩
    · exact explained_advance faces failedMove
    · cases tokens with
      | nil => exact absurd started rejectsEnd
      | cons located rest =>
        obtain ⟨rfl, facesRest, performs⟩ := advance_sound faces ran
        obtain ⟨used, others, done, rfl, facesOthers, performsMore, stuck⟩ :=
          (writes here.token).explained between rest failure after facesRest trivial failedWrite
        refine ⟨here :: used, others, done, rfl, facesOthers, performs.trans performsMore, ?_⟩
        refine stuck.map [here.token] [] ?_
        rintro result _ _ ⟨rfl, rfl⟩
        exact ⟨(), here.token, started, rfl, rfl⟩
  fills := by
    intro account
    obtain ⟨token, readable, passes⟩ := sample
    obtain ⟨_, _, _, final, ⟨rfl, rfl⟩, -, performed⟩ := (writes token).fills account
    exact ⟨(), [token], actions token, final, ⟨token, passes, rfl, rfl⟩, by simpa using readable,
      performed⟩

theorem translates_copyToken (test : Kind → Prop) (rejectsEnd : ¬ test .endOfInput)
    (sample : ∃ token : Token, token.Readable ∧ test token.kind) :
    Translates (copyToken : Pass σ Unit) test (fun _ => Words.token test) anyKind :=
  Translates.advance_write test rejectsEnd sample fun token => translates_emit token.text

/-! ## Trees -/

section Trees

variable {tree : Type} {tokens : tree → List Token} {actions : tree → List Action}
  {stops : Kind → Prop}

/-- Two steps that only perform actions. -/
theorem Translates.write_write {step next : Pass σ Unit} {before after : List Action}
    (first : Translates step anyKind (fun _ => Words.only [] before) anyKind)
    (second : Translates next anyKind (fun _ => Words.only [] after) anyKind) :
    Translates (step >>= fun _ => next) anyKind (fun _ => Words.only [] (before ++ after))
      anyKind := by
  refine (first.bind_step (fun _ => second) fun _ _ _ _ _ _ _ => trivial).congr fun _ read done => ?_
  constructor
  · rintro ⟨_, _, _, _, _, rfl, rfl, ⟨rfl, rfl⟩, rfl, rfl⟩
    exact ⟨rfl, rfl⟩
  · rintro ⟨rfl, rfl⟩
    exact ⟨(), [], [], before, after, rfl, rfl, ⟨rfl, rfl⟩, rfl, rfl⟩

/-- A step that only performs actions, before a tree. -/
theorem translates_forM {step : String → Pass σ Unit} {action : String → Action}
    (each : ∀ line, Translates (step line) anyKind (fun _ => Words.only [] [action line]) anyKind)
    (lines : List String) :
    Translates (lines.forM step) anyKind (fun _ => Words.only [] (lines.map action)) anyKind := by
  induction lines with
  | nil => exact translates_of_total fun state => ⟨state, rfl, rfl, rfl, rfl, rfl, rfl⟩
  | cons line lines ih => exact (each line).write_write ih

theorem Translates.write_bind {step next : Pass σ Unit} {before : List Action}
    (first : Translates step anyKind (fun _ => Words.only [] before) anyKind)
    (second : Translates next anyKind (fun _ => Words.spelled tokens actions) stops) :
    Translates (step >>= fun _ => next) anyKind
      (fun _ => Words.spelled tokens fun tree => before ++ actions tree) stops := by
  refine (first.bind_step (fun _ => second) fun _ _ _ _ _ _ _ => trivial).congr fun _ read done => ?_
  constructor
  · rintro ⟨_, _, _, _, _, rfl, rfl, ⟨rfl, rfl⟩, tree, rfl, rfl⟩
    exact ⟨tree, rfl, rfl⟩
  · rintro ⟨tree, rfl, rfl⟩
    exact ⟨(), [], _, before, _, rfl, rfl, ⟨rfl, rfl⟩, tree, rfl, rfl⟩

/-- A step that only performs actions, after a tree. -/
theorem Translates.bind_write {step next : Pass σ Unit} {starts : Kind → Prop}
    {after : List Action}
    (first : Translates step starts (fun _ => Words.spelled tokens actions) stops)
    (second : Translates next anyKind (fun _ => Words.only [] after) anyKind) :
    Translates (step >>= fun _ => next) starts
      (fun _ => Words.spelled tokens fun tree => actions tree ++ after) stops := by
  refine (first.bind_step (fun _ => second.weaken fun _ _ => trivial) ?_).congr fun _ read done => ?_
  · rintro _ _ _ _ kind ⟨rfl, -⟩ stopped
    exact stopped
  · constructor
    · rintro ⟨_, _, _, _, _, rfl, rfl, ⟨tree, rfl, rfl⟩, rfl, rfl⟩
      exact ⟨tree, by simp, rfl⟩
    · rintro ⟨tree, rfl, rfl⟩
      exact ⟨(), _, [], _, after, by simp, rfl, ⟨tree, rfl, rfl⟩, rfl, rfl⟩

/-- Two trees one after the other. -/
theorem Translates.bind_tree {step next : Pass σ Unit} {starts ends : Kind → Prop} {other : Type}
    {moreTokens : other → List Token} {moreActions : other → List Action}
    (first : Translates step starts (fun _ => Words.spelled tokens actions) stops)
    (second : Translates next anyKind (fun _ => Words.spelled moreTokens moreActions) ends)
    (follows : ∀ other kind, ends kind → stops (leads (moreTokens other) kind)) :
    Translates (step >>= fun _ => next) starts
      (fun _ => Words.spelled (fun pair : tree × other => tokens pair.1 ++ moreTokens pair.2)
        fun pair => actions pair.1 ++ moreActions pair.2) ends := by
  refine (first.bind_step (fun _ => second) ?_).congr fun _ read done => ?_
  · rintro _ _ _ _ kind ⟨other, rfl, -⟩ ended
    exact follows other kind ended
  · constructor
    · rintro ⟨_, _, _, _, _, rfl, rfl, ⟨tree, rfl, rfl⟩, other, rfl, rfl⟩
      exact ⟨(tree, other), rfl, rfl⟩
    · rintro ⟨⟨tree, other⟩, rfl, rfl⟩
      exact ⟨(), _, _, _, _, rfl, rfl, ⟨tree, rfl, rfl⟩, other, rfl, rfl⟩

/-- A fixed token before a tree. -/
theorem Translates.expect_tree {next : Pass σ Unit} (token : Token)
    (notEnd : token.kind ≠ .endOfInput)
    (fixed : ∀ other : Token, other.kind = token.kind → other = token)
    (second : Translates next anyKind (fun _ => Words.spelled tokens actions) stops) :
    Translates (expect token.kind >>= fun _ => next) anyKind
      (fun _ => Words.spelled (fun tree => token :: tokens tree) actions) stops := by
  refine (second.expect_bind token.kind notEnd).congr fun _ read done => ?_
  constructor
  · rintro ⟨other, _, sameKind, rfl, tree, rfl, rfl⟩
    obtain rfl := fixed other sameKind
    exact ⟨tree, rfl, rfl⟩
  · rintro ⟨tree, rfl, rfl⟩
    exact ⟨token, _, rfl, rfl, tree, rfl, rfl⟩

end Trees

end Writing

end Pass

end TeenyBasic
