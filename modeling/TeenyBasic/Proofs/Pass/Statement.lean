import TeenyBasic.Pass.Statement
import TeenyBasic.Proofs.Grammar.Unambiguous
import TeenyBasic.Proofs.Pass.Expression

/-!
Lines are translated as the grammar says. One turn of the pass reads exactly one line with its end,
performs the line's actions and changes the open blocks as the line says (`turn_sound`,
`turn_complete`).
-/

set_option autoImplicit false

namespace TeenyBasic.Pass

open Grammar

variable {σ : Type} [Sink σ]

/-! ## Line ends -/

theorem Token.isNewline_kind_iff {token : Token} :
    token.kind.isNewline = true ↔ token = .newline := by
  cases token <;> simp [Token.kind, Kind.isNewline]

/-- A line end is over where no further one follows. -/
def endsLine (kind : Kind) : Prop :=
  kind.isNewline = false

theorem translates_nextLine :
    Translates (nextLine : Pass σ Unit) anyKind (fun _ => Words.only [] []) anyKind :=
  translates_of_total fun _ => ⟨_, rfl, rfl, rfl, rfl, rfl, rfl⟩

theorem translates_lineEnd :
    Translates (lineEnd : Pass σ Unit) (fun kind => kind.isNewline = true)
      (fun _ => Words.only [.newline] []) anyKind := by
  have moving := (translates_nextLine (σ := σ)).advance_bind (fun kind => kind.isNewline = true)
    (by simp [Kind.isNewline]) ⟨.newline, Token.readable_newline, rfl⟩
  refine moving.congr fun _ tokens actions => ?_
  constructor
  · rintro ⟨token, _, isNewline, rfl, rfl, rfl⟩
    cases token with
    | newline => exact ⟨rfl, rfl⟩
    | _ => cases isNewline
  · rintro ⟨rfl, rfl⟩
    exact ⟨.newline, [], rfl, rfl, rfl, rfl⟩

private theorem many_newline_iff {tokens : List Token} {actions : List Action} :
    Words.Many (Words.only [.newline] []) tokens actions ↔
      ∃ count, tokens = List.replicate count .newline ∧ actions = [] := by
  constructor
  · intro many
    induction many with
    | nil => exact ⟨0, rfl, rfl⟩
    | cons word _ ih =>
      obtain ⟨rfl, rfl⟩ := word
      obtain ⟨count, rfl, rfl⟩ := ih
      exact ⟨count + 1, rfl, rfl⟩
  · rintro ⟨count, rfl, rfl⟩
    induction count with
    | zero => exact .nil
    | succ count ih =>
      exact (.cons ⟨rfl, rfl⟩ ih :
        Words.Many _ ([.newline] ++ List.replicate count .newline) ([] ++ []))

theorem translates_blankLines :
    Translates (blankLines : Pass σ Unit) anyKind
      (fun _ tokens actions => ∃ count, tokens = List.replicate count .newline ∧ actions = [])
      endsLine := by
  have loop := (translates_lineEnd (σ := σ)).repeatWhile uses_lineEnd
    (by rintro _ _ ⟨rfl, rfl⟩; exact ⟨.newline, [], rfl, rfl⟩) fun _ _ => trivial
  exact (loop.weaken fun _ ends => ⟨trivial, ends⟩).congr fun _ _ _ => many_newline_iff

/-- One line end and `count` more. -/
def endTokens (count : Nat) : List Token :=
  List.replicate (count + 1) .newline

theorem lineEnds_endTokens (count : Nat) : LineEnds (endTokens count) :=
  ⟨count, rfl⟩

theorem translates_endOfLine :
    Translates (endOfLine : Pass σ Unit) anyKind (fun _ => Words.spelled endTokens fun _ => [])
      endsLine := by
  have blank := (translates_nextLine (σ := σ)).bind_step (fun _ => translates_blankLines)
    fun _ _ _ _ _ _ _ => trivial
  refine (blank.expect_bind .newline (by simp)).congr fun _ tokens actions => ?_
  constructor
  · rintro ⟨token, _, isNewline, rfl, _, _, _, _, _, rfl, rfl, ⟨rfl, rfl⟩, count, rfl, rfl⟩
    cases token with
    | newline => exact ⟨count, rfl, rfl⟩
    | _ => cases isNewline
  · rintro ⟨count, rfl, rfl⟩
    exact ⟨.newline, _, rfl, rfl, (), [], _, [], [], rfl, rfl, ⟨rfl, rfl⟩, count, rfl, rfl⟩

/-! ## Names -/

omit [Sink σ] in
theorem freshName_eq (state : State σ) :
    freshName state =
      match state.current.token with
      | .name name =>
        if isReserved name then refuse (.reservedName name) state
        else (advance >>= fun _ => pure name) state
      | other => refuse (.unexpectedToken .name other.kind) state := by
  change (match state.current.token with
    | .name name => if isReserved name then _ else _
    | other => refuse (.unexpectedToken .name other.kind) : Pass σ String) state = _
  cases state.current.token with
  | name name => cases reserved : isReserved name <;> simp [reserved]
  | _ => rfl

omit [Sink σ] in
theorem freshName_of_name {state : State σ} {name : String}
    (current : state.current.token = .name name) (fresh : isReserved name = false) :
    freshName state = (advance >>= fun _ => pure name) state := by
  simp [freshName_eq, current, fresh]

omit [Sink σ] in
theorem freshName_of_reserved {state : State σ} {name : String}
    (current : state.current.token = .name name) (reserved : isReserved name = true) :
    freshName state = .error (refusedAt state (.reservedName name)) state := by
  simp [freshName_eq, current, reserved, refuse, refusedAt]

omit [Sink σ] in
theorem freshName_eq_ok {state after : State σ} {result : String}
    (success : freshName state = .ok result after) :
    state.current.token = .name result ∧ isReserved result = false ∧
      ∃ located, advance state = .ok located after := by
  rw [freshName_eq] at success
  split at success
  · rename_i name current
    split at success
    · cases success
    · rename_i fresh
      obtain ⟨located, between, ran, returned⟩ := bind_eq_ok success
      cases returned
      exact ⟨current, by simpa using fresh, located, ran⟩
  · cases success

omit [Sink σ] in
/-- All the ways in which a new name is missing. -/
theorem freshName_eq_error {state after : State σ} {failure : Failure}
    (failed : freshName state = .error failure after) :
    (∃ name, state.current.token = .name name ∧ isReserved name = true ∧ after = state ∧
      failure = refusedAt state (.reservedName name)) ∨
    ((∀ name, state.current.token ≠ .name name) ∧ after = state ∧
      failure = refusedAt state (.unexpectedToken .name state.current.kind)) ∨
    advance state = .error failure after := by
  rw [freshName_eq] at failed
  cases current : state.current.token with
  | name name =>
    simp only [current] at failed
    split at failed
    · rename_i reserved
      cases failed
      exact .inl ⟨name, rfl, reserved, rfl, rfl⟩
    · rcases bind_eq_error failed with failedMove | ⟨_, _, _, impossible⟩
      · exact .inr (.inr failedMove)
      · cases impossible
  | _ =>
    simp only [current] at failed
    cases failed
    exact .inr (.inl ⟨by simp, rfl, by simp [refusedAt, Located.kind, current]⟩)

private theorem isReserved_x : isReserved "x" = false := by
  decide

private theorem performs_introduced {state : State σ} {name : String}
    (fresh : isReserved name = false) :
    state.Performs [.occur (.introduced name)] state where
  account := by
    rw [Account.performAll_singleton]
    exact Account.perform_occur_eq_ok.mpr (.introduced fresh)
  blocks := rfl
  ending := rfl

theorem translates_freshName :
    Translates (freshName : Pass σ String) anyKind
      (fun name => Words.only [.name name] [.occur (.introduced name)]) anyKind where
  sound := by
    intro state tokens name after faces _ success
    obtain ⟨current, fresh, located, ran⟩ := freshName_eq_ok success
    obtain ⟨rest, rfl⟩ := faces.eq_cons (by simp [current])
    obtain ⟨-, facesRest, performs⟩ := advance_sound faces ran
    exact ⟨[state.current], rest, _, rfl, ⟨by simp [current], rfl⟩, facesRest,
      (performs_introduced fresh).trans performs⟩
  complete := by
    intro state used rest name actions final faces faultless word _ allowed
    obtain ⟨spelled, rfl⟩ := word
    obtain ⟨located, rfl, token⟩ := exists_located_of_map_eq spelled
    rw [Account.performAll_singleton] at allowed
    have fresh := Account.unreserved_of_perform allowed
    obtain ⟨after, ran⟩ := advance_complete faces faultless
    obtain ⟨-, facesRest, performs⟩ := advance_sound faces ran
    have current : state.current.token = .name name := by rw [faces.of_current.1, token]
    exact ⟨after, (freshName_of_name current fresh).trans (bind_ok ran), facesRest,
      (performs_introduced fresh).trans performs⟩
  blocked := by
    intro state used rest name actions refusal faces _ word _ refused
    obtain ⟨spelled, rfl⟩ := word
    obtain ⟨located, rfl, token⟩ := exists_located_of_map_eq spelled
    have current : state.current.token = .name name := by rw [faces.of_current.1, token]
    rw [Account.performAll_singleton] at refused
    cases Account.perform_occur_eq_error.mp refused with
    | introduced reserved => exact ⟨_, state, state.line, freshName_of_reserved current reserved, rfl⟩
  explained := by
    intro state tokens failure after faces _ failed
    rcases freshName_eq_error failed with ⟨name, current, reserved, rfl, rfl⟩ |
      ⟨notName, rfl, rfl⟩ | failedMove
    · exact ⟨[], tokens, [], rfl, faces, .refl _,
        .disallowed name [] rfl current ⟨rfl, rfl⟩ (by simp)⟩
    · exact ⟨[], tokens, [], rfl, faces, .refl _,
        .misplaced "x" _ rfl ⟨rfl, rfl⟩ (by simpa using Token.readable_x)
          (performs_introduced isReserved_x).account⟩
    · exact explained_advance faces failedMove
  fills := by
    intro account
    obtain ⟨state, rfl⟩ := State.exists_account account
    exact ⟨"x", [.name "x"], _, _, ⟨rfl, rfl⟩, by simpa using Token.readable_x,
      (performs_introduced isReserved_x).account⟩

theorem translates_declareVariable (name : String) :
    Translates (declareVariable name : Pass σ Unit) anyKind
      (fun _ => Words.only [] [.occur (.assigned name)]) anyKind := by
  refine translates_of_total fun state => ?_
  unfold declareVariable
  rw [Account.performAll_singleton]
  cases declared : state.declared.contains name with
  | true =>
    refine ⟨state, rfl, rfl, rfl, rfl, rfl, ?_⟩
    simp [Account.perform, Account.record, State.account, declared]
  | false =>
    refine ⟨_, rfl, rfl, rfl, rfl, rfl, ?_⟩
    simp [Account.perform, Account.record, State.account, declared]

theorem translates_addJump (label : String) (span : Span) :
    Translates (addJump label span : Pass σ Unit) anyKind
      (fun _ => Words.only [] [.occur (.jumped label)]) anyKind :=
  translates_of_total fun _ => ⟨_, rfl, rfl, rfl, rfl, rfl, rfl⟩

omit [Sink σ] in
theorem labelName_of_fresh {state : State σ} {name : String}
    (current : state.current.token = .name name) (vacant : name ∉ state.labels.names) :
    labelName state = freshName state := by
  simp [labelName, current, Labels.contains, vacant]

omit [Sink σ] in
theorem labelName_eq_ok {state after : State σ} {name : String}
    (success : labelName state = .ok name after) :
    name ∉ state.labels.names ∧ freshName state = .ok name after := by
  unfold labelName at success
  split at success
  · rename_i found current
    split at success
    · cases success
    · rename_i vacant
      obtain ⟨sameName, -⟩ := freshName_eq_ok success
      rw [current] at sameName
      cases sameName
      exact ⟨by simpa [Labels.contains] using vacant, success⟩
  · rename_i notName
    obtain ⟨sameName, -⟩ := freshName_eq_ok success
    exact absurd sameName (notName name)

omit [Sink σ] in
theorem labelName_of_taken {state : State σ} {name : String}
    (current : state.current.token = .name name) (taken : name ∈ state.labels.names) :
    labelName state = .error (refusedAt state (.duplicateLabel name)) state := by
  simp [labelName, current, Labels.contains, taken, refuse, refusedAt]

omit [Sink σ] in
/-- All the ways in which the name of a new label is missing. -/
theorem labelName_eq_error {state after : State σ} {failure : Failure}
    (failed : labelName state = .error failure after) :
    (∃ name, state.current.token = .name name ∧ name ∈ state.labels.names ∧ after = state ∧
      failure = refusedAt state (.duplicateLabel name)) ∨
    freshName state = .error failure after := by
  unfold labelName at failed
  split at failed
  · rename_i name current
    split at failed
    · rename_i taken
      cases failed
      exact .inl ⟨name, current, by simpa [Labels.contains] using taken, rfl, rfl⟩
    · exact .inr failed
  · exact .inr failed

private theorem length_of_isReserved {name : String} (reserved : isReserved name = true) :
    name.length < 10 := by
  have short : ∀ reserved ∈ reservedNames, reserved.length < 10 := by decide
  exact short name (by simpa [isReserved] using reserved)

private theorem length_of_ofWord? {word : String} {keyword : Keyword}
    (found : Keyword.ofWord? word = some keyword) : word.length < 10 := by
  have short : ∀ keyword ∈ Keyword.all, keyword.spelling.length < 10 := by decide
  have spelled : keyword.spelling = word := by simpa using List.find?_some found
  exact spelled ▸ short keyword (List.mem_of_find?_eq_some found)

private theorem exists_longer (names : List String) :
    ∃ size, 10 ≤ size ∧ ∀ name ∈ names, name.length < size := by
  induction names with
  | nil => exact ⟨10, Nat.le_refl _, by simp⟩
  | cons first rest ih =>
    obtain ⟨size, enough, longer⟩ := ih
    refine ⟨size + first.length + 1, by omega, List.forall_mem_cons.mpr ⟨by omega, ?_⟩⟩
    intro name member
    have := longer name member
    omega

/-- There is a name for a label, whichever labels have been placed. -/
theorem exists_vacant (taken : List String) :
    ∃ name, (Token.name name).Readable ∧ isReserved name = false ∧ name ∉ taken := by
  -- The name is longer than all that have been taken, every reserved name and every keyword.
  obtain ⟨size, enough, longer⟩ := exists_longer taken
  let name := String.ofList (List.replicate size 'x')
  have length : name.length = size := by simp [name]
  have letters : ∀ c ∈ name.toList, c.isAlpha = true := by
    simp only [name, String.toList_ofList, List.mem_replicate]
    rintro c ⟨-, rfl⟩
    rfl
  have notKeyword : Keyword.ofWord? name = none := by
    cases found : Keyword.ofWord? name with
    | none => rfl
    | some keyword =>
      have short := length_of_ofWord? found
      omega
  have nonempty : name.toList ≠ [] := by
    simp [name]
    omega
  refine ⟨name, ⟨⟨nonempty, letters, notKeyword⟩, by simp⟩, ?_, ?_⟩
  · cases reserved : isReserved name with
    | false => rfl
    | true =>
      have short := length_of_isReserved reserved
      omega
  · intro member
    have short := longer name member
    omega

/-! ## Simple statements -/

/-- A new name, and then something that only performs actions. -/
theorem Translates.freshName_write {next : String → Pass σ Unit} {actions : String → List Action}
    (second : ∀ name, Translates (next name) anyKind (fun _ => Words.only [] (actions name))
      anyKind) :
    Translates (freshName >>= next) anyKind
      (fun _ => Words.spelled (fun name => [.name name])
        fun name => .occur (.introduced name) :: actions name) anyKind := by
  refine (translates_freshName.bind_step second fun _ _ _ _ _ _ _ => trivial).congr
    fun _ read done => ?_
  constructor
  · rintro ⟨name, _, _, _, _, rfl, rfl, ⟨rfl, rfl⟩, rfl, rfl⟩
    exact ⟨name, rfl, rfl⟩
  · rintro ⟨name, rfl, rfl⟩
    exact ⟨name, [.name name], [], [_], _, rfl, rfl, ⟨rfl, rfl⟩, rfl, rfl⟩

/-- A new name, and then a tree. -/
theorem Translates.freshName_tree {tree : Type} {tokens : tree → List Token}
    {actions : String → tree → List Action} {stops : Kind → Prop} {next : String → Pass σ Unit}
    (second : ∀ name, Translates (next name) anyKind
      (fun _ => Words.spelled tokens (actions name)) stops) :
    Translates (freshName >>= next) anyKind
      (fun _ => Words.spelled (fun pair : String × tree => .name pair.1 :: tokens pair.2)
        fun pair => .occur (.introduced pair.1) :: actions pair.1 pair.2) stops := by
  refine (translates_freshName.bind_step second fun _ _ _ _ _ _ _ => trivial).congr
    fun _ read done => ?_
  constructor
  · rintro ⟨name, _, _, _, _, rfl, rfl, ⟨rfl, rfl⟩, tree, rfl, rfl⟩
    exact ⟨(name, tree), rfl, rfl⟩
  · rintro ⟨⟨name, tree⟩, rfl, rfl⟩
    exact ⟨name, [.name name], _, [_], _, rfl, rfl, ⟨rfl, rfl⟩, tree, rfl, rfl⟩

/-- Placing a label and writing it down. -/
theorem placeLabel_emitLine {state : State σ} {name : String} (vacant : name ∉ state.labels.names)
    (fresh : isReserved name = false) :
    ∃ after, (do placeLabel name; emitLine (CLines.label name) : Pass σ Unit) state = .ok () after ∧
      after.current = state.current ∧ after.upcoming = state.upcoming ∧ after.feed = state.feed ∧
      state.Performs (Simple.label name).actions after := by
  refine ⟨_, rfl, rfl, rfl, rfl, ?_, rfl, rfl⟩
  have placed : state.account.perform (.occur (.placed name)) =
      .ok { state.account with labels := name :: state.account.labels } :=
    Account.perform_occur_eq_ok.mpr (.placed vacant)
  refine Account.performAll_cons_eq_ok.mpr ⟨_, placed, ?_⟩
  refine Account.performAll_cons_eq_ok.mpr
    ⟨_, Account.perform_occur_eq_ok.mpr (.introduced fresh), ?_⟩
  rw [Account.performAll_singleton]
  simp [Account.perform, State.account, Labels.insert, Labels.contains, vacant, Sink.perform]

theorem translates_labelStatement :
    Translates (labelStatement : Pass σ Unit) anyKind
      (fun _ => Words.spelled (fun name => [.name name]) fun name => (Simple.label name).actions)
      anyKind where
  sound := by
    intro state tokens result after faces _ success
    obtain ⟨name, between, named, continued⟩ := bind_eq_ok success
    obtain ⟨vacant, fresh⟩ := labelName_eq_ok named
    obtain ⟨current, notReserved, located, ran⟩ := freshName_eq_ok fresh
    obtain ⟨rest, rfl⟩ := faces.eq_cons (by simp [current])
    obtain ⟨-, facesRest, performs⟩ := advance_sound faces ran
    have sameAccount : between.account = state.account := (Except.ok.inj performs.account).symm
    have sameLabels : between.labels.names = state.labels.names := congrArg Account.labels sameAccount
    obtain ⟨placed, done, sameCurrent, sameUpcoming, sameFeed, performsMore⟩ :=
      placeLabel_emitLine (sameLabels ▸ vacant) notReserved
    rw [show _ = _ from done] at continued
    cases continued
    exact ⟨[state.current], rest, _, rfl, ⟨name, by simp [current], rfl⟩,
      facesRest.of_same_input sameCurrent sameUpcoming sameFeed, performs.trans performsMore⟩
  complete := by
    intro state used rest result actions final faces faultless word _ allowed
    obtain ⟨name, spelled, rfl⟩ := word
    obtain ⟨located, rfl, token⟩ := exists_located_of_map_eq spelled
    obtain ⟨placed, vacantStep, allowedRest⟩ := Account.performAll_cons_eq_ok.mp allowed
    have vacant : name ∉ state.labels.names := by
      cases Account.perform_occur_eq_ok.mp vacantStep with
      | placed vacant => exact vacant
    obtain ⟨_, freshStep, -⟩ := Account.performAll_cons_eq_ok.mp allowedRest
    have fresh := Account.unreserved_of_perform freshStep
    obtain ⟨between, ran⟩ := advance_complete faces faultless
    obtain ⟨-, facesRest, performs⟩ := advance_sound faces ran
    have sameAccount : between.account = state.account := (Except.ok.inj performs.account).symm
    have sameLabels : between.labels.names = state.labels.names := congrArg Account.labels sameAccount
    obtain ⟨after, done, sameCurrent, sameUpcoming, sameFeed, performsMore⟩ :=
      placeLabel_emitLine (sameLabels ▸ vacant) fresh
    have current : state.current.token = .name name := by rw [faces.of_current.1, token]
    have named : labelName state = .ok name between := by
      rw [labelName_of_fresh current vacant, freshName_of_name current fresh]
      exact bind_ok ran
    exact ⟨after, (bind_ok named).trans done,
      facesRest.of_same_input sameCurrent sameUpcoming sameFeed, performs.trans performsMore⟩
  blocked := by
    intro state used rest result actions refusal faces _ word _ refused
    obtain ⟨name, spelled, rfl⟩ := word
    obtain ⟨located, rfl, token⟩ := exists_located_of_map_eq spelled
    have current : state.current.token = .name name := by rw [faces.of_current.1, token]
    rcases Account.performAll_cons_eq_error.mp refused with refusedPlace | ⟨_, placed, refusedRest⟩
    · cases Account.perform_occur_eq_error.mp refusedPlace with
      | placed taken =>
        exact ⟨_, state, state.line, bind_error (labelName_of_taken current taken), rfl⟩
    · cases Account.perform_occur_eq_ok.mp placed with
      | placed vacant =>
        rcases Account.performAll_cons_eq_error.mp refusedRest with refusedName | ⟨_, _, impossible⟩
        · cases Account.perform_occur_eq_error.mp refusedName with
          | introduced reserved =>
            have named : labelName state = _ :=
              (labelName_of_fresh current vacant).trans (freshName_of_reserved current reserved)
            exact ⟨_, state, state.line, bind_error named, rfl⟩
        · cases impossible
  explained := by
    intro state tokens failure after faces _ failed
    rcases bind_eq_error failed with failedName | ⟨_, _, _, impossible⟩
    · rcases labelName_eq_error failedName with ⟨name, current, taken, rfl, rfl⟩ | failedName
      · exact ⟨[], tokens, [], rfl, faces, .refl _,
          .disallowed () [] rfl current ⟨name, rfl, rfl⟩ (by simp)⟩
      · rcases freshName_eq_error failedName with ⟨name, current, reserved, rfl, rfl⟩ |
          ⟨notName, rfl, rfl⟩ | failedMove
        · exact ⟨[], tokens, [], rfl, faces, .refl _,
            .disallowed () [] rfl current ⟨name, rfl, rfl⟩ (by simp)⟩
        · obtain ⟨name, readable, fresh, vacant⟩ := exists_vacant after.labels.names
          obtain ⟨placed, _, _, _, _, performs⟩ := placeLabel_emitLine vacant fresh
          exact ⟨[], tokens, [], rfl, faces, .refl _, .misplaced () _ rfl ⟨name, rfl, rfl⟩
            (by simpa using readable) performs.account⟩
        · exact explained_advance faces failedMove
    · cases impossible
  fills := by
    intro account
    obtain ⟨state, rfl⟩ := State.exists_account account
    obtain ⟨name, readable, fresh, vacant⟩ := exists_vacant state.labels.names
    obtain ⟨placed, _, _, _, _, performs⟩ := placeLabel_emitLine vacant fresh
    exact ⟨(), [.name name], _, _, ⟨name, rfl, rfl⟩, by simpa using readable, performs.account⟩

theorem translates_gotoStatement :
    Translates (gotoStatement : Pass σ Unit) anyKind
      (fun _ => Words.spelled (fun name => [.name name]) fun name => (Simple.goto name).actions)
      anyKind := by
  have jumping := fun span => Translates.freshName_write (σ := σ) fun name =>
    (translates_addJump name span).write_write (translates_emitLine (CLines.jump name))
  exact
    { sound := fun state => (jumping state.current.span).sound state
      complete := fun state => (jumping state.current.span).complete state
      blocked := fun state => (jumping state.current.span).blocked state
      explained := fun state => (jumping state.current.span).explained state
      fills := (jumping { start := 0, stop := 0 }).fills }

theorem translates_letStatement :
    Translates (letStatement : Pass σ Unit) anyKind
      (fun _ => Words.spelled
        (fun target : String × Expression =>
          .name target.1 :: .operator .assign :: Expression.tokens target.2)
        fun target => (Simple.assign target.1 target.2).actions) endsExpression := by
  have value := (translates_expression (σ := σ)).bind_write
    (translates_emitLine CLines.assignmentClosing)
  have assigned := value.expect_tree (.operator .assign) (by simp [Token.kind]) fun other same => by
    cases other <;> simp_all [Token.kind]
  have whole := Translates.freshName_tree fun name =>
    (translates_declareVariable name).write_bind
      ((translates_emit (CLines.assignmentOpening name)).write_bind assigned)
  refine whole.congr fun _ read done => ?_
  simp [Words.spelled, Simple.actions]

theorem translates_inputStatement :
    Translates (inputStatement : Pass σ Unit) anyKind
      (fun _ => Words.spelled (fun name => [.name name]) fun name => (Simple.input name).actions)
      anyKind :=
  Translates.freshName_write fun name =>
    (translates_declareVariable name).write_write
      (translates_forM translates_emitLine (CLines.inputRead name))

theorem translates_randomStatement :
    Translates (randomStatement : Pass σ Unit) anyKind
      (fun _ => Words.spelled (fun name => [.name name]) fun name => (Simple.random name).actions)
      anyKind :=
  Translates.freshName_write fun name =>
    (translates_emitLine CLines.randomSeed).write_write
      (translates_emitLine (CLines.randomBinding name))

/-- What stands after `PRINT`. -/
inductive Printed where
  | text (body : String)
  | value (expression : Expression)

def Printed.statement : Printed → Simple
  | .text body => .printText body
  | .value expression => .printValue expression

def Printed.tokens : Printed → List Token
  | .text body => [.string body]
  | .value expression => Expression.tokens expression

omit [Sink σ] in
private theorem current_bind (next : Located → Pass σ Unit) (state : State σ) :
    (current >>= next) state = next state.current state :=
  rfl

theorem printStatement_eq :
    (printStatement : Pass σ Unit) = current >>= fun here =>
      if decide (here.kind = .string) then
        advance >>= fun here => emitLine (CLines.printString here.token.text)
      else (do emit CLines.printOpening; expression; emitLine CLines.printClosing) := by
  funext state
  rw [current_branch fun kind => decide (kind = .string)]
  rw [printStatement, current_bind, Located.kind]
  cases found : state.current.token with
  | string body =>
    change (advance >>= fun _ => emitLine (CLines.printString body)) state =
      (advance >>= fun here => emitLine (CLines.printString here.token.text)) state
    cases moved : advance state with
    | error failure after => rw [bind_error moved, bind_error moved]
    | ok here after =>
      rw [bind_ok moved, bind_ok moved, advance_result moved, found]
      rfl
  | _ => rfl

theorem translates_printStatement :
    Translates (printStatement : Pass σ Unit) anyKind
      (fun _ => Words.spelled Printed.tokens fun printed => printed.statement.actions)
      endsExpression := by
  have value := (translates_emit (σ := σ) CLines.printOpening).write_bind
    (translates_expression.bind_write (translates_emitLine CLines.printClosing))
  have text := Translates.advance_write (fun kind => decide (kind = .string) = true) (by simp)
    ⟨.string "", Token.readable_empty, rfl⟩ fun token =>
      translates_emitLine (σ := σ) (CLines.printString token.text)
  rw [printStatement_eq]
  refine ((text.weaken fun _ _ => trivial).branch _ value.of_any ?_ ?_).congr fun _ read done => ?_
  · rintro _ _ _ ⟨token, isString, rfl, -⟩
    exact ⟨token, [], rfl, isString⟩
  · rintro _ _ _ ⟨expression, rfl, -⟩
    obtain ⟨token, rest, tokens, starts⟩ := expression.head_tokens
    refine ⟨token, rest, tokens, ?_⟩
    cases token <;> simp_all [Token.kind, Kind.isSign]
  · constructor
    · rintro (⟨token, isString, rfl, rfl⟩ | ⟨expression, rfl, rfl⟩)
      · cases token with
        | string body => exact ⟨.text body, rfl, rfl⟩
        | _ => cases isString
      · exact ⟨.value expression, rfl, rfl⟩
    · rintro ⟨printed, rfl, rfl⟩
      cases printed with
      | text body => exact .inl ⟨.string body, rfl, rfl, rfl⟩
      | value expression => exact .inr ⟨expression, rfl, rfl⟩

/-! ## Whole lines -/

/-- The simple statements that start with a keyword, without that keyword. -/
def simpleRest (word : Keyword) : Words := fun read done =>
  ∃ statement count, .keyword word :: read = statement.tokens ++ endTokens count ∧
    done = Simple.actions statement

private theorem Translates.simple_line {tree : Type} {tokens : tree → List Token} {step : Pass σ Unit}
    {stops : Kind → Prop} (word : Keyword) (statement : tree → Simple)
    (translates : Translates step anyKind
      (fun _ => Words.spelled tokens fun tree => (statement tree).actions) stops)
    (stopsAtEnd : stops .newline)
    (starts : ∀ tree, (statement tree).tokens = .keyword word :: tokens tree)
    (all : ∀ other : Simple, (Line.simple other).keyword = word → ∃ tree, other = statement tree) :
    Translates (step >>= fun _ => endOfLine) anyKind (fun _ => simpleRest word) endsLine := by
  refine (translates.bind_tree translates_endOfLine fun _ _ _ => stopsAtEnd).congr fun _ read done => ?_
  constructor
  · rintro ⟨⟨tree, count⟩, rfl, rfl⟩
    exact ⟨statement tree, count, by simp [starts], by simp⟩
  · rintro ⟨other, count, spelled, rfl⟩
    obtain ⟨rest, startsOther⟩ := (Line.simple other).head_tokens
    change other.tokens = _ at startsOther
    have sameWord : (Line.simple other).keyword = word := by
      rw [startsOther] at spelled
      exact (Token.keyword.inj (List.cons.inj spelled).1).symm
    obtain ⟨tree, rfl⟩ := all other sameWord
    rw [starts] at spelled
    exact ⟨(tree, count), (List.cons.inj spelled).2, by simp⟩

/-- Whether a line that starts with the keyword opens a block. -/
def opens : Keyword → Option Block
  | .if_ => some .conditional
  | .while_ => some .loop
  | _ => none

theorem translates_statementRest? {word : Keyword} {rest : Pass σ Unit}
    (found : statementRest? word = some rest) (simple : opens word = none) :
    Translates rest anyKind (fun _ => simpleRest word) endsLine := by
  unfold statementRest? at found
  split at found <;> cases found
  · refine translates_printStatement.simple_line .print Printed.statement ⟨rfl, rfl⟩ ?_ ?_
    · intro printed
      cases printed <;> rfl
    · intro other same
      cases other with
      | printText body => exact ⟨.text body, rfl⟩
      | printValue value => exact ⟨.value value, rfl⟩
      | _ => cases same
  · refine translates_labelStatement.simple_line .label Simple.label trivial (fun _ => rfl) ?_
    intro other same
    cases other with
    | label name => exact ⟨name, rfl⟩
    | _ => cases same
  · refine translates_gotoStatement.simple_line .goto Simple.goto trivial (fun _ => rfl) ?_
    intro other same
    cases other with
    | goto name => exact ⟨name, rfl⟩
    | _ => cases same
  · refine translates_letStatement.simple_line .let_
      (fun target : String × Expression => .assign target.1 target.2) ⟨rfl, rfl⟩ (fun _ => rfl) ?_
    intro other same
    cases other with
    | assign name value => exact ⟨(name, value), rfl⟩
    | _ => cases same
  · refine translates_inputStatement.simple_line .input Simple.input trivial (fun _ => rfl) ?_
    intro other same
    cases other with
    | input name => exact ⟨name, rfl⟩
    | _ => cases same
  · refine translates_randomStatement.simple_line .rnd Simple.random trivial (fun _ => rfl) ?_
    intro other same
    cases other with
    | random name => exact ⟨name, rfl⟩
    | _ => cases same
  · cases simple
  · cases simple

/-- Keywords are spelled one way only. -/
theorem eq_keyword_of_kind {word : Keyword} (other : Token)
    (same : other.kind = (Token.keyword word).kind) : other = .keyword word := by
  cases other <;> simp_all [Token.kind]

/-- The line that opens a block, after its first word and before the block is entered. -/
theorem translates_openingRest (block : Block) :
    Translates
      (do
        emit block.head
        condition
        let _ ← expect (.keyword block.separator)
        endOfLine
        emitLine CLines.blockOpening : Pass σ Unit) anyKind
      (fun _ => Words.spelled
        (fun pair : Condition × Nat =>
          pair.1.tokens ++ .keyword block.separator :: endTokens pair.2)
        fun pair => (Line.opening block pair.1).actions) endsLine := by
  have ended := (translates_endOfLine (σ := σ)).bind_write (translates_emitLine CLines.blockOpening)
  have separated := ended.expect_tree (.keyword block.separator) (by simp [Token.kind])
    eq_keyword_of_kind
  have whole := (translates_emit (σ := σ) block.head).write_bind
    (translates_condition.bind_tree separated fun _ _ _ => ⟨⟨rfl, rfl⟩, rfl⟩)
  exact whole

theorem openBlock_eq (block : Block) :
    (openBlock block : Pass σ Unit) =
      (do
        emit block.head
        condition
        let _ ← expect (.keyword block.separator)
        endOfLine
        emitLine CLines.blockOpening) >>= fun _ => enterBlock block := by
  simp [openBlock]

theorem closeBlock_eq (block : Block) (outer : List Block) :
    (closeBlock block outer : Pass σ Unit) =
      (do
        let _ ← expect (.keyword block.terminator)
        emitLine CLines.blockClosing) >>= fun _ => leaveBlock outer >>= fun _ => endOfLine := by
  simp [closeBlock]

/-- Between the two states the pass has taken the line. -/
structure Takes (state : State σ) (line : Line) (after : State σ) : Prop where
  account : state.account.performAll line.actions = .ok after.account
  blocks : line.Leads state.openBlocks after.openBlocks
  ending : after.feed.ending = state.feed.ending

private theorem openBlock_sound {block : Block} {state after : State σ} {tokens : List Located}
    (faces : state.Faces tokens) (success : openBlock block state = .ok () after) :
    ∃ condition count used rest, tokens = used ++ rest ∧
      .keyword block.opener :: used.map (·.token) =
        (Line.opening block condition).tokens ++ endTokens count ∧
      after.Faces rest ∧ Takes state (.opening block condition) after := by
  rw [openBlock_eq] at success
  obtain ⟨_, between, ran, entered⟩ := bind_eq_ok success
  obtain ⟨used, rest, actions, rfl, ⟨⟨condition, count⟩, spelled, rfl⟩, facesRest, performs⟩ :=
    (translates_openingRest block).sound state tokens () between faces trivial ran
  cases entered
  refine ⟨condition, count, used, rest, rfl, by simp [spelled, Line.tokens],
    facesRest.of_same_input rfl rfl rfl, performs.account, ?_, performs.ending⟩
  rw [← performs.blocks]
  exact .opening block condition between.openBlocks

private theorem openBlock_complete {block : Block} {condition : Condition} {count : Nat}
    {state : State σ}
    {used rest : List Located} {final : Account σ} (faces : state.Faces (used ++ rest))
    (faultless : state.feed.Faultless)
    (spelled : .keyword block.opener :: used.map (·.token) =
      (Line.opening block condition).tokens ++ endTokens count)
    (ends : endsLine (frontKind rest))
    (allowed : state.account.performAll (Line.opening block condition).actions = .ok final) :
    ∃ after, openBlock block state = .ok () after ∧ after.Faces rest ∧
      Takes state (.opening block condition) after := by
  have read : used.map (·.token) =
      condition.tokens ++ .keyword block.separator :: endTokens count := by
    simpa [Line.tokens] using spelled
  obtain ⟨between, ran, facesRest, performs⟩ :=
    (translates_openingRest block).complete state used rest () _ final faces faultless
      ⟨(condition, count), read, rfl⟩ ends allowed
  rw [openBlock_eq]
  refine ⟨_, bind_ok ran, facesRest.of_same_input rfl rfl rfl, performs.account, ?_, performs.ending⟩
  rw [← performs.blocks]
  exact .opening block condition between.openBlocks

/-- The last word of a block and the C text for it. -/
theorem translates_terminator (block : Block) :
    Translates
      (do
        let _ ← expect (.keyword block.terminator)
        emitLine CLines.blockClosing : Pass σ Unit) anyKind
      (fun _ => Words.only [.keyword block.terminator] (Line.closing block).actions) anyKind := by
  refine ((translates_emitLine (σ := σ) CLines.blockClosing).expect_bind
    (.keyword block.terminator) (by simp)).congr fun _ read done => ?_
  constructor
  · rintro ⟨token, _, kind, rfl, rfl, rfl⟩
    obtain rfl := eq_keyword_of_kind token kind
    exact ⟨rfl, rfl⟩
  · rintro ⟨rfl, rfl⟩
    exact ⟨_, [], rfl, rfl, rfl, rfl⟩

theorem closeBlock_sound {block : Block} {outer : List Block} {state after : State σ}
    {tokens : List Located} (faces : state.Faces tokens) (blocks : state.openBlocks = block :: outer)
    (success : closeBlock block outer state = .ok () after) :
    ∃ count used rest, tokens = used ++ rest ∧
      used.map (·.token) = (Line.closing block).tokens ++ endTokens count ∧
      after.Faces rest ∧ Takes state (.closing block) after := by
  rw [closeBlock_eq] at success
  obtain ⟨_, between, ran, continued⟩ := bind_eq_ok success
  obtain ⟨_, left, leaving, ended⟩ := bind_eq_ok continued
  obtain ⟨used, others, actions, rfl, ⟨spelled, rfl⟩, facesOthers, performs⟩ :=
    (translates_terminator block).sound state tokens () between faces trivial ran
  cases leaving
  have facesLeft : State.Faces { between with openBlocks := outer } others :=
    facesOthers.of_same_input rfl rfl rfl
  obtain ⟨usedMore, rest, more, rfl, ⟨count, spelledMore, rfl⟩, facesRest, performsMore⟩ :=
    translates_endOfLine.sound _ others () after facesLeft trivial ended
  refine ⟨count, used ++ usedMore, rest, by simp, by simp [spelled, spelledMore, Line.tokens],
    facesRest, ?_, ?_, performsMore.ending.trans performs.ending⟩
  · have kept : after.account = between.account := (Except.ok.inj performsMore.account).symm
    rw [kept]
    exact performs.account
  · rw [performsMore.blocks, blocks]
    exact .closing block outer

private theorem closeBlock_complete {block : Block} {outer : List Block} {count : Nat} {state : State σ}
    {used rest : List Located} {final : Account σ} (faces : state.Faces (used ++ rest))
    (faultless : state.feed.Faultless) (blocks : state.openBlocks = block :: outer)
    (spelled : used.map (·.token) = (Line.closing block).tokens ++ endTokens count)
    (ends : endsLine (frontKind rest))
    (allowed : state.account.performAll (Line.closing block).actions = .ok final) :
    ∃ after, closeBlock block outer state = .ok () after ∧ after.Faces rest ∧
      Takes state (.closing block) after := by
  obtain ⟨usedFront, usedBack, rfl, spelledFront, spelledBack⟩ := List.map_eq_append_iff.mp spelled
  rw [List.append_assoc] at faces
  obtain ⟨between, ran, facesBetween, performs⟩ :=
    (translates_terminator block).complete state usedFront (usedBack ++ rest) () _ final faces
      faultless ⟨spelledFront, rfl⟩ trivial allowed
  have facesLeft : State.Faces { between with openBlocks := outer } (usedBack ++ rest) :=
    facesBetween.of_same_input rfl rfl rfl
  obtain ⟨after, ended, facesRest, performsMore⟩ :=
    translates_endOfLine.complete _ usedBack rest () [] _ facesLeft
      (performs.faultless faultless) ⟨count, spelledBack, rfl⟩ ends rfl
  refine ⟨after, ?_, facesRest, ?_, ?_, performsMore.ending.trans performs.ending⟩
  · rw [closeBlock_eq]
    exact (bind_ok ran).trans ended
  · have kept : after.account = between.account := (Except.ok.inj performsMore.account).symm
    rw [kept]
    exact performs.account
  · rw [performsMore.blocks, blocks]
    exact .closing block outer

/-! ## Turns -/

/-- The state in which a statement has been told of. -/
def noted (state : State σ) : State σ :=
  { state with notes := state.notes.push (.statement state.line state.current.kind) }

theorem statement_eq (state : State σ) :
    statement state =
      (match state.current.token with
        | .keyword word =>
          match statementRest? word with
          | some rest => advance >>= fun _ => rest
          | none => refuse (.expectedStatement (.keyword word))
        | other => refuse (.expectedStatement other) : Pass σ Unit) (noted state) :=
  rfl

theorem statement_of_keyword {state : State σ} {word : Keyword} {rest : Pass σ Unit}
    (current : state.current.token = .keyword word) (found : statementRest? word = some rest) :
    statement state = (advance >>= fun _ => rest) (noted state) := by
  rw [statement_eq, current]
  simp only [found]

theorem statement_eq_ok {state after : State σ} (success : statement state = .ok () after) :
    ∃ word rest, state.current.token = .keyword word ∧
      statementRest? word = some rest ∧ (advance >>= fun _ => rest) (noted state) = .ok () after := by
  rw [statement_eq] at success
  cases current : state.current.token with
  | keyword word =>
    rw [current] at success
    cases found : statementRest? (σ := σ) word with
    | none =>
      simp only [found] at success
      cases success
    | some rest =>
      simp only [found] at success
      exact ⟨word, rest, rfl, found, success⟩
  | _ =>
    rw [current] at success
    cases success

theorem statementRest?_of_opens {word : Keyword} {block : Block} (opening : opens word = some block) :
    word = block.opener ∧ statementRest? (σ := σ) word = some (openBlock block) := by
  cases word <;> cases opening <;> exact ⟨rfl, rfl⟩

theorem statement_sound {state after : State σ} {tokens : List Located}
    (faces : state.Faces tokens) (success : statement state = .ok () after) :
    ∃ line count used rest, tokens = used ++ rest ∧
      used.map (·.token) = line.tokens ++ endTokens count ∧ after.Faces rest ∧
      Takes state line after := by
  obtain ⟨word, step, current, found, ran⟩ := statement_eq_ok success
  obtain ⟨others, rfl⟩ := faces.eq_cons (by simp [current])
  obtain ⟨_, between, moved, continued⟩ := bind_eq_ok ran
  have facesNoted : (noted state).Faces (state.current :: others) := faces.of_same_input rfl rfl rfl
  obtain ⟨-, facesOthers, performs⟩ := advance_sound facesNoted moved
  have sameAccount : between.account = state.account := (Except.ok.inj performs.account).symm
  cases opening : opens word with
  | none =>
    obtain ⟨used, rest, actions, rfl, ⟨statement, count, spelled, rfl⟩, facesRest, performsMore⟩ :=
      (translates_statementRest? found opening).sound between others () after facesOthers trivial
        continued
    refine ⟨.simple statement, count, state.current :: used, rest, rfl,
      by simp [current, spelled, Line.tokens], facesRest, ?_, ?_,
      performsMore.ending.trans performs.ending⟩
    · rw [← sameAccount]
      exact performsMore.account
    · rw [performsMore.blocks, performs.blocks]
      exact .simple statement state.openBlocks
  | some block =>
    obtain ⟨rfl, opened⟩ := statementRest?_of_opens (σ := σ) opening
    rw [opened] at found
    cases found
    obtain ⟨condition, count, used, rest, rfl, spelled, facesRest, takes⟩ :=
      openBlock_sound facesOthers continued
    refine ⟨.opening block condition, count, state.current :: used, rest, rfl,
      by simp [current, spelled], facesRest, ?_, ?_, takes.ending.trans performs.ending⟩
    · rw [← sameAccount]
      exact takes.account
    · have blocks := takes.blocks
      rw [performs.blocks] at blocks
      exact blocks

omit [Sink σ] in
theorem current_of_line {line : Line} {count : Nat} {state : State σ} {used rest : List Located}
    (faces : state.Faces (used ++ rest))
    (spelled : used.map (·.token) = line.tokens ++ endTokens count) :
    state.current.token = .keyword line.keyword := by
  obtain ⟨others, lineTokens⟩ := line.head_tokens
  rw [lineTokens] at spelled
  obtain ⟨located, usedMore, rfl, token, -⟩ := List.map_eq_cons_iff.mp spelled
  rw [faces.of_current.1, token]

/-- A statement over a line goes on with the rest of the line after its first word. -/
theorem statement_of_line {line : Line} {count : Nat} {state : State σ} {used rest : List Located}
    {step : Pass σ Unit} (faces : state.Faces (used ++ rest)) (faultless : state.feed.Faultless)
    (spelled : used.map (·.token) = line.tokens ++ endTokens count)
    (found : statementRest? line.keyword = some step) :
    ∃ usedMore between, statement state = step between ∧ between.Faces (usedMore ++ rest) ∧
      state.Performs [] between ∧
      .keyword line.keyword :: usedMore.map (·.token) = line.tokens ++ endTokens count := by
  have current := current_of_line faces spelled
  obtain ⟨others, lineTokens⟩ := line.head_tokens
  have keyword := spelled
  rw [lineTokens] at keyword
  obtain ⟨located, usedMore, rfl, token, -⟩ := List.map_eq_cons_iff.mp keyword
  have facesNoted : (noted state).Faces (located :: (usedMore ++ rest)) :=
    faces.of_same_input rfl rfl rfl
  obtain ⟨between, moved⟩ := advance_complete facesNoted faultless
  obtain ⟨-, facesBetween, performs⟩ := advance_sound facesNoted moved
  refine ⟨usedMore, between, ?_, facesBetween, ⟨performs.account, performs.blocks, performs.ending⟩, ?_⟩
  · rw [statement_of_keyword current found]
    exact bind_ok moved
  · rw [← spelled, List.map_cons, token]

theorem statementRest?_opener (block : Block) :
    statementRest? (σ := σ) block.opener = some (openBlock block) := by
  cases block <;> rfl

theorem statementRest?_simple (statement : Simple) : ∃ step : Pass σ Unit,
    statementRest? (Line.simple statement).keyword = some step ∧
      opens (Line.simple statement).keyword = none := by
  cases statement <;> exact ⟨_, rfl, rfl⟩

theorem statement_complete {line : Line} {count : Nat} {state : State σ} {used rest : List Located}
    {inner : List Block} {final : Account σ} (faces : state.Faces (used ++ rest))
    (faultless : state.feed.Faultless) (notClosing : line.isClosing = false)
    (spelled : used.map (·.token) = line.tokens ++ endTokens count)
    (ends : endsLine (frontKind rest)) (leads : line.Leads state.openBlocks inner)
    (allowed : state.account.performAll line.actions = .ok final) :
    ∃ after, statement state = .ok () after ∧ after.Faces rest ∧ Takes state line after := by
  generalize state.openBlocks = blocks at leads
  cases leads with
  | closing => cases notClosing
  | simple statement =>
    obtain ⟨step, found, simple⟩ := statementRest?_simple (σ := σ) statement
    obtain ⟨usedMore, between, goesOn, facesBetween, performs, spelledRest⟩ :=
      statement_of_line faces faultless spelled found
    have sameAccount : between.account = state.account := (Except.ok.inj performs.account).symm
    obtain ⟨after, ran, facesRest, performsMore⟩ :=
      (translates_statementRest? found simple).complete between usedMore rest () _ final
        facesBetween (performs.faultless faultless) ⟨statement, count, spelledRest, rfl⟩ ends
        (sameAccount ▸ allowed)
    refine ⟨after, goesOn.trans ran, facesRest, ?_, ?_, performsMore.ending.trans performs.ending⟩
    · rw [← sameAccount]
      exact performsMore.account
    · rw [performsMore.blocks, performs.blocks]
      exact .simple statement state.openBlocks
  | opening block condition =>
    obtain ⟨usedMore, between, goesOn, facesBetween, performs, spelledRest⟩ :=
      statement_of_line faces faultless spelled (statementRest?_opener block)
    have sameAccount : between.account = state.account := (Except.ok.inj performs.account).symm
    obtain ⟨after, ran, facesRest, takes⟩ :=
      openBlock_complete facesBetween (performs.faultless faultless) spelledRest ends
        (sameAccount ▸ allowed)
    refine ⟨after, goesOn.trans ran, facesRest, ?_, ?_, takes.ending.trans performs.ending⟩
    · rw [← sameAccount]
      exact takes.account
    · rw [← performs.blocks]
      exact takes.blocks

theorem turn_sound {state after : State σ} {tokens : List Located} (faces : state.Faces tokens)
    (success : turn state = .ok () after) :
    ∃ line count used rest, tokens = used ++ rest ∧
      used.map (·.token) = line.tokens ++ endTokens count ∧ after.Faces rest ∧
      Takes state line after := by
  unfold turn at success
  split at success
  · exact statement_sound faces success
  · rename_i block outer blocks
    split at success
    · obtain ⟨count, used, rest, split, spelled, facesRest, takes⟩ :=
        closeBlock_sound faces blocks success
      exact ⟨.closing block, count, used, rest, split, spelled, facesRest, takes⟩
    · exact statement_sound faces success

private theorem Line.keyword_ne_terminator {line : Line} (notClosing : line.isClosing = false)
    (block : Block) : line.keyword ≠ block.terminator := by
  cases line with
  | simple statement => cases statement <;> cases block <;> simp [Line.keyword, Block.terminator]
  | opening other condition =>
    cases other <;> cases block <;> simp [Line.keyword, Block.opener, Block.terminator]
  | closing other => cases notClosing

theorem turn_of_not_closing {state : State σ} {line : Line} (notClosing : line.isClosing = false)
    (current : state.current.token = .keyword line.keyword) : turn state = statement state := by
  unfold turn
  split
  · rfl
  · rename_i block outer blocks
    rw [if_neg]
    rw [current]
    simp [Line.keyword_ne_terminator notClosing block]

theorem turn_complete {line : Line} {count : Nat} {state : State σ} {used rest : List Located}
    {inner : List Block} {final : Account σ} (faces : state.Faces (used ++ rest))
    (faultless : state.feed.Faultless)
    (spelled : used.map (·.token) = line.tokens ++ endTokens count)
    (ends : endsLine (frontKind rest)) (leads : line.Leads state.openBlocks inner)
    (allowed : state.account.performAll line.actions = .ok final) :
    ∃ after, turn state = .ok () after ∧ after.Faces rest ∧ Takes state line after := by
  have current := current_of_line faces spelled
  cases closing : line.isClosing with
  | false =>
    rw [turn_of_not_closing closing current]
    exact statement_complete faces faultless closing spelled ends leads allowed
  | true =>
    generalize open_ : state.openBlocks = blocks at leads
    cases leads with
    | closing block outer =>
      unfold turn
      simp only [open_]
      rw [if_pos (.inl current)]
      exact closeBlock_complete faces faultless open_ spelled ends allowed
    | _ => cases closing

end TeenyBasic.Pass
