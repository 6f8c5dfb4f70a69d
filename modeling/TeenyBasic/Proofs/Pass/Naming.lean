import TeenyBasic.Proofs.Pass.Books

/-!
The pass keeps its books in order. Each step of the pass gets a rule that says after which tokens it may
start and after which it ends: an expression starts where an operand is asked for (`Asked`), a statement
goes on right after its keyword (`Led`), and everything else stands between (`Idle`). From the rules
follows how a whole program ends (`program_ends`).
-/

set_option autoImplicit false

namespace TeenyBasic.Pass

open Grammar

variable {σ α β : Type} [Sink σ] {whole : Feed} {sink : σ} {used : List Located} {state : State σ}

/-! ## Writing -/

theorem meets_emit {text : String} (standing : Standing whole sink used state)
    (allowed : Name text → text ∈ targets used) :
    Meets whole sink (emit text) state fun _ after =>
      after.current = state.current ∧ Standing whole sink used after := by
  refine ⟨rfl, standing.perform (.emit text) rfl ?_⟩
  intro name same isName
  cases same
  exact allowed isName

theorem meets_emitLine (text : String) (standing : Standing whole sink used state) :
    Meets whole sink (emitLine text) state fun _ after =>
      after.current = state.current ∧ Standing whole sink used after :=
  ⟨rfl, standing.perform (.line text) rfl fun _ same => by cases same⟩

theorem meets_forM_emitLine (lines : List String) (standing : Standing whole sink used state) :
    Meets whole sink (lines.forM emitLine) state fun _ after =>
      after.current = state.current ∧ Standing whole sink used after := by
  induction lines generalizing state with
  | nil => exact ⟨rfl, standing⟩
  | cons line lines ih =>
    apply (meets_emitLine line standing).bind
    intro _ between met
    obtain ⟨same, written⟩ := met
    exact same ▸ ih written

theorem meets_copyToken (standing : Standing whole sink used state)
    (clear : disallowance? used state.current.token = none)
    (notEnd : state.current.token ≠ .endOfInput)
    (plain : precededBy Token.introduces used = false ∨ state.current.token.name? = none)
    (allowed : Name state.current.token.text → state.current.token.text ∈ targets used) :
    Meets whole sink copyToken state fun _ after =>
      Standing whole sink (used ++ [state.current]) after := by
  apply (meets_consume standing clear notEnd plain).bind
  intro here between met
  obtain ⟨same, standingNext⟩ := met
  subst same
  exact (meets_emit standingNext fun isName => mem_targets_concat (allowed isName)).mono
    fun _ _ met => met.2

theorem meets_current_branch (test : Kind → Bool) {yes no : Pass σ α} {post : α → State σ → Prop}
    (passes : test state.current.kind = true → Meets whole sink yes state post)
    (fails : test state.current.kind = false → Meets whole sink no state post) :
    Meets whole sink (current >>= fun here => if test here.kind then yes else no) state post := by
  unfold Meets
  rw [current_branch]
  cases decided : test state.current.kind with
  | true => exact passes decided
  | false => exact fails decided

/-! ## Expressions -/

/-- Nothing special stands after what has been read. -/
def Idle (whole : Feed) (sink : σ) (state : State σ) : Prop :=
  ∃ used, Standing whole sink used state ∧ Settled used

/-- An operand stands after what has been read. -/
def Asked (whole : Feed) (sink : σ) (state : State σ) : Prop :=
  ∃ used, Standing whole sink used state ∧ precededBy Token.asksOperand used = true

omit [Sink σ] in
private theorem introduces_of_asksOperand (asked : precededBy Token.asksOperand used = true) :
    precededBy Token.introduces used = false := by
  refine precededBy_eq_false (fun token asks => ?_) asked
  rw [Bool.eq_false_iff]
  intro introduces
  rw [Token.asksOperand_of_introduces introduces] at asks
  cases asks

/-- An operator is copied; an operand has to follow. -/
theorem meets_copyOperator {op : Operator} (standing : Standing whole sink used state)
    (current : state.current.token = .operator op) :
    Meets whole sink copyToken state fun _ after => Asked whole sink after := by
  apply (meets_copyToken standing (by rw [current]; rfl) (by rw [current]; simp)
    (.inr (by rw [current]; rfl)) ?_).mono
  · intro _ after written
    exact ⟨_, written, by rw [precededBy_concat, current]; rfl⟩
  · intro isName
    rw [current] at isName
    obtain ⟨c, more, cons, symbol⟩ := op.exists_symbol
    refine absurd isName (not_name_of_mem (c := c) (by rw [Token.text, cons]; exact .head _) ?_)
    simp only [Bool.not_eq_true', Bool.or_eq_false_iff] at symbol
    exact symbol.2

section Expressions

variable (spelled : ∀ located ∈ whole.tokens, located.token.Spelled)

include spelled

theorem meets_operand (asked : Asked whole sink state) :
    Meets whole sink operand state fun _ after => Idle whole sink after := by
  obtain ⟨used, standing, asks⟩ := asked
  obtain ⟨calls, books⟩ := standing.books
  have notIntroduced := introduces_of_asksOperand asks
  cases current : state.current.token with
  | number digits =>
    refine .of_eq (show operand state = copyToken state by simp [operand, current]) ?_
    apply (meets_copyToken standing (by rw [current]; rfl) (by rw [current]; simp)
      (.inr (by rw [current]; rfl)) ?_).mono
    · intro _ after written
      exact ⟨_, written, settled_concat (by rw [current]; rfl) (by rw [current]; rfl)⟩
    · intro isName
      have numeral : state.current.token.Spelled :=
        spelled _ (List.mem_of_getElem? (standing.isAt.getElem?_tokens
          (show state.current.token ≠ .endOfInput by rw [current]; simp)))
      rw [current] at isName numeral
      obtain ⟨c, more, cons, digit⟩ := Numeral.exists_cons numeral
      refine absurd isName (not_name_of_mem (c := c) (by rw [Token.text, cons]; exact .head _) ?_)
      have notLetter := CLanguage.isLetter_of_isDigit digit
      simp only [CLanguage.isLetter, Bool.or_eq_false_iff] at notLetter
      exact notLetter.1
  | name name =>
    cases known : state.declared.contains name with
    | true =>
      have target := books.contains_declared.mp known
      refine .of_eq (show operand state = copyToken state by simp [operand, current, known]) ?_
      apply (meets_copyToken standing (by simp [current, disallowance?, asks, target])
        (by rw [current]; simp) (.inl notIntroduced) (fun _ => by rw [current]; exact target)).mono
      intro _ after written
      exact ⟨_, written, settled_name current⟩
    | false =>
      have unknown : name ∉ targets used := by
        rw [← books.contains_declared, known]
        simp
      refine .of_eq (show operand state = refuse (.undefinedVariable name) state by
        simp [operand, current, known]) ?_
      refine Meets.refuse standing ?_ (by simp [Refusal.code])
      simp [current, disallowance?, asks, unknown, Refusal.naming?, Refusal.code, Code.isNaming]
  | _ =>
    refine .of_eq (show operand state = refuse (.expectedOperand state.current.token) state by
      simp [operand, current]) ?_
    refine Meets.refuse standing ?_ (by simp [Refusal.code])
    rw [current]
    rfl

theorem meets_signedOperand (asked : Asked whole sink state) :
    Meets whole sink signedOperand state fun _ after => Idle whole sink after := by
  refine meets_current_branch Kind.isSign (fun signed => ?_) fun _ =>
    meets_operand spelled asked
  obtain ⟨used, standing, -⟩ := asked
  obtain ⟨sign, current⟩ := (isSign_iff _).mp signed
  exact (meets_copyOperator standing current).bind fun _ _ asked => meets_operand spelled asked

theorem meets_term (asked : Asked whole sink state) :
    Meets whole sink term state fun _ after => Idle whole sink after := by
  apply (meets_signedOperand spelled asked).bind
  intro _ between idle
  refine (Meets.repeatWhile uses_scalingRound ?_ idle).mono fun _ _ ended => ended.1
  intro state idle scaling
  obtain ⟨used, standing, -⟩ := idle
  obtain ⟨op, current⟩ := (isScaling_iff _).mp scaling
  exact (meets_copyOperator standing current).bind fun _ _ asked => meets_signedOperand spelled asked

theorem meets_expression (asked : Asked whole sink state) :
    Meets whole sink expression state fun _ after => Idle whole sink after := by
  apply (meets_term spelled asked).bind
  intro _ between idle
  refine (Meets.repeatWhile uses_signRound ?_ idle).mono fun _ _ ended => ended.1
  intro state idle signed
  obtain ⟨used, standing, -⟩ := idle
  obtain ⟨op, current⟩ := (isSign_iff _).mp signed
  apply (meets_copyOperator standing current).bind
  intro _ between asked
  refine meets_current_branch Kind.isSign (fun _ => ?_) fun _ => meets_term spelled asked
  obtain ⟨used, standing, asks⟩ := asked
  apply (meets_emit standing fun isName => ?_).bind
  · intro _ _ met
    obtain ⟨_, written⟩ := met
    exact meets_term spelled ⟨used, written, asks⟩
  · exact absurd isName (not_name_of_mem (c := ' ') (by decide) rfl)

theorem meets_condition (asked : Asked whole sink state) :
    Meets whole sink condition state fun _ after => Idle whole sink after := by
  apply (meets_expression spelled asked).bind
  intro _ between idle
  refine Meets.current ?_
  split
  · refine (Meets.repeatWhile uses_comparisonRound ?_ idle).mono fun _ _ ended => ended.1
    intro state idle compared
    obtain ⟨used, standing, -⟩ := idle
    obtain ⟨op, current⟩ := (isComparison_iff _).mp compared
    exact (meets_copyOperator standing current).bind fun _ _ asked => meets_expression spelled asked
  · obtain ⟨used, standing, settled⟩ := idle
    exact Meets.refuse standing (settled.disallowance? _).symm (by simp [Refusal.code])

end Expressions

/-! ## Lines -/

theorem meets_expect {wanted : Kind} (standing : Standing whole sink used state)
    (settled : Settled used) (notEnd : wanted ≠ .endOfInput) :
    Meets whole sink (expect wanted) state fun here after =>
      here.kind = wanted ∧ Standing whole sink (used ++ [here]) after := by
  refine Meets.current ?_
  split
  · rename_i asWanted
    apply (meets_consume standing (settled.disallowance? _) ?_ (.inl settled.2)).mono
    · intro here after met
      obtain ⟨same, standingNext⟩ := met
      subst same
      exact ⟨asWanted, standingNext⟩
    · intro atEnd
      rw [Located.kind, atEnd] at asWanted
      exact notEnd asWanted.symm
  · exact Meets.refuse standing (settled.disallowance? _).symm (by simp [Refusal.code])

/-- After a line end or a word that only divides a line, nothing special stands. -/
theorem settled_of_kind {here : Located} (divides : here.kind = .newline ∨
    ∃ word, here.kind = .keyword word ∧ word ∈ [.then_, .repeat_, .endIf, .endWhile]) :
    Settled (used ++ [here]) := by
  obtain ⟨token, span⟩ := here
  rcases divides with isNewline | ⟨word, isWord, divides⟩
  · cases token with
    | newline => exact settled_concat rfl rfl
    | _ => cases isNewline
  · cases token with
    | keyword other =>
      cases isWord
      refine settled_concat ?_ ?_
      all_goals
        simp only [List.mem_cons, List.not_mem_nil, or_false] at divides
        rcases divides with rfl | rfl | rfl | rfl <;> rfl
    | _ => cases isWord

theorem meets_blankLines (idle : Idle whole sink state) :
    Meets whole sink blankLines state fun _ after => Idle whole sink after := by
  refine (Meets.repeatWhile uses_lineEnd ?_ idle).mono fun _ _ ended => ended.1
  intro state met isNewline
  obtain ⟨used, standing, settled⟩ := met
  have current : state.current.kind = .newline := by
    cases kind : state.current.kind <;> simp_all [standsAt, Kind.isNewline]
  apply (meets_consume standing (settled.disallowance? _) ?_ (.inl settled.2)).bind
  · intro here between met
    obtain ⟨same, standingNext⟩ := met
    exact ⟨_, standingNext.of_same (standingNext.isAt.of_line _) rfl rfl rfl,
      settled_of_kind (.inl current)⟩
  · intro atEnd
    rw [Located.kind, atEnd] at current
    cases current

theorem meets_endOfLine (idle : Idle whole sink state) :
    Meets whole sink endOfLine state fun _ after => Idle whole sink after := by
  obtain ⟨used, standing, settled⟩ := idle
  apply (meets_expect standing settled (by simp)).bind
  intro here between met
  obtain ⟨isNewline, standingNext⟩ := met
  have idle : Idle whole sink { between with line := between.line + 1 } :=
    ⟨_, standingNext.of_same (standingNext.isAt.of_line _) rfl rfl rfl,
      settled_of_kind (.inl isNewline)⟩
  exact meets_blankLines idle

/-! ## Names -/

/-- A name has been moved over and is not in the books yet. -/
structure Named (whole : Feed) (used : List Located) (state : State σ) (name : String)
    (after : State σ) : Prop where
  moved : Moved whole used state after
  current : state.current.token = .name name

theorem Named.standing {name : String} {after entered : State σ}
    (named : Named whole used state name after) (samePlace : entered.place = after.place)
    (books : ∃ calls, Books sink (used ++ [state.current]) calls entered) :
    Standing whole sink (used ++ [state.current]) entered := by
  refine ⟨?_, ?_, named.moved.notEnd, books⟩
  · rw [samePlace, List.length_append]
    exact named.moved.isAt
  · rw [List.length_append]
    exact named.moved.taken

theorem meets_freshName (standing : Standing whole sink used state)
    (introduced : precededBy Token.introduces used = true)
    (vacant : ∀ name, state.current.token = .name name → precededBy Token.places used = true →
      name ∉ labelsOf used) :
    Meets whole sink freshName state fun name after => Named whole used state name after := by
  have notAsked : precededBy Token.asksOperand used = false :=
    precededBy_eq_false (fun _ => Token.asksOperand_of_introduces) introduced
  cases current : state.current.token with
  | name name =>
    have notTaken : ¬(precededBy Token.places used = true ∧ name ∈ labelsOf used) :=
      fun taken => vacant name current taken.1 taken.2
    cases reserved : isReserved name with
    | true =>
      refine .of_eq (show freshName state = refuse (.reservedName name) state by
        simp [freshName_eq, current, reserved]) ?_
      refine Meets.refuse standing ?_ (by simp [Refusal.code])
      simp [current, disallowance?, notAsked, notTaken, introduced, reserved, Refusal.naming?,
        Refusal.code, Code.isNaming]
    | false =>
      refine .of_eq (show freshName state = (advance >>= fun _ => pure name) state by
        simp [freshName_eq, current, reserved]) ?_
      apply (meets_advance standing ?_ (by rw [current]; simp)).bind
      · intro here after met
        obtain ⟨_, moved⟩ := met
        exact ⟨moved, current⟩
      · simp [current, disallowance?, notAsked, notTaken, reserved]
  | _ =>
    refine .of_eq (show freshName state =
      refuse (.unexpectedToken .name state.current.token.kind) state by
        simp [freshName_eq, current]) ?_
    refine Meets.refuse standing ?_ (by simp [Refusal.code])
    rw [current]
    rfl

theorem meets_labelName (standing : Standing whole sink used state)
    (placed : precededBy Token.places used = true) :
    Meets whole sink labelName state fun name after =>
      Named whole used state name after ∧ name ∉ labelsOf used := by
  obtain ⟨calls, books⟩ := standing.books
  have introduced := precededBy_mono (fun _ => Token.introduces_of_places) placed
  have notAsked : precededBy Token.asksOperand used = false :=
    precededBy_eq_false (fun _ => Token.asksOperand_of_introduces) introduced
  by_cases taken : ∃ name, state.current.token = .name name ∧ name ∈ labelsOf used
  · obtain ⟨name, current, member⟩ := taken
    have refused := labelName_of_taken current (books.mem_labels.mpr member)
    refine .of_eq (show labelName state = refuse (.duplicateLabel name) state from refused) ?_
    refine Meets.refuse standing ?_ (by simp [Refusal.code])
    simp [current, disallowance?, notAsked, placed, member, Refusal.naming?, Refusal.code, Code.isNaming]
  · have vacant : ∀ name, state.current.token = .name name → name ∉ labelsOf used :=
      fun name current member => taken ⟨name, current, member⟩
    have same : labelName state = freshName state := by
      cases current : state.current.token with
      | name name =>
        exact labelName_of_fresh current fun member => vacant name current (books.mem_labels.mp member)
      | _ => simp [labelName, current]
    have meets := meets_freshName standing introduced fun name current _ => vacant name current
    refine .of_eq same (meets.mono ?_)
    intro name after named
    exact ⟨named, vacant name named.current⟩

/-- A name after `LET` or `INPUT` is declared at its first such place. -/
theorem meets_declare {word : Keyword} {next : String → Pass σ α} {post : α → State σ → Prop}
    (standing : Standing whole sink used state)
    (preceded : ∀ test, precededBy test used = test (.keyword word))
    (assigns : (Token.keyword word).assigns = true)
    (continues : ∀ name after used, Standing whole sink used after → Settled used →
      Meets whole sink (next name) after post) :
    Meets whole sink (freshName >>= fun name => declareVariable name >>= fun _ => next name) state
      post := by
  obtain ⟨calls, books⟩ := standing.books
  have places : (Token.keyword word).places = false := by cases word <;> first | rfl | cases assigns
  have jumps : (Token.keyword word).jumps = false := by cases word <;> first | rfl | cases assigns
  have introduced := (preceded Token.introduces).trans (Token.introduces_of_assigns assigns)
  apply (meets_freshName standing introduced fun name _ placed => ?_).bind
  · intro name after named
    obtain ⟨entered, ran, samePlace, more⟩ :=
      (named.moved.books books).declare named.current ((preceded _).trans assigns)
        ((preceded _).trans places) ((preceded _).trans jumps)
    unfold Meets
    rw [bind_ok ran]
    exact continues name entered _ (named.standing samePlace more) (settled_name named.current)
  · rw [preceded, places] at placed
    cases placed

/-! ## Statements -/

/-- The pass stands right after the keyword. -/
def Led (whole : Feed) (sink : σ) (word : Keyword) (state : State σ) : Prop :=
  ∃ used, Standing whole sink used state ∧ ∀ test, precededBy test used = test (.keyword word)

theorem Led.asked {word : Keyword} (led : Led whole sink word state)
    (asks : (Token.keyword word).asksOperand = true) : Asked whole sink state := by
  obtain ⟨used, standing, preceded⟩ := led
  exact ⟨used, standing, (preceded _).trans asks⟩

theorem meets_lines (lines : List String) (idle : Idle whole sink state) :
    Meets whole sink (lines.forM emitLine) state fun _ after => Idle whole sink after := by
  obtain ⟨used, standing, settled⟩ := idle
  exact (meets_forM_emitLine lines standing).mono fun _ _ met => ⟨used, met.2, settled⟩

theorem meets_line (text : String) (idle : Idle whole sink state) :
    Meets whole sink (emitLine text) state fun _ after => Idle whole sink after := by
  obtain ⟨used, standing, settled⟩ := idle
  exact (meets_emitLine text standing).mono fun _ _ met => ⟨used, met.2, settled⟩

theorem meets_opening {text : String} {c : Char} (asked : Asked whole sink state)
    (member : c ∈ text.toList) (notLetter : c.isAlpha = false) :
    Meets whole sink (emit text) state fun _ after =>
      after.current = state.current ∧ Asked whole sink after := by
  obtain ⟨used, standing, asks⟩ := asked
  apply (meets_emit standing fun isName => absurd isName (not_name_of_mem member notLetter)).mono
  intro _ after met
  obtain ⟨same, written⟩ := met
  exact ⟨same, used, written, asks⟩

theorem meets_labelStatement (led : Led whole sink .label state) :
    Meets whole sink labelStatement state fun _ after => Idle whole sink after := by
  obtain ⟨used, standing, preceded⟩ := led
  obtain ⟨calls, books⟩ := standing.books
  apply (meets_labelName standing (preceded _)).bind
  intro name after met
  obtain ⟨named, vacant⟩ := met
  obtain ⟨entered, ran, samePlace, more⟩ :=
    (named.moved.books books).place named.current (preceded _) (preceded _) (preceded _) vacant
  unfold Meets
  rw [bind_ok ran]
  exact meets_line _ ⟨_, named.standing samePlace ⟨calls, more⟩, settled_name named.current⟩

theorem meets_gotoStatement (led : Led whole sink .goto state) :
    Meets whole sink gotoStatement state fun _ after => Idle whole sink after := by
  obtain ⟨used, standing, preceded⟩ := led
  obtain ⟨calls, books⟩ := standing.books
  refine Meets.current ((meets_freshName standing (preceded _) fun _ _ placed => ?_).bind ?_)
  · rw [preceded] at placed
    cases placed
  · intro name after named
    obtain ⟨entered, ran, samePlace, more⟩ :=
      (named.moved.books books).jump named.current (preceded _) (preceded _) (preceded _)
    unfold Meets
    rw [bind_ok ran]
    exact meets_line _ ⟨_, named.standing samePlace ⟨calls, more⟩, settled_name named.current⟩

theorem meets_randomStatement (led : Led whole sink .rnd state) :
    Meets whole sink randomStatement state fun _ after => Idle whole sink after := by
  obtain ⟨used, standing, preceded⟩ := led
  obtain ⟨calls, books⟩ := standing.books
  apply (meets_freshName standing (preceded _) fun _ _ placed => ?_).bind
  · intro name after named
    have more : Books sink (used ++ [state.current]) calls after :=
      (named.moved.books books).pass (.inl (preceded _)) (.inl (preceded _)) (.inl (preceded _))
    have idle : Idle whole sink after :=
      ⟨_, named.standing rfl ⟨calls, more⟩, settled_name named.current⟩
    exact (meets_line _ idle).bind fun _ _ idle => meets_line _ idle
  · rw [preceded] at placed
    cases placed

theorem meets_inputStatement (led : Led whole sink .input state) :
    Meets whole sink inputStatement state fun _ after => Idle whole sink after := by
  obtain ⟨used, standing, preceded⟩ := led
  apply meets_declare standing preceded rfl
  intro name after used standing settled
  exact meets_lines _ ⟨used, standing, settled⟩

section Statements

variable (spelled : ∀ located ∈ whole.tokens, located.token.Spelled)

include spelled

theorem meets_letStatement (led : Led whole sink .let_ state) :
    Meets whole sink letStatement state fun _ after => Idle whole sink after := by
  obtain ⟨used, standing, preceded⟩ := led
  apply meets_declare standing preceded rfl
  intro name after used standing settled
  apply (meets_emit standing fun isName => ?_).bind
  · intro _ between met
    obtain ⟨_, written⟩ := met
    apply (meets_expect written settled (by simp)).bind
    intro here atValue met
    obtain ⟨isAssign, standingValue⟩ := met
    have asked : Asked whole sink atValue := by
      refine ⟨_, standingValue, ?_⟩
      rw [precededBy_concat]
      cases token : here.token <;> simp_all [Located.kind, Token.kind, Token.asksOperand]
    exact (meets_expression spelled asked).bind fun _ _ idle => meets_line _ idle
  · exact absurd isName (not_name_of_mem (c := ' ') (by simp [CLines.assignmentOpening]) rfl)

theorem meets_printStatement (led : Led whole sink .print state) :
    Meets whole sink printStatement state fun _ after => Idle whole sink after := by
  rw [printStatement_eq]
  refine meets_current_branch (fun kind => decide (kind = .string)) (fun isString => ?_) fun _ => ?_
  · obtain ⟨used, standing, preceded⟩ := led
    obtain ⟨body, current⟩ : ∃ body, state.current.token = .string body := by
      cases token : state.current.token <;> simp_all [Located.kind, Token.kind]
    apply (meets_consume standing (by rw [current]; rfl) (by rw [current]; simp)
      (.inr (by rw [current]; rfl))).bind
    intro here after met
    obtain ⟨_, standingNext⟩ := met
    exact meets_line _ ⟨_, standingNext, settled_concat (by rw [current]; rfl) (by rw [current]; rfl)⟩
  · apply (meets_opening (c := '(') (led.asked rfl) (by decide) rfl).bind
    intro _ between met
    obtain ⟨_, asked⟩ := met
    exact (meets_expression spelled asked).bind fun _ _ idle => meets_line _ idle

theorem meets_openBlock (block : Block) (led : Led whole sink block.opener state) :
    Meets whole sink (openBlock block) state fun _ after => Idle whole sink after := by
  have asked : Asked whole sink state := led.asked (by cases block <;> rfl)
  apply (meets_opening (c := '(') asked (by cases block <;> decide) rfl).bind
  intro _ between met
  obtain ⟨_, asked⟩ := met
  apply (meets_condition spelled asked).bind
  intro _ between met
  obtain ⟨used, standing, settled⟩ := met
  apply (meets_expect standing settled (by simp)).bind
  intro here between met
  obtain ⟨isSeparator, standingNext⟩ := met
  have settledNext : Settled (used ++ [here]) :=
    settled_of_kind (.inr ⟨_, isSeparator, by cases block <;> decide⟩)
  apply (meets_endOfLine ⟨_, standingNext, settledNext⟩).bind
  intro _ between idle
  apply (meets_line _ idle).bind
  intro _ between met
  obtain ⟨used, standing, settled⟩ := met
  exact ⟨used, standing.of_same standing.isAt rfl rfl rfl, settled⟩

theorem meets_statementRest? {word : Keyword} {rest : Pass σ Unit} (found : statementRest? word = some rest)
    (led : Led whole sink word state) :
    Meets whole sink rest state fun _ after => Idle whole sink after := by
  unfold statementRest? at found
  split at found
  all_goals cases found
  · exact (meets_printStatement spelled led).bind fun _ _ idle => meets_endOfLine idle
  · exact (meets_labelStatement led).bind fun _ _ idle => meets_endOfLine idle
  · exact (meets_gotoStatement led).bind fun _ _ idle => meets_endOfLine idle
  · exact (meets_letStatement spelled led).bind fun _ _ idle => meets_endOfLine idle
  · exact (meets_inputStatement led).bind fun _ _ idle => meets_endOfLine idle
  · exact (meets_randomStatement led).bind fun _ _ idle => meets_endOfLine idle
  · exact meets_openBlock spelled .conditional led
  · exact meets_openBlock spelled .loop led

theorem meets_statement (idle : Idle whole sink state) :
    Meets whole sink statement state fun _ after => Idle whole sink after := by
  obtain ⟨used, standing, settled⟩ := idle
  have standingNoted : Standing whole sink used (noted state) :=
    standing.of_same standing.isAt rfl rfl rfl
  have refused : ∀ refusal : Refusal, refusal.naming? = none → refusal.code ≠ .undefinedLabel →
      statement state = refuse refusal (noted state) →
      Meets whole sink statement state fun _ after => Idle whole sink after := by
    intro refusal notNaming placed ran
    unfold Meets
    rw [ran]
    exact ⟨used, standingNoted, notNaming.trans (settled.disallowance? _).symm, fun _ => rfl, placed⟩
  cases current : state.current.token with
  | keyword word =>
    cases found : statementRest? (σ := σ) word with
    | none =>
      apply refused (.expectedStatement (.keyword word)) rfl (by simp [Refusal.code])
      rw [statement_eq, current]
      simp only [found]
    | some rest =>
      unfold Meets
      rw [statement_of_keyword current found]
      apply (meets_consume standingNoted (settled.disallowance? _) ?_ (.inl settled.2)).bind
      · intro here after met
        obtain ⟨_, standingNext⟩ := met
        refine meets_statementRest? spelled found ⟨_, standingNext, fun test => ?_⟩
        rw [precededBy_concat]
        exact congrArg test current
      · rw [show (noted state).current.token = .keyword word from current]
        simp
  | _ =>
    apply refused (.expectedStatement state.current.token) rfl (by simp [Refusal.code])
    rw [statement_eq, current]

omit spelled in
theorem meets_closeBlock (block : Block) (outer : List Block) (idle : Idle whole sink state) :
    Meets whole sink (closeBlock block outer) state fun _ after => Idle whole sink after := by
  obtain ⟨used, standing, settled⟩ := idle
  apply (meets_expect standing settled (by simp)).bind
  intro here between met
  obtain ⟨isTerminator, standingNext⟩ := met
  have settledNext : Settled (used ++ [here]) :=
    settled_of_kind (.inr ⟨_, isTerminator, by cases block <;> decide⟩)
  apply (meets_line _ ⟨_, standingNext, settledNext⟩).bind
  intro _ between met
  obtain ⟨used, standing, settled⟩ := met
  have idle : Idle whole sink { between with openBlocks := outer } :=
    ⟨used, standing.of_same standing.isAt rfl rfl rfl, settled⟩
  exact meets_endOfLine idle

theorem meets_turn (idle : Idle whole sink state) :
    Meets whole sink turn state fun _ after => Idle whole sink after := by
  have either : turn state = statement state ∨
      ∃ block outer, turn state = closeBlock block outer state := by
    unfold turn
    split
    · exact .inl rfl
    · split
      · exact .inr ⟨_, _, rfl⟩
      · exact .inl rfl
  rcases either with same | ⟨block, outer, same⟩
  · exact .of_eq same (meets_statement spelled idle)
  · exact .of_eq same (meets_closeBlock block outer idle)

/-! ## Programs -/

/-- The pass has used up all tokens. -/
def Finished (whole : Feed) (sink : σ) (state : State σ) : Prop :=
  state.current.token = .endOfInput ∧ ∃ used, Standing whole sink used state

omit spelled in
/-- After the fixed lines of the header the books are open and empty. -/
theorem standing_of_start (started : State.start sink whole = .ok state) :
    ∃ opened, CLines.prologue.forM headerLine state = .ok () opened ∧ Idle whole sink opened := by
  have isAt := State.isAt_of_start started
  obtain ⟨first, second, -, -, rfl⟩ := State.start_eq_ok.mp started
  refine ⟨_, rfl, [], ⟨isAt, rfl, by simp, CLines.prologue.map .header, ?_⟩, rfl, rfl⟩
  refine ⟨rfl, by decide, ?_, rfl, rfl, rfl, List.nodup_nil⟩
  intro before name after split
  have member : .emit name ∈ CLines.prologue.map Call.header := by
    rw [split]
    exact List.mem_append_right _ (.head _)
  obtain ⟨line, -, impossible⟩ := List.mem_map.mp member
  cases impossible

/-- A program ends with its books in order: it is stopped on the way, or it is over and there is a jump
that leads nowhere or none. -/
theorem program_ends (started : State.start sink whole = .ok state) :
    match program state with
    | .ok _ after => Finished whole sink after ∧ after.labels.firstUnresolved = none
    | .error failure after => Stopped whole sink failure after ∨
        ∃ jump, Finished whole sink after ∧ after.labels.firstUnresolved = some jump ∧
          failure = { cause := .refused (.undefinedLabel jump.label) jump.line, span := jump.span } := by
  obtain ⟨opened, ran, idle⟩ := standing_of_start started
  have front : Meets whole sink (do blankLines; turns; CLines.epilogue.forM emitLine : Pass σ Unit)
      opened fun _ after => Finished whole sink after := by
    apply (meets_blankLines idle).bind
    intro _ between idle
    apply (Meets.repeatWhile uses_unfinished_turn (fun _ idle _ => meets_turn spelled idle) idle).bind
    intro _ between met
    obtain ⟨⟨used, standing, _⟩, stopped⟩ := met
    have atEnd : between.current.token = .endOfInput := by
      simp only [State.finished, Bool.not_eq_false', Bool.and_eq_true, beq_iff_eq] at stopped
      exact stopped.2
    apply (meets_forM_emitLine CLines.epilogue standing).mono
    intro _ after met
    obtain ⟨same, written⟩ := met
    exact ⟨same ▸ atEnd, used, written⟩
  have split : program state =
      ((do blankLines; turns; CLines.epilogue.forM emitLine : Pass σ Unit) >>= fun _ => resolveJumps)
        opened := by
    rw [show (program : Pass σ Unit) state = _ from bind_ok ran]
    simp only [bind_assoc]
    rfl
  rw [split]
  unfold Meets at front
  cases ranFront : (do blankLines; turns; CLines.epilogue.forM emitLine : Pass σ Unit) opened with
  | error failure after =>
    rw [ranFront] at front
    rw [bind_error ranFront]
    exact .inl front
  | ok _ after =>
    rw [ranFront] at front
    rw [bind_ok ranFront]
    unfold resolveJumps
    cases unresolved : after.labels.firstUnresolved with
    | none => exact ⟨front, unresolved⟩
    | some jump => exact .inr ⟨jump, front, unresolved, rfl⟩

end Statements

end TeenyBasic.Pass
