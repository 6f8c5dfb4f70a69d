import TeenyBasic.Proofs.Decoding
import TeenyBasic.Proofs.Translation

/-!
What an emitter holds in the end. The body is written piece by piece and cut into lines by the calls that
end a line; nothing is left over. So an accepted source leaves just the lines its tree stands for, each
with its line feed (`emission_eq_ok`).
-/

set_option autoImplicit false

namespace TeenyBasic

/-- An emitter that holds the lines, each with its line feed. -/
def Emitter.ofLines (header body : List String) : Emitter where
  header := (header.map (· ++ "\n")).toArray
  body := (body.map (· ++ "\n")).toArray

theorem Emitter.finish_ofLines (header body : List String) :
    (Emitter.ofLines header body).finish = Grammar.linesText (header ++ body) := by
  simp [finish, headerText, bodyText, ofLines, Grammar.linesText]

theorem Emitter.ofLines_inj {header body otherHeader otherBody : List String}
    (same : Emitter.ofLines header body = .ofLines otherHeader otherBody) :
    header = otherHeader ∧ body = otherBody := by
  have ended : ∀ line other : String, line ++ "\n" = other ++ "\n" → line = other :=
    fun _ _ lines => (String.append_left_inj "\n").mp lines
  simp only [Emitter.ofLines, Emitter.mk.injEq, and_true] at same
  exact ⟨(List.map_inj_right ended).mp (List.toArray_inj same.1),
    (List.map_inj_right ended).mp (List.toArray_inj same.2)⟩

namespace Grammar

/-! ## Lines of the body -/

/-- What actions make of the line being written: the lines they finish, and the line they leave. -/
def fragments (pending : String) : List Action → List String × String
  | [] => ([], pending)
  | .write (.emit text) :: actions => fragments (pending ++ text) actions
  | .write (.line text) :: actions =>
    let (lines, left) := fragments "" actions
    ((pending ++ text) :: lines, left)
  | .write (.header _) :: actions => fragments pending actions
  | .occur _ :: actions => fragments pending actions

theorem fragments_append (pending : String) (front back : List Action) :
    fragments pending (front ++ back) =
      ((fragments pending front).1 ++ (fragments (fragments pending front).2 back).1,
        (fragments (fragments pending front).2 back).2) := by
  fun_induction fragments pending front with
  | case1 => rfl
  | case2 pending text actions ih => simpa [fragments] using ih
  | case3 pending text actions lines left cut ih => simp_all [fragments]
  | case4 pending text actions ih => simpa [fragments] using ih
  | case5 pending occurrence actions ih => simpa [fragments] using ih

def Action.endsLine : Action → Bool
  | .write (.line _) => true
  | _ => false

/-- The actions end no line. -/
def Unended (actions : List Action) : Prop :=
  ∀ action ∈ actions, action.endsLine = false

/-- Such actions add to the line being written. -/
theorem Unended.fragments_eq {actions : List Action} (unended : Unended actions) (pending : String) :
    fragments pending actions = ([], pending ++ bodyOf actions) := by
  fun_induction fragments pending actions with
  | case1 => simp
  | case2 pending text actions ih =>
    rw [ih fun action inside => unended action (.tail _ inside)]
    simp [String.append_assoc]
  | case3 pending text actions => exact absurd (unended _ (.head _)) (by simp [Action.endsLine])
  | case4 pending text actions ih =>
    rw [ih fun action inside => unended action (.tail _ inside)]
    simp
  | case5 pending occurrence actions ih =>
    rw [ih fun action inside => unended action (.tail _ inside)]
    simp

theorem unended_append {front back : List Action} :
    Unended (front ++ back) ↔ Unended front ∧ Unended back :=
  List.forall_mem_append

theorem unended_flatMap {α : Type} {actions : α → List Action} {items : List α}
    (each : ∀ item ∈ items, Unended (actions item)) : Unended (items.flatMap actions) := by
  intro action inside
  obtain ⟨item, member, found⟩ := List.mem_flatMap.mp inside
  exact each item member action found

theorem unended_spell {op item : Type} (mark : op → Token) {actions : item → List Action}
    (each : ∀ item, Unended (actions item)) (chain : Chain op item) :
    Unended (chain.spell (fun op => copied (mark op)) actions) := by
  refine unended_append.mpr ⟨each _, unended_flatMap fun round _ => ?_⟩
  exact List.forall_mem_cons.mpr ⟨rfl, each _⟩

theorem Factor.unended_actions (factor : Factor) : Unended factor.actions := by
  obtain ⟨sign, operand⟩ := factor
  cases sign <;> cases operand <;>
    simp [Unended, Factor.actions, Operand.actions, Action.endsLine, copied]

theorem Term.unended_actions (term : Term) : Unended (Term.actions term) :=
  unended_spell _ Factor.unended_actions term

theorem Expression.unended_actions (expression : Expression) :
    Unended (Expression.actions expression) := by
  refine unended_append.mpr ⟨Term.unended_actions _, unended_flatMap fun round _ => ?_⟩
  refine List.forall_mem_cons.mpr ⟨rfl, unended_append.mpr ⟨?_, Term.unended_actions _⟩⟩
  split <;> simp [Unended, Action.endsLine]

theorem Condition.unended_actions (condition : Condition) : Unended condition.actions :=
  unended_spell _ Expression.unended_actions condition.chain

/-- Something that ends no line, between the start and the end of a line. -/
theorem fragments_around {actions : List Action} (unended : Unended actions) (opening closing : String) :
    fragments "" (.write (.emit opening) :: actions ++ [.write (.line closing)]) =
      ([opening ++ bodyOf actions ++ closing], "") := by
  rw [List.cons_append, fragments, fragments_append, unended.fragments_eq]
  simp [fragments]

theorem fragments_lines (lines : List String) :
    fragments "" (lines.map fun line => .write (.line line)) = (lines, "") := by
  induction lines with
  | nil => rfl
  | cons line lines ih => simp [fragments, ih]

theorem Simple.fragments_actions (statement : Simple) :
    fragments "" statement.actions = (statement.cLines, "") := by
  cases statement with
  | printValue value =>
    have around := fragments_around value.unended_actions CLines.printOpening CLines.printClosing
    rw [Expression.bodyOf_actions] at around
    rw [Simple.actions, around]
    simp [Simple.cLines, CLines.printOpening, CLines.printClosing]
  | assign name value =>
    have around := fragments_around value.unended_actions (CLines.assignmentOpening name)
      CLines.assignmentClosing
    rw [Expression.bodyOf_actions] at around
    change fragments "" (.write (.emit (CLines.assignmentOpening name)) :: Expression.actions value ++
      [.write (.line CLines.assignmentClosing)]) = _
    rw [around]
    simp [Simple.cLines, CLines.assignmentOpening, CLines.assignmentClosing]
  | printText body => simp [Simple.actions, fragments, Simple.cLines, CLines.printString]
  | label name => simp [Simple.actions, fragments, Simple.cLines, CLines.label]
  | goto name => simp [Simple.actions, fragments, Simple.cLines, CLines.jump]
  | input name => exact fragments_lines (CLines.inputRead name)
  | random name =>
    have binding : CLines.randomBinding name = "float " ++ name ++ " = rand() % 100 + 1;" := by
      rw [CLines.randomBinding, String.append_assoc, String.append_assoc]
      rfl
    simp [Simple.actions, fragments, Simple.cLines, CLines.randomSeed, binding]

theorem Line.fragments_actions (line : Line) : fragments "" line.actions = (line.cLines, "") := by
  cases line with
  | simple statement => exact statement.fragments_actions
  | opening block condition =>
    have around := fragments_around condition.unended_actions block.head CLines.blockOpening
    rw [Condition.bodyOf_actions] at around
    rw [Line.actions, around]
    cases block <;> simp [Line.cLines, cOpening, Block.head, CLines.blockOpening]
  | closing block => simp [Line.actions, fragments, Line.cLines, CLines.blockClosing]

theorem fragments_flatMap_lines (lines : List Line) :
    fragments "" (lines.flatMap Line.actions) = (lines.flatMap Line.cLines, "") := by
  induction lines with
  | nil => rfl
  | cons line lines ih =>
    rw [List.flatMap_cons, fragments_append, line.fragments_actions, ih, List.flatMap_cons]

theorem Program.fragments_actions (program : Program) :
    fragments "" program.actions = (cLinesOf program.statements ++ ["return 0;", "\x7d"], "") := by
  have prologue : fragments "" (CLines.prologue.map fun line => .write (.header line)) = ([], "") := rfl
  rw [Program.actions, fragments_append, fragments_append, prologue, fragments_flatMap_lines,
    fragments_lines, cLinesOf_eq_flatMap]
  rfl

namespace Account

theorem fragments_performAll {account final : Account Emitter} {actions : List Action}
    (performed : account.performAll actions = .ok final) :
    final.sink.body.toList = account.sink.body.toList ++
        (fragments account.sink.pending actions).1.map (· ++ "\n") ∧
      final.sink.pending = (fragments account.sink.pending actions).2 := by
  generalize pending : account.sink.pending = text
  fun_induction fragments text actions generalizing account with
  | case1 =>
    cases performed
    exact ⟨by simp, pending⟩
  | case2 text more actions ih =>
    obtain ⟨next, first, others⟩ := performAll_cons_eq_ok.mp performed
    cases first
    have written := ih others (congrArg (· ++ more) pending)
    exact written
  | case3 text more actions lines left cut ih =>
    obtain ⟨next, first, others⟩ := performAll_cons_eq_ok.mp performed
    cases first
    obtain ⟨body, final⟩ := ih others rfl
    rw [cut] at body final
    refine ⟨?_, final⟩
    rw [body]
    simp [Sink.perform, Sink.emitLine, Emitter.emitLine, pending]
  | case4 text more actions ih =>
    obtain ⟨next, first, others⟩ := performAll_cons_eq_ok.mp performed
    cases first
    have written := ih others pending
    exact written
  | case5 text occurrence actions ih =>
    obtain ⟨next, first, others⟩ := performAll_cons_eq_ok.mp performed
    have kept : next.sink.body = account.sink.body ∧ next.sink.pending = account.sink.pending := by
      cases perform_occur_eq_ok.mp first <;> exact ⟨rfl, rfl⟩
    obtain ⟨body, final⟩ := ih others (kept.2.trans pending)
    exact ⟨kept.1 ▸ body, final⟩

end Account

/-! ## Whole programs -/

def Program.emitter (program : Program) : Emitter :=
  .ofLines program.cHeader (cLinesOf program.statements ++ ["return 0;", "\x7d"])

private theorem Program.emitter_performAll (program : Program) {final : Account Emitter}
    (performed : (State.initialAccount {}).performAll program.actions = .ok final) :
    final.sink = program.emitter := by
  obtain ⟨body, pending⟩ := Account.fragments_performAll performed
  have header := Account.header_performAll performed
  have written : fragments (State.initialAccount ({} : Emitter)).sink.pending program.actions =
      (cLinesOf program.statements ++ ["return 0;", "\x7d"], "") := program.fragments_actions
  have declared : headerOf (State.initialAccount ({} : Emitter)).declared.names program.actions =
      program.cHeader := program.headerOf_actions
  rw [written] at body pending
  rw [declared] at header
  generalize final.sink = sink at header body pending ⊢
  obtain ⟨⟨headerLines⟩, ⟨bodyLines⟩, left⟩ := sink
  simp only [Program.emitter, Emitter.ofLines, Emitter.mk.injEq]
  exact ⟨congrArg List.toArray header, congrArg List.toArray body, pending⟩

end Grammar

open Grammar

private theorem emission_outcome_eq_ok {source : String} {emitter : Emitter} :
    (emission source).outcome = .ok emitter ↔ ∃ after, emission source = .completed after ∧
      after.sink = emitter := by
  cases emission source <;> simp [Run.outcome]

theorem compile_eq_ok_iff_emission {source text : String} :
    compile source = .ok text ↔
      ∃ emitter, (emission source).outcome = .ok emitter ∧ text = emitter.finish := by
  rw [compile]
  cases (emission source).outcome <;> simp [Except.map, eq_comm]

/-- An accepted source leaves an emitter with just the lines of its program. -/
theorem emission_eq_ok {source : String} {emitter : Emitter} :
    (emission source).outcome = .ok emitter ↔
      ∃ tokens, tokenize source = .ok tokens ∧
        ∃ program : Grammar.Program, program.Derives (tokens.map (·.token)) ∧ program.Valid ∧
          emitter = program.emitter := by
  rw [emission_outcome_eq_ok]
  constructor
  · intro outcome
    obtain ⟨after, completed, rfl⟩ := outcome
    obtain ⟨tokens, tokenized, program, derives, performed, resolved⟩ :=
      run_completed_iff.mp ⟨after, completed, rfl⟩
    refine ⟨tokens, tokenized, program, derives, ?_, program.emitter_performAll performed⟩
    exact (program.valid_iff_exists_performAll _).mpr ⟨_, performed, resolved⟩
  · intro derived
    obtain ⟨tokens, tokenized, program, derives, valid, rfl⟩ := derived
    obtain ⟨final, performed, resolved⟩ :=
      (program.valid_iff_exists_performAll ({} : Emitter)).mp valid
    obtain ⟨after, completed, rfl⟩ :=
      run_completed_iff.mpr ⟨tokens, tokenized, program, derives, performed, resolved⟩
    exact ⟨after, completed, program.emitter_performAll performed⟩

end TeenyBasic
