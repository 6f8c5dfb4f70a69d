import TeenyBasic.Proofs.Acceptance
import TeenyBasic.Proofs.Grammar.Reference

/-!
The C text that comes out is the one the tree stands for. Performing actions appends the texts they
write to the body (`Account.bodyText_performAll`), and to the header the fixed lines and one declaration
for each new target (`Account.headerText_performAll`). Both are computed from the actions of a tree.
-/

set_option autoImplicit false

namespace TeenyBasic

namespace Emitter

@[simp] theorem bodyText_emit (emitter : Emitter) (text : String) :
    (emitter.emit text).bodyText = emitter.bodyText ++ text := by
  simp [emit, bodyText, String.append_assoc]

@[simp] theorem bodyText_emitLine (emitter : Emitter) (text : String) :
    (emitter.emitLine text).bodyText = emitter.bodyText ++ (text ++ "\n") := by
  simp [emitLine, bodyText, String.append_assoc]

end Emitter

namespace Grammar

/-! ## The body -/

/-- What an action adds to the body. -/
def Action.bodyText : Action → String
  | .write (.emit text) => text
  | .write (.line text) => text ++ "\n"
  | .write (.header _) => ""
  | .occur _ => ""

@[simp] theorem bodyText_copied (token : Token) : (copied token).bodyText = token.text := rfl

@[simp] theorem bodyText_emit (text : String) : (Action.write (.emit text)).bodyText = text := rfl

@[simp] theorem bodyText_line (text : String) :
    (Action.write (.line text)).bodyText = text ++ "\n" := rfl

@[simp] theorem bodyText_header (text : String) :
    (Action.write (.header text)).bodyText = "" := rfl

@[simp] theorem bodyText_occur (occurrence : Occurrence) :
    (Action.occur occurrence).bodyText = "" := rfl

def bodyOf (actions : List Action) : String :=
  String.join (actions.map Action.bodyText)

@[simp] theorem bodyOf_nil : bodyOf [] = "" := rfl

@[simp] theorem bodyOf_cons (action : Action) (actions : List Action) :
    bodyOf (action :: actions) = action.bodyText ++ bodyOf actions := by
  simp [bodyOf]

@[simp] theorem bodyOf_append (front back : List Action) :
    bodyOf (front ++ back) = bodyOf front ++ bodyOf back := by
  simp [bodyOf]

theorem bodyOf_flatMap {α : Type} (actions : α → List Action) (items : List α) :
    bodyOf (items.flatMap actions) = String.join (items.map fun item => bodyOf (actions item)) := by
  induction items with
  | nil => rfl
  | cons item items ih => simp [ih]

namespace Account

private theorem bodyText_record {account next : Account Emitter} {occurrence : Occurrence}
    (recorded : account.record occurrence = .ok next) :
    next.sink.bodyText = account.sink.bodyText := by
  cases record_eq_ok.mp recorded <;> rfl

theorem bodyText_performAll {account final : Account Emitter} {actions : List Action}
    (performed : account.performAll actions = .ok final) :
    final.sink.bodyText = account.sink.bodyText ++ bodyOf actions := by
  induction actions generalizing account with
  | nil =>
    cases performed
    simp
  | cons action actions ih =>
    obtain ⟨next, first, others⟩ := performAll_cons_eq_ok.mp performed
    have step : next.sink.bodyText = account.sink.bodyText ++ action.bodyText := by
      cases action with
      | write call =>
        cases first
        cases call with
        | emit text => exact account.sink.bodyText_emit text
        | line text => exact account.sink.bodyText_emitLine text
        | header text => exact String.append_empty.symm
      | occur occurrence => simpa using bodyText_record first
    rw [ih others, step, bodyOf_cons, String.append_assoc]

end Account

theorem Factor.bodyOf_actions (factor : Factor) :
    bodyOf factor.actions = verbatim factor.tokens := by
  obtain ⟨sign, operand⟩ := factor
  cases sign <;> cases operand <;>
    simp [Factor.actions, Factor.tokens, Operand.actions, Operand.tokens]

theorem Term.bodyOf_actions (term : Term) : bodyOf (Term.actions term) = Term.cText term := by
  simp [Term.actions, Term.cText, Term.tokens, Chain.spell, bodyOf_flatMap, verbatim_flatMap,
    Factor.bodyOf_actions]

theorem Expression.bodyOf_roundActions (round : Sign × Term) :
    bodyOf (Expression.roundActions round) = Expression.cRound round := by
  cases signed : Term.isSigned round.2 <;>
    simp [Expression.roundActions, Expression.cRound, signed, Term.bodyOf_actions]

theorem Expression.bodyOf_actions (expression : Expression) :
    bodyOf (Expression.actions expression) = Expression.cText expression := by
  simp [Expression.actions, Expression.cText, bodyOf_flatMap, Term.bodyOf_actions,
    Expression.bodyOf_roundActions]

theorem Condition.bodyOf_actions (condition : Condition) :
    bodyOf condition.actions = condition.cText := by
  simp [Condition.actions, Condition.cText, Chain.spell, bodyOf_flatMap, Expression.bodyOf_actions]

theorem Simple.bodyOf_actions (statement : Simple) :
    bodyOf statement.actions = linesText statement.cLines := by
  cases statement with
  | printValue value =>
    simp [Simple.actions, Simple.cLines, Expression.bodyOf_actions, CLines.printOpening,
      CLines.printClosing, String.append_assoc]
  | assign name value =>
    simp [Simple.actions, Simple.cLines, Expression.bodyOf_actions, CLines.assignmentOpening,
      CLines.assignmentClosing, String.append_assoc]
  | printText body => simp [Simple.actions, Simple.cLines, CLines.printString]
  | label name => simp [Simple.actions, Simple.cLines, CLines.label]
  | goto name => simp [Simple.actions, Simple.cLines, CLines.jump]
  | input name => simp [Simple.actions, Simple.cLines, CLines.inputRead]
  | random name =>
    have binding : CLines.randomBinding name = "float " ++ name ++ " = rand() % 100 + 1;" := by
      rw [CLines.randomBinding, String.append_assoc, String.append_assoc]
      rfl
    simp [Simple.actions, Simple.cLines, CLines.randomSeed, binding]

theorem bodyOf_opening (block : Block) (condition : Condition) :
    bodyOf (Line.opening block condition).actions = cOpening block condition ++ "\n" := by
  cases block <;>
    simp [Line.actions, cOpening, condition.bodyOf_actions, Block.head, CLines.blockOpening,
      String.append_assoc]

theorem bodyOf_linesOf :
    ∀ statements : List Statement,
      bodyOf ((linesOf statements).flatMap Line.actions) = linesText (cLinesOf statements)
  | [] => rfl
  | .simple statement :: rest => by
    simp [linesOf, Statement.lines, cLinesOf, Statement.cLines, Line.actions,
      statement.bodyOf_actions, bodyOf_linesOf rest]
  | .block block condition body :: rest => by
    have closing : bodyOf (Line.closing block).actions = "\x7d\n" := rfl
    simp [linesOf, Statement.lines, cLinesOf, Statement.cLines, bodyOf_opening, closing,
      bodyOf_linesOf body, bodyOf_linesOf rest, String.append_assoc]

/-! ## The header -/

/-- The lines that actions add to the header, if the given variables have a declaration. -/
def headerOf (declared : List String) : List Action → List String
  | [] => []
  | .write (.header line) :: actions => line :: headerOf declared actions
  | .occur (.assigned name) :: actions =>
    if name ∈ declared then headerOf declared actions
    else CLines.declaration name :: headerOf (name :: declared) actions
  | _ :: actions => headerOf declared actions

private theorem headerOf_entries (declared : List String) (actions : List Action) :
    headerOf declared (entries actions) = headerOf declared actions := by
  fun_induction headerOf declared actions with
  | case1 => rfl
  | case2 declared line actions ih => simpa [headerOf] using ih
  | case3 declared name actions member ih => simpa [headerOf, member] using ih
  | case4 declared name actions new ih => simpa [headerOf, new] using ih
  | case5 declared action actions notHeader notAssigned ih =>
    cases action with
    | write call =>
      cases call with
      | header line => exact absurd rfl (notHeader line)
      | _ => simpa using ih
    | occur occurrence =>
      cases occurrence with
      | assigned name => exact absurd rfl (notAssigned name)
      | _ => simpa [headerOf] using ih

namespace Account

/-- Where the names that have a declaration are just the variables with a value. -/
theorem header_performAll {account final : Account Emitter} {actions : List Action}
    (performed : account.performAll actions = .ok final) :
    final.sink.header.toList = account.sink.header.toList ++
      (headerOf account.declared.names actions).map (· ++ "\n") := by
  generalize declared : account.declared.names = names
  fun_induction headerOf names actions generalizing account with
  | case1 =>
    cases performed
    simp
  | case2 names line actions ih =>
    obtain ⟨next, first, others⟩ := performAll_cons_eq_ok.mp performed
    cases first
    simp [ih others declared, Sink.perform, Sink.headerLine, Emitter.headerLine]
  | case3 names name actions member ih =>
    obtain ⟨next, first, others⟩ := performAll_cons_eq_ok.mp performed
    cases perform_occur_eq_ok.mp first with
    | assignedAgain known => exact ih others declared
    | assignedFirst unknown =>
      rw [Variables.contains, declared] at unknown
      simp [member] at unknown
  | case4 names name actions new ih =>
    obtain ⟨next, first, others⟩ := performAll_cons_eq_ok.mp performed
    cases perform_occur_eq_ok.mp first with
    | assignedAgain known =>
      rw [Variables.contains, declared] at known
      simp [new] at known
    | assignedFirst unknown =>
      rw [ih others (congrArg (name :: ·) declared)]
      simp [Sink.headerLine, Emitter.headerLine]
  | case5 names action actions notHeader notAssigned ih =>
    obtain ⟨next, first, others⟩ := performAll_cons_eq_ok.mp performed
    have kept : next.declared = account.declared ∧ next.sink.header = account.sink.header := by
      cases action with
      | write call =>
        cases first
        cases call with
        | header line => exact absurd rfl (notHeader line)
        | _ => exact ⟨rfl, rfl⟩
      | occur occurrence =>
        cases perform_occur_eq_ok.mp first with
        | assignedAgain | assignedFirst => exact absurd rfl (notAssigned _)
        | _ => exact ⟨rfl, rfl⟩
    rw [ih others (kept.1 ▸ declared), kept.2]

theorem headerText_performAll {account final : Account Emitter} {actions : List Action}
    (performed : account.performAll actions = .ok final) :
    final.sink.headerText =
      account.sink.headerText ++ linesText (headerOf account.declared.names actions) := by
  rw [Emitter.headerText, header_performAll performed, String.join_append]
  rfl

end Account

def Occurrence.target? : Occurrence → Option String
  | .assigned name => some name
  | _ => none

def targetsIn (occurrences : List Occurrence) : List String :=
  occurrences.filterMap Occurrence.target?

@[simp] theorem targetsIn_append (front back : List Occurrence) :
    targetsIn (front ++ back) = targetsIn front ++ targetsIn back :=
  List.filterMap_append

@[simp] theorem targetsIn_map_read (names : List String) : targetsIn (names.map .read) = [] := by
  simp [targetsIn, Occurrence.target?]

private theorem targetsIn_occurrencesOf :
    ∀ statements : List Statement, targetsIn (occurrencesOf statements) = targetsOf statements
  | [] => rfl
  | .simple statement :: rest => by
    have own : targetsIn statement.occurrences = (Statement.simple statement).targets := by
      cases statement with
      | printValue value => exact targetsIn_map_read _
      | assign name value => exact congrArg (name :: ·) (targetsIn_map_read _)
      | _ => rfl
    simp [occurrencesOf, Statement.occurrences, targetsOf, own, targetsIn_occurrencesOf rest]
  | .block block condition body :: rest => by
    simp [occurrencesOf, Statement.occurrences, targetsOf, Statement.targets,
      targetsIn_occurrencesOf body, targetsIn_occurrencesOf rest]

/-- Each target gets one declaration, unless it has one already. -/
theorem headerOf_map_occur (declared : List String) (occurrences : List Occurrence) :
    headerOf declared (occurrences.map .occur) =
      ((targetsIn occurrences).removeAll declared).eraseDups.map CLines.declaration := by
  induction occurrences generalizing declared with
  | nil => rfl
  | cons occurrence occurrences ih =>
    cases occurrence with
    | assigned name =>
      have targets : targetsIn (.assigned name :: occurrences) = name :: targetsIn occurrences := rfl
      have others : (targetsIn occurrences).removeAll (name :: declared) =
          ((targetsIn occurrences).removeAll declared).filter fun other => !other == name := by
        simp only [List.removeAll, List.filter_filter, List.elem_cons]
        refine List.filter_congr fun other _ => ?_
        cases other == name <;> rfl
      by_cases member : name ∈ declared
      · simp [headerOf, member, targets, ih, List.removeAll]
      · have kept : (name :: targetsIn occurrences).removeAll declared =
            name :: (targetsIn occurrences).removeAll declared := by
          simp [List.removeAll, member]
        simp only [List.map_cons, headerOf, if_neg member, ih, targets, others, kept,
          List.eraseDups_cons]
    | _ => exact ih declared

theorem Program.headerOf_actions (program : Program) :
    headerOf [] program.actions = program.cHeader := by
  have declarations : headerOf [] (program.occurrences.map .occur) =
      (targetsOf program.statements).eraseDups.map CLines.declaration := by
    have whole : (targetsOf program.statements).removeAll [] = targetsOf program.statements :=
      List.filter_eq_self.mpr fun _ _ => rfl
    rw [headerOf_map_occur, Program.occurrences, targetsIn_occurrencesOf, whole]
  rw [← headerOf_entries, program.entries_actions, Program.cHeader]
  exact congrArg (CLines.prologue ++ ·) declarations

/-! ## Whole programs -/

theorem Program.bodyOf_actions (program : Program) :
    bodyOf program.actions =
      linesText (cLinesOf program.statements) ++ linesText ["return 0;", "\x7d"] := by
  rw [Program.actions, bodyOf_append, bodyOf_append, bodyOf_linesOf]
  simp [CLines.prologue, CLines.includes, CLines.epilogue]

/-- What an emitter holds after the actions of a program is the program's C text. -/
theorem Program.finish_performAll (program : Program) {final : Account Emitter}
    (performed : (State.initialAccount {}).performAll program.actions = .ok final) :
    final.sink.finish = program.cText := by
  have header : final.sink.headerText = linesText program.cHeader := by
    rw [Account.headerText_performAll performed, ← program.headerOf_actions]
    rfl
  have body : final.sink.bodyText = bodyOf program.actions := by
    rw [Account.bodyText_performAll performed]
    rfl
  rw [Emitter.finish, header, body, program.bodyOf_actions, Program.cText, Program.cLines]
  simp

end Grammar

open Grammar

/-- A source compiles to a text just when its tokens derive from a valid program with that C text;
there is only one tree that the tokens derive from. -/
theorem compile_eq_ok_iff_cText (source text : String) :
    compile source = .ok text ↔
      ∃ tokens, tokenize source = .ok tokens ∧
        ∃ program : Grammar.Program, program.Derives (tokens.map (·.token)) ∧ program.Valid ∧
          (∀ other : Grammar.Program, other.Derives (tokens.map (·.token)) → other = program) ∧
          text = program.cText := by
  rw [compile_eq_ok]
  constructor
  · rintro ⟨after, completed, rfl⟩
    obtain ⟨tokens, tokenized, program, derives, performed, resolved⟩ :=
      run_completed_iff.mp ⟨after, completed, rfl⟩
    refine ⟨tokens, tokenized, program, derives, ?_, ?_, ?_⟩
    · exact (program.valid_iff_exists_performAll _).mpr ⟨_, performed, resolved⟩
    · exact fun other derivesOther => derivesOther.unique derives
    · exact program.finish_performAll performed
  · rintro ⟨tokens, tokenized, program, derives, valid, -, rfl⟩
    obtain ⟨final, performed, resolved⟩ :=
      (program.valid_iff_exists_performAll ({} : Emitter)).mp valid
    obtain ⟨after, completed, rfl⟩ :=
      run_completed_iff.mpr ⟨tokens, tokenized, program, derives, performed, resolved⟩
    exact ⟨after, completed, (program.finish_performAll performed).symm⟩

end TeenyBasic
