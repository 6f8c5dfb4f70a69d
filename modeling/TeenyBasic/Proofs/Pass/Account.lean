import TeenyBasic.CLines
import TeenyBasic.Failure
import TeenyBasic.Proofs.Grammar.Lines

/-!
What a program does to the compiler's books, step by step. A tree is a list of actions: pieces of C
text to write, and uses of names to check and to record. The account is the part of the pass's state
that actions change; performing an action is refused for the reason the pass would give.
-/

set_option autoImplicit false

namespace TeenyBasic.Grammar

inductive Action where
  | write (call : Call)
  | occur (occurrence : Occurrence)
  deriving DecidableEq, Repr

/-- What has been written, which variables have a value, which labels have been placed and which
have been jumped to, the newest first. -/
structure Account (σ : Type) where
  sink : σ
  declared : Variables
  labels : List String
  jumps : List String

namespace Account

variable {σ : Type} [Sink σ]

def record (account : Account σ) : Occurrence → Except Refusal (Account σ)
  | .introduced name =>
    if isReserved name then .error (.reservedName name) else .ok account
  | .assigned name =>
    if account.declared.contains name then .ok account
    else
      .ok
        { account with
          declared := account.declared.insert name
          sink := Sink.headerLine account.sink (CLines.declaration name) }
  | .read name =>
    if account.declared.contains name then .ok account else .error (.undefinedVariable name)
  | .placed label =>
    if label ∈ account.labels then .error (.duplicateLabel label)
    else .ok { account with labels := label :: account.labels }
  | .jumped label => .ok { account with jumps := label :: account.jumps }

def perform (account : Account σ) : Action → Except Refusal (Account σ)
  | .write call => .ok { account with sink := Sink.perform account.sink call }
  | .occur occurrence => account.record occurrence

def performAll (account : Account σ) (actions : List Action) : Except Refusal (Account σ) :=
  actions.foldlM perform account

/-- Every jump leads to a label. -/
def Resolved (account : Account σ) : Prop :=
  ∀ label ∈ account.jumps, label ∈ account.labels

/-- All that recording an occurrence can do. -/
inductive Records (account : Account σ) : Occurrence → Account σ → Prop where
  | introduced {name : String} : isReserved name = false →
      Records account (.introduced name) account
  | assignedAgain {name : String} : account.declared.contains name = true →
      Records account (.assigned name) account
  | assignedFirst {name : String} : account.declared.contains name = false →
      Records account (.assigned name)
        { account with
          declared := { names := name :: account.declared.names }
          sink := Sink.headerLine account.sink (CLines.declaration name) }
  | read {name : String} : account.declared.contains name = true →
      Records account (.read name) account
  | placed {label : String} : label ∉ account.labels →
      Records account (.placed label) { account with labels := label :: account.labels }
  | jumped {label : String} :
      Records account (.jumped label) { account with jumps := label :: account.jumps }

theorem record_eq_ok {account next : Account σ} {occurrence : Occurrence} :
    account.record occurrence = .ok next ↔ account.Records occurrence next := by
  constructor
  · intro recorded
    cases occurrence with
    | introduced name =>
      cases reserved : isReserved name <;> simp [record, reserved] at recorded
      exact recorded ▸ .introduced reserved
    | assigned name =>
      cases known : account.declared.contains name <;>
        simp [record, Variables.insert, known] at recorded
      · exact recorded ▸ .assignedFirst known
      · exact recorded ▸ .assignedAgain known
    | read name =>
      cases known : account.declared.contains name <;> simp [record, known] at recorded
      exact recorded ▸ .read known
    | placed label =>
      by_cases taken : label ∈ account.labels <;> simp [record, taken] at recorded
      exact recorded ▸ .placed taken
    | jumped label =>
      cases recorded
      exact .jumped
  · intro records
    cases records with
    | introduced fresh => simp [record, fresh]
    | assignedAgain known => simp [record, known]
    | assignedFirst unknown => simp [record, Variables.insert, unknown]
    | read known => simp [record, known]
    | placed vacant => simp [record, vacant]
    | jumped => rfl

/-- All the reasons for which recording an occurrence is refused. -/
inductive Refuses (account : Account σ) : Occurrence → Refusal → Prop where
  | introduced {name : String} : isReserved name = true →
      Refuses account (.introduced name) (.reservedName name)
  | read {name : String} : account.declared.contains name = false →
      Refuses account (.read name) (.undefinedVariable name)
  | placed {label : String} : label ∈ account.labels →
      Refuses account (.placed label) (.duplicateLabel label)

private theorem record_eq_error {account : Account σ} {occurrence : Occurrence} {refusal : Refusal} :
    account.record occurrence = .error refusal ↔ account.Refuses occurrence refusal := by
  constructor
  · intro refused
    cases occurrence with
    | introduced name =>
      cases reserved : isReserved name <;> simp [record, reserved] at refused
      exact refused ▸ .introduced reserved
    | assigned name => cases known : account.declared.contains name <;> simp [record, known] at refused
    | read name =>
      cases known : account.declared.contains name <;> simp [record, known] at refused
      exact refused ▸ .read known
    | placed label =>
      by_cases taken : label ∈ account.labels <;> simp [record, taken] at refused
      exact refused ▸ .placed taken
    | jumped label => cases refused
  · intro refuses
    cases refuses with
    | introduced reserved => simp [record, reserved]
    | read unknown => simp [record, unknown]
    | placed taken => simp [record, taken]

theorem perform_occur_eq_ok {account next : Account σ} {occurrence : Occurrence} :
    account.perform (.occur occurrence) = .ok next ↔ account.Records occurrence next :=
  record_eq_ok

theorem perform_occur_eq_error {account : Account σ} {occurrence : Occurrence} {refusal : Refusal} :
    account.perform (.occur occurrence) = .error refusal ↔ account.Refuses occurrence refusal :=
  record_eq_error

theorem unreserved_of_perform {account next : Account σ} {name : String}
    (performed : account.perform (.occur (.introduced name)) = .ok next) :
    isReserved name = false := by
  cases perform_occur_eq_ok.mp performed with
  | introduced fresh => exact fresh

namespace Records

variable {account next : Account σ} {occurrence : Occurrence}
  (records : account.Records occurrence next)

include records

theorem mem_declared {name : String} : name ∈ next.declared.names ↔
    name ∈ account.declared.names ∨ occurrence = .assigned name := by
  cases records with
  | assignedAgain known =>
    simp only [Variables.contains, List.contains_iff_mem] at known
    constructor
    · exact .inl
    · rintro (member | assigned)
      · exact member
      · cases assigned
        exact known
  | assignedFirst => simp [or_comm, eq_comm]
  | _ => simp

theorem mem_labels {label : String} :
    label ∈ next.labels ↔ label ∈ account.labels ∨ occurrence = .placed label := by
  cases records <;> simp [or_comm, eq_comm]

theorem mem_jumps {label : String} :
    label ∈ next.jumps ↔ label ∈ account.jumps ∨ occurrence = .jumped label := by
  cases records <;> simp [or_comm, eq_comm]

end Records

@[simp] theorem performAll_nil (account : Account σ) : account.performAll [] = .ok account := rfl

theorem performAll_singleton (account : Account σ) (action : Action) :
    account.performAll [action] = account.perform action := by
  rw [performAll, List.foldlM_cons]
  cases account.perform action <;> rfl

theorem performAll_append (account : Account σ) (front back : List Action) :
    account.performAll (front ++ back) =
      account.performAll front >>= fun between => between.performAll back :=
  List.foldlM_append

theorem performAll_append_eq_ok {account final : Account σ} {front back : List Action} :
    account.performAll (front ++ back) = .ok final ↔
      ∃ between, account.performAll front = .ok between ∧ between.performAll back = .ok final := by
  rw [performAll_append]
  cases account.performAll front with
  | error refusal =>
    constructor
    · intro success
      cases success
    · rintro ⟨_, failed, _⟩
      cases failed
  | ok between =>
    constructor
    · intro success
      exact ⟨between, rfl, success⟩
    · rintro ⟨_, same, success⟩
      cases same
      exact success

theorem performAll_append_eq_error {account : Account σ} {refusal : Refusal}
    {front back : List Action} :
    account.performAll (front ++ back) = .error refusal ↔
      account.performAll front = .error refusal ∨
        ∃ between, account.performAll front = .ok between ∧
          between.performAll back = .error refusal := by
  rw [performAll_append]
  cases account.performAll front with
  | error other =>
    constructor
    · intro failed
      exact .inl failed
    · rintro (failed | ⟨_, impossible, _⟩)
      · exact failed
      · cases impossible
  | ok between =>
    constructor
    · intro failed
      exact .inr ⟨between, rfl, failed⟩
    · rintro (impossible | ⟨_, same, failed⟩)
      · cases impossible
      · cases same
        exact failed

theorem performAll_cons_eq_ok {account final : Account σ} {action : Action}
    {actions : List Action} :
    account.performAll (action :: actions) = .ok final ↔
      ∃ between, account.perform action = .ok between ∧ between.performAll actions = .ok final := by
  rw [← List.singleton_append, performAll_append_eq_ok]
  simp only [performAll_singleton]

theorem performAll_cons_eq_error {account : Account σ} {refusal : Refusal} {action : Action}
    {actions : List Action} :
    account.performAll (action :: actions) = .error refusal ↔
      account.perform action = .error refusal ∨
        ∃ between, account.perform action = .ok between ∧
          between.performAll actions = .error refusal := by
  rw [← List.singleton_append, performAll_append_eq_error]
  simp only [performAll_singleton]

/-- Writing is always allowed. -/
theorem exists_performAll_of_writes {actions : List Action}
    (writes : ∀ action ∈ actions, ∃ call, action = .write call) (account : Account σ) :
    ∃ final, account.performAll actions = .ok final := by
  induction actions generalizing account with
  | nil => exact ⟨account, rfl⟩
  | cons action actions ih =>
    obtain ⟨call, rfl⟩ := writes action (.head _)
    obtain ⟨final, performed⟩ := ih (fun other member => writes other (.tail _ member))
      { account with sink := Sink.perform account.sink call }
    exact ⟨final, performAll_cons_eq_ok.mpr ⟨_, rfl, performed⟩⟩

end Account

/-! ## Actions of trees -/

/-- The action of copying a token. -/
def copied (token : Token) : Action :=
  .write (.emit token.text)

def Operand.actions : Operand → List Action
  | .number digits => [copied (.number digits)]
  | .name text => [.occur (.read text), copied (.name text)]

def Factor.actions (factor : Factor) : List Action :=
  factor.sign.toList.map (fun sign => copied (signToken sign)) ++ factor.operand.actions

def Term.actions (term : Term) : List Action :=
  term.spell (fun scaling => copied (scalingToken scaling)) Factor.actions

/-- A plus or minus with the term after it. A space keeps the two signs apart if the term has one. -/
def Expression.roundActions (round : Sign × Term) : List Action :=
  copied (signToken round.1) ::
    ((if Term.isSigned round.2 then [.write (.emit " ")] else []) ++ Term.actions round.2)

def Expression.actions (expression : Expression) : List Action :=
  Term.actions expression.first ++ expression.rest.flatMap Expression.roundActions

def Condition.actions (condition : Condition) : List Action :=
  condition.chain.spell (fun comparison => copied (comparisonToken comparison)) Expression.actions

def Simple.actions : Simple → List Action
  | .printText body => [.write (.line (CLines.printString body))]
  | .printValue value =>
    .write (.emit CLines.printOpening) :: Expression.actions value ++
      [.write (.line CLines.printClosing)]
  | .label name => [.occur (.placed name), .occur (.introduced name), .write (.line (CLines.label name))]
  | .goto name => [.occur (.introduced name), .occur (.jumped name), .write (.line (CLines.jump name))]
  | .assign name value =>
    [.occur (.introduced name), .occur (.assigned name),
      .write (.emit (CLines.assignmentOpening name))] ++ Expression.actions value ++
      [.write (.line CLines.assignmentClosing)]
  | .input name =>
    .occur (.introduced name) :: .occur (.assigned name) ::
      (CLines.inputRead name).map fun line => .write (.line line)
  | .random name =>
    [.occur (.introduced name), .write (.line CLines.randomSeed),
      .write (.line (CLines.randomBinding name))]

def Line.actions : Line → List Action
  | .simple statement => statement.actions
  | .opening block condition =>
    .write (.emit block.head) :: condition.actions ++ [.write (.line CLines.blockOpening)]
  | .closing _ => [.write (.line CLines.blockClosing)]

def Program.actions (program : Program) : List Action :=
  CLines.prologue.map (fun line => .write (.header line)) ++
    (linesOf program.statements).flatMap Line.actions ++
    CLines.epilogue.map fun line => .write (.line line)

/-! ## Entries of trees -/

/-- Whether an action concerns names or the header and not the body of the C text. -/
def Action.isEntry : Action → Bool
  | .write (.header _) => true
  | .write _ => false
  | .occur _ => true

def entries (actions : List Action) : List Action :=
  actions.filter Action.isEntry

@[simp] theorem entries_nil : entries [] = [] := rfl

@[simp] theorem entries_emit (text : String) (actions : List Action) :
    entries (.write (.emit text) :: actions) = entries actions := rfl

@[simp] theorem entries_copied (token : Token) (actions : List Action) :
    entries (copied token :: actions) = entries actions := rfl

@[simp] theorem entries_line (text : String) (actions : List Action) :
    entries (.write (.line text) :: actions) = entries actions := rfl

@[simp] theorem entries_header (text : String) (actions : List Action) :
    entries (.write (.header text) :: actions) = .write (.header text) :: entries actions := rfl

@[simp] theorem entries_occur (occurrence : Occurrence) (actions : List Action) :
    entries (.occur occurrence :: actions) = .occur occurrence :: entries actions := rfl

@[simp] theorem entries_append (front back : List Action) :
    entries (front ++ back) = entries front ++ entries back :=
  List.filter_append ..

theorem entries_flatMap {α : Type} (actions : α → List Action) (items : List α) :
    entries (items.flatMap actions) = items.flatMap fun item => entries (actions item) :=
  List.filter_flatMap

/-- A chain has the entries of its items. -/
theorem entries_spell {op item : Type} (mark : op → Token) (actions : item → List Action)
    (chain : Chain op item) :
    entries (chain.spell (fun op => copied (mark op)) actions) =
      chain.items.flatMap fun item => entries (actions item) := by
  simp [Chain.spell, Chain.items, entries_flatMap, List.flatMap_map]

/-- The entries of reading variables. -/
def readings (names : List String) : List Action :=
  names.map fun name => .occur (.read name)

theorem readings_flatMap {α : Type} (namesOf : α → List String) (items : List α) :
    readings (items.flatMap namesOf) = items.flatMap fun item => readings (namesOf item) :=
  List.map_flatMap

theorem Factor.entries_actions (factor : Factor) :
    entries factor.actions = readings factor.operand.variables := by
  obtain ⟨sign, operand⟩ := factor
  cases sign <;> cases operand <;> rfl

theorem Term.entries_actions (term : Term) :
    entries (Term.actions term) = readings (Term.variables term) := by
  rw [Term.actions, entries_spell, Term.variables, readings_flatMap]
  simp only [Factor.entries_actions]

theorem Expression.entries_roundActions (round : Sign × Term) :
    entries (Expression.roundActions round) = readings (Term.variables round.2) := by
  rw [Expression.roundActions, entries_copied, entries_append, Term.entries_actions]
  split <;> rfl

theorem Expression.entries_actions (expression : Expression) :
    entries (Expression.actions expression) = readings (Expression.variables expression) := by
  rw [Expression.actions, entries_append, entries_flatMap, Expression.variables, readings_flatMap]
  simp [Expression.entries_roundActions, Term.entries_actions, Chain.items, List.flatMap_map]

theorem Condition.entries_actions (condition : Condition) :
    entries condition.actions = readings condition.variables := by
  rw [Condition.actions, entries_spell, Condition.variables, readings_flatMap]
  simp only [Expression.entries_actions]

theorem Simple.entries_actions (statement : Simple) :
    entries statement.actions = statement.occurrences.map .occur := by
  cases statement with
  | printValue value =>
    simp [Simple.actions, Simple.occurrences, Expression.entries_actions, readings]
  | assign name value =>
    simp [Simple.actions, Simple.occurrences, Expression.entries_actions, readings]
  | _ => rfl

/-- The uses of names in one line. -/
def Line.occurrences : Line → List Occurrence
  | .simple statement => statement.occurrences
  | .opening _ condition => condition.variables.map .read
  | .closing _ => []

theorem Line.entries_actions (line : Line) :
    entries line.actions = line.occurrences.map .occur := by
  cases line with
  | simple statement => exact statement.entries_actions
  | opening block condition =>
    simp [Line.actions, Line.occurrences, condition.entries_actions, readings]
  | closing block => rfl

private theorem occurrences_linesOf :
    ∀ statements : List Statement,
      (linesOf statements).flatMap Line.occurrences = occurrencesOf statements
  | [] => rfl
  | .simple statement :: rest => by
    simp [linesOf, Statement.lines, occurrencesOf, Statement.occurrences, Line.occurrences,
      occurrences_linesOf rest]
  | .block block condition body :: rest => by
    simp [linesOf, Statement.lines, occurrencesOf, Statement.occurrences, Line.occurrences,
      occurrences_linesOf body, occurrences_linesOf rest]

/-- The entries of a program: the fixed lines of the header, and what its tree does with names. -/
theorem Program.entries_actions (program : Program) :
    entries program.actions =
      CLines.prologue.map (fun line => .write (.header line)) ++
        program.occurrences.map .occur := by
  have body : entries ((linesOf program.statements).flatMap Line.actions) =
      program.occurrences.map .occur := by
    rw [entries_flatMap, Program.occurrences, ← occurrences_linesOf, List.map_flatMap]
    simp only [Line.entries_actions]
  rw [Program.actions, entries_append, entries_append, body]
  exact List.append_nil _

end TeenyBasic.Grammar
