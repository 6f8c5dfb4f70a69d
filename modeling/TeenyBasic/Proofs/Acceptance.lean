import TeenyBasic.Proofs.Pass.Program

/-!
Which sources are compiled. A run completes if its actions are allowed; whether they are depends on
the occurrences of names among them alone, and these are the occurrences of the tree
(`Program.namesIn_actions`). An account permits a list of occurrences just when it can record them
one after the other (`Account.exists_performAll_iff`), and the empty account permits those of valid
programs.
-/

set_option autoImplicit false

namespace TeenyBasic.Grammar

/-! ## Occurrences among actions -/

def Action.occurrence? : Action → Option Occurrence
  | .write _ => none
  | .occur occurrence => some occurrence

/-- The uses of names among actions. -/
def namesIn (actions : List Action) : List Occurrence :=
  actions.filterMap Action.occurrence?

@[simp] theorem namesIn_nil : namesIn [] = [] := rfl

@[simp] theorem namesIn_write (call : Call) (actions : List Action) :
    namesIn (.write call :: actions) = namesIn actions := rfl

@[simp] theorem namesIn_occur (occurrence : Occurrence) (actions : List Action) :
    namesIn (.occur occurrence :: actions) = occurrence :: namesIn actions := rfl

theorem namesIn_entries (actions : List Action) : namesIn (entries actions) = namesIn actions := by
  induction actions with
  | nil => rfl
  | cons action actions ih =>
    cases action with
    | write call => cases call <;> simpa using ih
    | occur occurrence => simpa using ih

theorem namesIn_map_occur (occurrences : List Occurrence) :
    namesIn (occurrences.map .occur) = occurrences := by
  induction occurrences with
  | nil => rfl
  | cons occurrence occurrences ih => simpa using ih

theorem Program.namesIn_actions (program : Program) :
    namesIn program.actions = program.occurrences := by
  rw [← namesIn_entries, program.entries_actions]
  exact namesIn_map_occur program.occurrences

/-! ## Labels -/

theorem Occurrence.label?_eq_some {occurrence : Occurrence} {label : String} :
    occurrence.label? = some label ↔ occurrence = .placed label := by
  cases occurrence <;> simp [Occurrence.label?]

theorem mem_labelsPlaced {occurrences : List Occurrence} {label : String} :
    label ∈ labelsPlaced occurrences ↔ .placed label ∈ occurrences := by
  simp [labelsPlaced, Occurrence.label?_eq_some]

theorem count_labelsPlaced (occurrences : List Occurrence) (label : String) :
    (labelsPlaced occurrences).count label = occurrences.count (.placed label) := by
  rw [labelsPlaced, List.count_filterMap, List.count]
  apply List.countP_congr
  intro occurrence _
  simp [Occurrence.label?_eq_some]

/-! ## What an account permits -/

namespace Account

variable {σ : Type}

theorem labelsPlaced_cons (occurrence : Occurrence) (occurrences : List Occurrence) :
    labelsPlaced (occurrence :: occurrences) =
      occurrence.label?.toList ++ labelsPlaced occurrences := by
  cases occurrence <;> rfl

/-- The occurrences can be recorded in order: an operand has a value by then, and a label is new. -/
structure Permits (account : Account σ) (occurrences : List Occurrence) : Prop where
  unreserved : ∀ name, .introduced name ∈ occurrences → name ∉ reservedNames
  readAssigned : ∀ before name after, occurrences = before ++ .read name :: after →
    name ∈ account.declared.names ∨ .assigned name ∈ before
  labelsDistinct : (labelsPlaced occurrences).Nodup
  labelsNew : ∀ label ∈ labelsPlaced occurrences, label ∉ account.labels

private theorem Permits.nil (account : Account σ) : account.Permits [] where
  unreserved := by simp
  readAssigned := by simp
  labelsDistinct := by simp [labelsPlaced]
  labelsNew := by simp [labelsPlaced]

private theorem Permits.of_same_names {account other : Account σ} {occurrences : List Occurrence}
    (permits : account.Permits occurrences) (declared : other.declared = account.declared)
    (labels : other.labels = account.labels) : other.Permits occurrences where
  unreserved := permits.unreserved
  readAssigned := declared ▸ permits.readAssigned
  labelsDistinct := permits.labelsDistinct
  labelsNew := labels ▸ permits.labelsNew

theorem mem_label? {occurrence : Occurrence} {label : String} :
    label ∈ occurrence.label?.toList ↔ occurrence = .placed label := by
  cases occurrence <;> simp [Occurrence.label?, eq_comm]

variable [Sink σ] {account next : Account σ} {occurrence : Occurrence}
  {occurrences : List Occurrence}

/-- What is permitted passes the check of its first occurrence. -/
theorem Permits.exists_records (permits : account.Permits (occurrence :: occurrences)) :
    ∃ next, account.Records occurrence next := by
  cases occurrence with
  | introduced name =>
    exact ⟨_, .introduced (by simpa [isReserved] using permits.unreserved name (.head _))⟩
  | assigned name =>
    cases known : account.declared.contains name with
    | false => exact ⟨_, .assignedFirst known⟩
    | true => exact ⟨_, .assignedAgain known⟩
  | read name =>
    have known := permits.readAssigned [] name occurrences rfl
    exact ⟨_, .read (by simpa [Variables.contains] using known)⟩
  | placed label =>
    exact ⟨_, .placed (permits.labelsNew label (by simp [labelsPlaced_cons, Occurrence.label?]))⟩
  | jumped label => exact ⟨_, .jumped⟩

private theorem Permits.tail (permits : account.Permits (occurrence :: occurrences))
    (records : account.Records occurrence next) : next.Permits occurrences where
  unreserved := fun name member => permits.unreserved name (.tail _ member)
  readAssigned := by
    rintro before name after rfl
    rw [records.mem_declared]
    rcases permits.readAssigned (occurrence :: before) name after rfl with known | member
    · exact .inl (.inl known)
    · rcases List.mem_cons.mp member with assigned | later
      · exact .inl (.inr assigned.symm)
      · exact .inr later
  labelsDistinct := by
    have distinct := permits.labelsDistinct
    rw [labelsPlaced_cons] at distinct
    exact (List.nodup_append.mp distinct).2.1
  labelsNew := by
    intro label member taken
    have distinct := permits.labelsDistinct
    rw [labelsPlaced_cons] at distinct
    rcases records.mem_labels.mp taken with before | placed
    · exact permits.labelsNew label (by simp [labelsPlaced_cons, member]) before
    · exact (List.nodup_append.mp distinct).2.2 label (mem_label?.mpr placed) label member rfl

private theorem Permits.cons (records : account.Records occurrence next)
    (permits : next.Permits occurrences) : account.Permits (occurrence :: occurrences) where
  unreserved := by
    intro name member
    rcases List.mem_cons.mp member with rfl | later
    · cases records with
      | introduced fresh => simpa [isReserved] using fresh
    · exact permits.unreserved name later
  readAssigned := by
    intro before name after split
    cases before with
    | nil =>
      cases split
      cases records with
      | read known => exact .inl (by simpa [Variables.contains] using known)
    | cons first before =>
      cases split
      rcases permits.readAssigned before name after rfl with known | member
      · rcases records.mem_declared.mp known with already | assigned
        · exact .inl already
        · exact .inr (assigned ▸ .head _)
      · exact .inr (.tail _ member)
  labelsDistinct := by
    rw [labelsPlaced_cons, List.nodup_append]
    refine ⟨by cases occurrence <;> simp [Occurrence.label?], permits.labelsDistinct, ?_⟩
    rintro label placed _ member rfl
    exact permits.labelsNew label member (records.mem_labels.mpr (.inr (mem_label?.mp placed)))
  labelsNew := by
    intro label member taken
    rw [labelsPlaced_cons, List.mem_append, mem_label?] at member
    rcases member with rfl | later
    · cases records with
      | placed vacant => exact vacant taken
    · exact permits.labelsNew label later (records.mem_labels.mpr (.inl taken))

theorem exists_performAll_iff {actions : List Action} :
    (∃ final, account.performAll actions = .ok final) ↔ account.Permits (namesIn actions) := by
  induction actions generalizing account with
  | nil => exact ⟨fun _ => .nil account, fun _ => ⟨account, rfl⟩⟩
  | cons action actions ih =>
    cases action with
    | write call =>
      constructor
      · rintro ⟨final, performed⟩
        obtain ⟨next, first, others⟩ := performAll_cons_eq_ok.mp performed
        cases first
        exact (ih.mp ⟨final, others⟩).of_same_names rfl rfl
      · intro permits
        have written : Permits { account with sink := Sink.perform account.sink call } _ :=
          permits.of_same_names rfl rfl
        obtain ⟨final, others⟩ := ih.mpr written
        exact ⟨final, performAll_cons_eq_ok.mpr ⟨_, rfl, others⟩⟩
    | occur occurrence =>
      constructor
      · rintro ⟨final, performed⟩
        obtain ⟨next, first, others⟩ := performAll_cons_eq_ok.mp performed
        exact .cons (perform_occur_eq_ok.mp first) (ih.mp ⟨final, others⟩)
      · intro permits
        obtain ⟨next, records⟩ := permits.exists_records
        obtain ⟨final, others⟩ := ih.mpr (permits.tail records)
        exact ⟨final, performAll_cons_eq_ok.mpr ⟨next, perform_occur_eq_ok.mpr records, others⟩⟩

/-! ## Labels and jumps -/

theorem performAll_labels_jumps {final : Account σ} {actions : List Action}
    (performed : account.performAll actions = .ok final) :
    (∀ label, label ∈ final.labels ↔ label ∈ account.labels ∨ .placed label ∈ namesIn actions) ∧
      ∀ label, label ∈ final.jumps ↔ label ∈ account.jumps ∨ .jumped label ∈ namesIn actions := by
  induction actions generalizing account with
  | nil =>
    cases performed
    simp
  | cons action actions ih =>
    obtain ⟨next, first, others⟩ := performAll_cons_eq_ok.mp performed
    obtain ⟨labels, jumps⟩ := ih others
    cases action with
    | write call =>
      cases first
      exact ⟨labels, jumps⟩
    | occur occurrence =>
      have records := perform_occur_eq_ok.mp first
      simp [labels, jumps, records.mem_labels, records.mem_jumps, or_assoc, eq_comm]

end Account

/-- The conditions on names apart from the one on jumps. -/
structure Program.Orderly (program : Program) : Prop where
  unreserved : ∀ name, .introduced name ∈ program.occurrences → name ∉ reservedNames
  readAssigned : ∀ before name after,
    program.occurrences = before ++ .read name :: after → .assigned name ∈ before
  labelsDistinct : (labelsPlaced program.occurrences).Nodup

/-- A program is orderly just when its actions can all be performed. -/
theorem Program.orderly_iff_exists_performAll {σ : Type} [Sink σ] (sink : σ) (program : Program) :
    program.Orderly ↔
      ∃ final, (State.initialAccount sink).performAll program.actions = .ok final := by
  rw [Account.exists_performAll_iff, program.namesIn_actions]
  constructor
  · intro orderly
    exact
      { unreserved := orderly.unreserved
        readAssigned := fun before name after split =>
          .inr (orderly.readAssigned before name after split)
        labelsDistinct := orderly.labelsDistinct
        labelsNew := by simp [State.initialAccount] }
  · intro permits
    exact
      { unreserved := permits.unreserved
        readAssigned := fun before name after split =>
          (permits.readAssigned before name after split).resolve_left (by simp [State.initialAccount])
        labelsDistinct := permits.labelsDistinct }

/-- A program is valid just when its actions can all be performed and its jumps are resolved. -/
theorem Program.valid_iff_exists_performAll {σ : Type} [Sink σ] (sink : σ) (program : Program) :
    program.Valid ↔ ∃ final, (State.initialAccount sink).performAll program.actions = .ok final ∧
      final.Resolved := by
  have orderly := program.orderly_iff_exists_performAll sink
  have resolved : ∀ final,
      (State.initialAccount sink).performAll program.actions = .ok final →
        (final.Resolved ↔ ∀ label, .jumped label ∈ program.occurrences →
          .placed label ∈ program.occurrences) := by
    intro final performed
    obtain ⟨labels, jumps⟩ := Account.performAll_labels_jumps performed
    simp [Account.Resolved, labels, jumps, program.namesIn_actions, State.initialAccount]
  constructor
  · intro valid
    obtain ⟨final, performed⟩ :=
      orderly.mp ⟨valid.unreserved, valid.readAssigned, valid.labelsDistinct⟩
    exact ⟨final, performed, (resolved final performed).mpr valid.jumpsPlaced⟩
  · rintro ⟨final, performed, jumps⟩
    obtain ⟨unreserved, readAssigned, labelsDistinct⟩ := orderly.mpr ⟨final, performed⟩
    exact ⟨unreserved, readAssigned, labelsDistinct, (resolved final performed).mp jumps⟩

end TeenyBasic.Grammar

namespace TeenyBasic

open Grammar

theorem compile_eq_ok {source text : String} :
    compile source = .ok text ↔
      ∃ after, run ({} : Emitter) source = .completed after ∧ text = after.sink.finish := by
  unfold compile emission
  cases run ({} : Emitter) source with
  | unstarted failure notes => simp [Run.outcome, Except.map]
  | halted failure state => simp [Run.outcome, Except.map]
  | completed state => simp [Run.outcome, Except.map, eq_comm]

/-- A source is compiled just when its tokens derive from a valid program. -/
theorem compile_ok_iff_derives_valid (source : String) :
    (∃ text, compile source = .ok text) ↔
      ∃ tokens, tokenize source = .ok tokens ∧
        ∃ program : Grammar.Program,
          program.Derives (tokens.map (·.token)) ∧ program.Valid := by
  have completes : (∃ text, compile source = .ok text) ↔
      ∃ final, ∃ after, run ({} : Emitter) source = .completed after ∧ after.account = final := by
    simp only [compile_eq_ok]
    constructor
    · rintro ⟨_, after, completed, _⟩
      exact ⟨_, after, completed, rfl⟩
    · rintro ⟨_, after, completed, _⟩
      exact ⟨_, after, completed, rfl⟩
  simp only [completes, run_completed_iff, Program.valid_iff_exists_performAll ({} : Emitter)]
  constructor
  · rintro ⟨final, tokens, tokenized, program, derives, performed⟩
    exact ⟨tokens, tokenized, program, derives, final, performed⟩
  · rintro ⟨tokens, tokenized, program, derives, final, performed⟩
    exact ⟨final, tokens, tokenized, program, derives, performed⟩

end TeenyBasic
