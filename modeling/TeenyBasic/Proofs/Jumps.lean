import Mathlib.Data.List.Nodup
import TeenyBasic.Proofs.LineRoles
import TeenyBasic.Proofs.Moments

/-!
Labels and jumps. A label is judged where it is placed, a jump once the whole program is known: by then
the labels and jumps on the books are those of all tokens, so the jump that is refused is the first one
in the source whose label stands nowhere in it (`unresolved_iff_strayJump?`). In the C text every label
stands once and every jump has its label (`count_label_of_compile`).
-/

set_option autoImplicit false

namespace TeenyBasic

open Grammar Pass

variable {σ : Type} [Sink σ] {sink : σ} {source : String}

/-! ## The end of a run -/

/-- The first jump without a label, by the tokens. -/
def strayJump? (tokens : List Located) : Option (String × Span) :=
  (jumpsOf tokens).find? fun jump => jump.1 ∉ labelsOf tokens

private theorem Books.strayJump?_eq {used : List Located} {calls : List Call} {state : State σ}
    (books : Books sink used calls state) :
    strayJump? used = state.labels.firstUnresolved.map fun jump => (jump.label, jump.span) := by
  have jumps : jumpsOf used = state.labels.jumps.reverse.map fun jump => (jump.label, jump.span) := by
    rw [List.map_reverse, books.jumps, List.reverse_reverse]
  rw [strayJump?, jumps, List.find?_map, Labels.firstUnresolved]
  congr 2
  funext jump
  simp [Labels.contains, books.labels]

private theorem strayJump?_concat {used : List Located} {here : Located}
    (nameless : here.token.name? = none) : strayJump? (used ++ [here]) = strayJump? used := by
  rw [strayJump?, strayJump?, jumpsOf, labelsOf, namesAfter_concat_eq (.inr nameless),
    namesAfter_concat_eq (.inr nameless)]
  rfl

/-- A run that is over has all tokens on its books. -/
theorem Pass.Finished.exists_books {state : State σ} {tokens : List Located}
    (finished : Finished (feedOf source) sink state) (tokenized : tokenize source = .ok tokens) :
    ∃ calls, Books sink (feedOf source).tokens calls state := by
  obtain ⟨atEnd, used, standing⟩ := finished
  obtain ⟨behind, split⟩ := standing.stream fun _ _ drawn => drawn
  obtain ⟨offset, -, rfl⟩ := tokenize_eq_ok.mp tokenized
  have stream := (streamOf_of_tokenize tokenized).2.symm
  have member : state.current ∈ streamOf source := by
    rw [streamOf, split]
    exact List.mem_append_right _ (.head _)
  have current : state.current = { token := .endOfInput, span := { start := offset, stop := offset } } := by
    rw [stream] at member
    rcases List.mem_append.mp member with inside | last
    · exact absurd atEnd (token_ne_endOfInput_of_mem_feedOf source _ inside)
    · exact List.mem_singleton.mp last
  have all : used = (feedOf source).tokens := used_unique (current ▸ split) stream
  exact all ▸ standing.books

private theorem Pass.Finished.strayJump?_eq {state : State σ} {tokens : List Located}
    (finished : Finished (feedOf source) sink state) (tokenized : tokenize source = .ok tokens) :
    strayJump? tokens = state.labels.firstUnresolved.map fun jump => (jump.label, jump.span) := by
  obtain ⟨calls, books⟩ := finished.exists_books tokenized
  obtain ⟨offset, -, rfl⟩ := tokenize_eq_ok.mp tokenized
  rw [strayJump?_concat rfl, books.strayJump?_eq]

/-! ## Refusals of jumps -/

/-- A program is stopped for a name where it is not orderly, and for a jump where it is. -/
theorem halted_of_derives {program : Grammar.Program} {tokens : List Located} {failure : Failure}
    {after : State σ} (tokenized : tokenize source = .ok tokens)
    (derives : program.Derives (tokens.map (·.token)))
    (halted : runFeed sink (feedOf source) = .halted failure after) :
    program.Orderly ∧ failure.cause.code = .undefinedLabel ∨
      ¬ program.Orderly ∧ failure.cause.code.isNaming = true := by
  obtain ⟨offset, ending, rfl⟩ := tokenize_eq_ok.mp tokenized
  obtain ⟨state, started, failed⟩ := runFeed_eq_halted.mp halted
  obtain ⟨faces, account, closed, sameEnding⟩ :=
    State.faces_of_start (token_ne_endOfInput_of_mem_feedOf source) started
  rw [List.map_append] at derives
  have orderly := program.orderly_iff_exists_performAll sink
  rw [← account] at orderly
  rcases program_fails_of_derives faces ⟨offset, sameEnding.trans ending⟩ closed derives failed with
    ⟨refusal, line, cause, refused⟩ | ⟨allowed, label, line, cause⟩
  · refine .inr ⟨fun isOrderly => ?_, ?_⟩
    · obtain ⟨final, performed⟩ := orderly.mp isOrderly
      cases performed.symm.trans refused
    · rw [cause]
      exact isNaming_of_performAll refused
  · refine .inl ⟨orderly.mpr allowed, ?_⟩
    rw [cause]
    rfl

private theorem exists_tree_of_undefinedLabel {failure : Failure}
    (failed : compile source = .error failure) (undefined : failure.cause.code = .undefinedLabel) :
    ∃ tokens, tokenize source = .ok tokens ∧
      ∃ program : Grammar.Program, program.Derives (tokens.map (·.token)) := by
  have notLexical : ∀ error : LexicalError, error.failure.cause.code ≠ .undefinedLabel := by
    intro error same
    have lexical : error.failure.cause.code.isLexical = true := error.fault.isLexical_code
    rw [same] at lexical
    cases lexical
  cases fails_of_compile failed with
  | faulty _ => exact absurd undefined (notLexical _)
  | refused _ _ halts =>
    obtain ⟨_, _, _, _, _, _, _, stuck⟩ := halts
    cases stuck with
    | faulty _ => exact absurd undefined (notLexical _)
    | @misplaced refusal _ _ _ _ syntactic =>
      rw [show refusal.code = .undefinedLabel from undefined] at syntactic
      cases syntactic
    | @disallowed refusal _ _ _ _ naming =>
      rw [show refusal.code = .undefinedLabel from undefined] at naming
      cases naming
  | @unresolved tree _ _ faultless derives _ _ =>
    obtain ⟨offset, ending⟩ := faultless
    refine ⟨_, tokenize_eq_ok.mpr ⟨offset, ending, rfl⟩, tree, ?_⟩
    rwa [List.map_append]

/-- A jump is refused just when there is nothing else to refuse, and then it is the first one without a
label. -/
theorem unresolved_iff_strayJump? {label : String} {span : Span} :
    (∃ line, compile source =
      .error { cause := .refused (.undefinedLabel label) line, span := span }) ↔
    ∃ tokens, tokenize source = .ok tokens ∧
      (∃ program : Grammar.Program, program.Derives (tokens.map (·.token)) ∧ program.Orderly) ∧
      strayJump? tokens = some (label, span) := by
  constructor
  · intro refused
    obtain ⟨line, failed⟩ := refused
    obtain ⟨tokens, tokenized, program, derives⟩ := exists_tree_of_undefinedLabel failed rfl
    rcases compile_eq_error.mp failed with ⟨notes, unstarted⟩ | ⟨after, halted⟩
    · obtain ⟨error, -, impossible⟩ := State.start_eq_error (runFeed_eq_unstarted unstarted)
      cases impossible
    · have orderly : program.Orderly := by
        rcases halted_of_derives tokenized derives halted with ⟨orderly, -⟩ | ⟨-, naming⟩
        · exact orderly
        · cases naming
      rcases runFeed_ends (spelled_feedOf source) halted with
        ⟨_, -, judged⟩ | ⟨jump, finished, found, same⟩
      · exact absurd rfl judged.placed
      · cases same
        refine ⟨tokens, tokenized, ⟨program, derives, orderly⟩, ?_⟩
        rw [finished.strayJump?_eq tokenized, found]
        rfl
  · intro unresolved
    obtain ⟨tokens, tokenized, ⟨program, derives, orderly⟩, stray⟩ := unresolved
    cases ran : run ({} : Emitter) source with
    | unstarted failure notes =>
      obtain ⟨error, fault, -⟩ := State.start_eq_error (runFeed_eq_unstarted ran)
      obtain ⟨offset, ending⟩ := (streamOf_of_tokenize tokenized).1
      cases fault.symm.trans ending
    | completed after =>
      obtain ⟨finished, resolved⟩ := runFeed_finishes (spelled_feedOf source) ran
      rw [finished.strayJump?_eq tokenized, resolved] at stray
      cases stray
    | halted failure after =>
      have undefined : failure.cause.code = .undefinedLabel := by
        rcases halted_of_derives tokenized derives ran with ⟨-, undefined⟩ | ⟨disorderly, -⟩
        · exact undefined
        · exact absurd orderly disorderly
      rcases runFeed_ends (spelled_feedOf source) ran with
        ⟨_, -, judged⟩ | ⟨jump, finished, found, rfl⟩
      · exact absurd undefined judged.placed
      · rw [finished.strayJump?_eq tokenized, found] at stray
        cases stray
        exact ⟨jump.line, compile_eq_error.mpr (.inr ⟨after, ran⟩)⟩

/-! ## Labels in the C text -/

/-- What a line does about a label. -/
def Role.occurrence? : Role → Option Occurrence
  | places label => some (.placed label)
  | jumps label => some (.jumped label)
  | _ => none

def Grammar.Occurrence.isTransfer : Occurrence → Bool
  | placed _ | jumped _ => true
  | _ => false

namespace Role

private theorem ofWord_ne_places (word rest : List Char) (label : String) :
    ofWord word rest ≠ .places label := by
  unfold ofWord
  split
  · simp
  · split <;> simp

/-- Only the line that places a label has that role. -/
theorem ofLine_eq_places_iff {line label : String} :
    ofLine line = .places label ↔ line = CLines.label label := by
  constructor
  · intro places
    unfold ofLine at places
    split at places
    · cases places
    · cases places
    · rename_i last
      cases places
      apply String.toList_inj.mp
      obtain ⟨front, split⟩ := List.getLast?_eq_some_iff.mp last
      simp [CLines.label, split]
    · exact absurd places (ofWord_ne_places _ _ _)
  · intro same
    rw [same]
    exact ofLine_label label

private theorem count_label (lines : List String) (label : String) :
    lines.count (CLines.label label) =
      ((lines.map ofLine).filterMap occurrence?).count (.placed label) := by
  rw [List.count_filterMap, List.countP_map, List.count]
  apply List.countP_congr
  intro line _
  have placed : ∀ role : Role, role.occurrence? = some (.placed label) ↔ role = .places label := by
    intro role
    cases role <;> simp [occurrence?]
  simp [placed, ofLine_eq_places_iff]

end Role

namespace Grammar

private theorem Simple.filterMap_roles (statement : Simple) :
    statement.roles.filterMap Role.occurrence? = statement.occurrences.filter Occurrence.isTransfer := by
  have reads : ∀ names : List String,
      (names.map Occurrence.read).filter Occurrence.isTransfer = [] := by
    intro names
    rw [List.filter_eq_nil_iff]
    simp [Occurrence.isTransfer]
  cases statement with
  | printValue value => exact (reads _).symm
  | assign name value => exact (reads _).symm
  | _ => rfl

private theorem filterMap_rolesOf : ∀ statements : List Statement,
    (rolesOf statements).filterMap Role.occurrence? =
      (occurrencesOf statements).filter Occurrence.isTransfer
  | [] => rfl
  | .simple statement :: rest => by
    rw [rolesOf, occurrencesOf, List.filterMap_append, List.filter_append, filterMap_rolesOf rest]
    exact congrArg (· ++ _) statement.filterMap_roles
  | .block block condition body :: rest => by
    have reads : (condition.variables.map Occurrence.read).filter Occurrence.isTransfer = [] := by
      rw [List.filter_eq_nil_iff]
      simp [Occurrence.isTransfer]
    have opened : (Statement.block block condition body).roles.filterMap Role.occurrence? =
        (rolesOf body).filterMap Role.occurrence? := by
      rw [Statement.roles, List.filterMap_append]
      exact List.append_nil _
    rw [rolesOf, occurrencesOf, List.filterMap_append, List.filter_append, opened,
      filterMap_rolesOf body, filterMap_rolesOf rest, Statement.occurrences, List.filter_append, reads]
    rfl

private theorem Program.filterMap_roles (program : Program) :
    program.roles.filterMap Role.occurrence? = program.occurrences.filter Occurrence.isTransfer := by
  have declared : ((targetsOf program.statements).eraseDups.map Role.declares).filterMap
      Role.occurrence? = [] := by
    rw [List.filterMap_eq_nil_iff]
    simp [Role.occurrence?]
  rw [Program.roles, List.filterMap_append, List.filterMap_append, List.filterMap_append, declared,
    filterMap_rolesOf]
  exact List.append_nil _

end Grammar

/-- In a compiled text a label stands as often as it is placed, and that is once if there is a jump to
it. -/
theorem count_label_of_compile {text : String} (compiled : compile source = .ok text) (label : String) :
    (linesIn text).count (CLines.label label) ≤ 1 ∧
      (CLines.jump label ∈ linesIn text → (linesIn text).count (CLines.label label) = 1) := by
  obtain ⟨_, -, program, -, valid, -, roles⟩ := roles_of_compile compiled
  have count : (linesIn text).count (CLines.label label) =
      (labelsPlaced program.occurrences).count label := by
    rw [Role.count_label, roles, program.filterMap_roles, count_labelsPlaced, List.count_filter rfl]
  rw [count]
  refine ⟨List.nodup_iff_count_le_one.mp valid.labelsDistinct label, fun jump => ?_⟩
  have jumps : .jumps label ∈ program.roles := by
    rw [← roles, ← Role.ofLine_jump]
    exact List.mem_map_of_mem jump
  have jumped : .jumped label ∈ program.occurrences.filter Occurrence.isTransfer := by
    rw [← program.filterMap_roles]
    exact List.mem_filterMap.mpr ⟨_, jumps, rfl⟩
  have placed := valid.jumpsPlaced label (List.mem_of_mem_filter jumped)
  exact List.count_eq_one_of_mem valid.labelsDistinct (mem_labelsPlaced.mpr placed)

/-- A label is refused, with `E250`, just when it is reached where an earlier one of its name stands. A
jump is refused, with `E251`, just when all else is in order, and it is the first one whose label is
nowhere in the source. In the C text the labels are distinct, and each jump has its label. -/
theorem labels_resolved_exactly (source : String) :
    (∀ failure : Failure,
      (failure.diagnostic.code.number = "E250" ↔
        ∃ label line, failure.cause = .refused (.duplicateLabel label) line) ∧
      (failure.diagnostic.code.number = "E251" ↔
        ∃ label line, failure.cause = .refused (.undefinedLabel label) line)) ∧
    (∀ label span,
      (∃ line, compile source =
        .error { cause := .refused (.duplicateLabel label) line, span := span }) ↔
      ∃ used, Reaches source used { token := .name label, span := span } ∧
        precededBy Token.places used = true ∧ label ∈ labelsOf used) ∧
    (∀ label span,
      (∃ line, compile source =
        .error { cause := .refused (.undefinedLabel label) line, span := span }) ↔
      ∃ tokens, tokenize source = .ok tokens ∧
        (∃ program : Grammar.Program, program.Derives (tokens.map (·.token)) ∧ program.Orderly) ∧
        strayJump? tokens = some (label, span)) ∧
    ∀ text, compile source = .ok text → ∀ label,
      (linesIn text).count (CLines.label label) ≤ 1 ∧
      (CLines.jump label ∈ linesIn text → (linesIn text).count (CLines.label label) = 1) := by
  refine ⟨fun failure => ⟨?_, ?_⟩, fun label span => ?_, fun label span =>
    unresolved_iff_strayJump?, fun text => count_label_of_compile⟩
  · exact Failure.number_eq_iff (by simp [nameRefusals]) failure
  · exact Failure.number_eq_iff (by simp [nameRefusals]) failure
  · exact refused_iff_reaches_name rfl fun _ _ => disallowance?_eq_duplicateLabel

end TeenyBasic
