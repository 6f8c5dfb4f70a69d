import TeenyBasic.Proofs.NamePositions
import TeenyBasic.Proofs.Pass.Position

/-!
The books of a pass: its variables, its labels and its jumps, and the calls it has made on its sink. They
belong to the tokens used up so far (`Books`). Moving over a name and entering it in the books are two
steps of the pass, but nothing can fail between them.

`Meets` is the property of a step that either ends as wanted or is stopped with its books in order. It
passes through sequencing and loops. A pass that is stopped stands at a name that may not stand there
just when it is refused for that (`Judged`).
-/

set_option autoImplicit false

namespace TeenyBasic

open Grammar Pass

variable {σ α β : Type}

def Call.header? : Call → Option String
  | .header text => some text
  | _ => none

/-- The lines that calls put into the header. -/
def headerLines (calls : List Call) : List String :=
  calls.filterMap Call.header?

private theorem mem_headerLines {calls : List Call} {line : String} :
    line ∈ headerLines calls ↔ .header line ∈ calls := by
  rw [headerLines, List.mem_filterMap]
  constructor
  · intro found
    obtain ⟨call, member, found⟩ := found
    cases call with
    | header other =>
      cases found
      exact member
    | _ => cases found
  · intro member
    exact ⟨_, member, rfl⟩

/-- The refusal, if it is one of a name. -/
def Refusal.naming? (refusal : Refusal) : Option Refusal :=
  if refusal.code.isNaming then some refusal else none

def Failure.naming? (failure : Failure) : Option Refusal :=
  match failure.cause with
  | .lexical _ => none
  | .refused refusal _ => refusal.naming?

theorem not_name_of_mem {text : String} {c : Char} (member : c ∈ text.toList)
    (notLetter : c.isAlpha = false) : ¬ Name text := by
  intro isName
  rw [isName.letters c member] at notLetter
  cases notLetter

/-! ## Books -/

variable [Sink σ]

/-- What has been written and recorded after the tokens. -/
structure Books (sink : σ) (used : List Located) (calls : List Call) (state : State σ) : Prop where
  written : state.sink = Sink.replay sink calls
  header : headerLines calls = CLines.prologue ++ (targets used).map CLines.declaration
  /-- A name in an expression has its declaration before it. -/
  emitted : ∀ before name after, calls = before ++ .emit name :: after → Name name →
    .header (CLines.declaration name) ∈ before
  declared : state.declared.names = (targets used).reverse
  labels : state.labels.names = (labelsOf used).reverse
  jumps : state.labels.jumps.map (fun jump => (jump.label, jump.span)) = (jumpsOf used).reverse
  distinct : (labelsOf used).Nodup

namespace Books

variable {sink : σ} {used : List Located} {calls : List Call} {state after : State σ} {here : Located}
  {name : String}

theorem contains_declared (books : Books sink used calls state) :
    state.declared.contains name = true ↔ name ∈ targets used := by
  rw [Variables.contains, List.contains_iff_mem, books.declared, List.mem_reverse]

theorem mem_labels (books : Books sink used calls state) :
    name ∈ state.labels.names ↔ name ∈ labelsOf used := by
  rw [books.labels, List.mem_reverse]

private theorem mem_of_target (books : Books sink used calls state) (target : name ∈ targets used) :
    .header (CLines.declaration name) ∈ calls := by
  rw [← mem_headerLines, books.header]
  exact List.mem_append_right _ (List.mem_map_of_mem target)

theorem emitted_concat {call : Call} (books : Books sink used calls state)
    (allowed : ∀ name, call = .emit name → Name name → .header (CLines.declaration name) ∈ calls) :
    ∀ before name after, calls ++ [call] = before ++ .emit name :: after → Name name →
      .header (CLines.declaration name) ∈ before := by
  intro before name after split isName
  rcases List.eq_nil_or_concat after with rfl | ⟨others, last, rfl⟩
  · obtain ⟨rfl, same⟩ := List.append_inj' split rfl
    cases same
    exact allowed name rfl isName
  · rw [List.concat_eq_append, ← List.cons_append, ← List.append_assoc] at split
    obtain ⟨rfl, -⟩ := List.append_inj' split rfl
    exact books.emitted before name others rfl isName

private theorem perform {call : Call} (books : Books sink used calls state) (body : call.header? = none)
    (allowed : ∀ name, call = .emit name → Name name → .header (CLines.declaration name) ∈ calls) :
    Books sink used (calls ++ [call]) { state with sink := Sink.perform state.sink call } where
  written := by rw [books.written, Sink.replay_concat]
  header := by simpa [headerLines, body] using books.header
  emitted := books.emitted_concat allowed
  declared := books.declared
  labels := books.labels
  jumps := books.jumps
  distinct := books.distinct

theorem of_same (books : Books sink used calls state) (sameSink : after.sink = state.sink)
    (sameDeclared : after.declared = state.declared) (sameLabels : after.labels = state.labels) :
    Books sink used calls after where
  written := sameSink.trans books.written
  header := books.header
  emitted := books.emitted
  declared := sameDeclared ▸ books.declared
  labels := sameLabels ▸ books.labels
  jumps := sameLabels ▸ books.jumps
  distinct := books.distinct

section Entries

variable (books : Books sink used calls state)

include books

/-- A token that enters nothing leaves the books as they are. -/
theorem pass (assigns : precededBy Token.assigns used = false ∨ here.token.name? = none)
    (places : precededBy Token.places used = false ∨ here.token.name? = none)
    (jumps : precededBy Token.jumps used = false ∨ here.token.name? = none) :
    Books sink (used ++ [here]) calls state where
  written := books.written
  header := by rw [books.header, targets, targets, namesAfter_concat_eq assigns]
  emitted := books.emitted
  declared := by rw [books.declared, targets, targets, namesAfter_concat_eq assigns]
  labels := by rw [books.labels, labelsOf, labelsOf, namesAfter_concat_eq places]
  jumps := by rw [books.jumps, jumpsOf, jumpsOf, namesAfter_concat_eq jumps]
  distinct := by rw [labelsOf, namesAfter_concat_eq places]; exact books.distinct

theorem declare (named : here.token = .name name) (assigned : precededBy Token.assigns used = true)
    (notPlaced : precededBy Token.places used = false)
    (notJumped : precededBy Token.jumps used = false) :
    ∃ entered, Pass.declareVariable name state = .ok () entered ∧ entered.place = state.place ∧
      ∃ more, Books sink (used ++ [here]) more entered := by
  have labels : labelsOf (used ++ [here]) = labelsOf used :=
    congrArg (List.map Prod.fst) (namesAfter_concat_eq (.inl notPlaced))
  have jumps : jumpsOf (used ++ [here]) = jumpsOf used := namesAfter_concat_eq (.inl notJumped)
  unfold Pass.declareVariable
  cases contained : state.declared.contains name with
  | true =>
    have same := (targets_concat assigned named).trans (if_pos (books.contains_declared.mp contained))
    refine ⟨state, rfl, rfl, calls, books.written, same ▸ books.header, books.emitted,
      same ▸ books.declared, labels ▸ books.labels, jumps ▸ books.jumps, labels ▸ books.distinct⟩
  | false =>
    have fresh : name ∉ targets used := by
      rw [← books.contains_declared, contained]
      simp
    have more := (targets_concat assigned named).trans (if_neg fresh)
    refine ⟨_, rfl, rfl, calls ++ [.header (CLines.declaration name)], ?_, ?_,
      books.emitted_concat (fun _ same => by cases same), ?_, labels ▸ books.labels,
      jumps ▸ books.jumps, labels ▸ books.distinct⟩
    · simp [books.written, Sink.replay, Sink.perform]
    · rw [headerLines, List.filterMap_append, ← headerLines, books.header, more]
      simp [Call.header?]
    · simp [Variables.insert, contained, books.declared, more]

theorem place (named : here.token = .name name) (placed : precededBy Token.places used = true)
    (notAssigned : precededBy Token.assigns used = false)
    (notJumped : precededBy Token.jumps used = false) (vacant : name ∉ labelsOf used) :
    ∃ entered, Pass.placeLabel name state = .ok () entered ∧ entered.place = state.place ∧
      Books sink (used ++ [here]) calls entered := by
  have same : targets (used ++ [here]) = targets used := by
    rw [targets, namesAfter_concat_eq (.inl notAssigned), targets]
  have jumps : jumpsOf (used ++ [here]) = jumpsOf used := namesAfter_concat_eq (.inl notJumped)
  have more : labelsOf (used ++ [here]) = labelsOf used ++ [name] := by
    rw [labelsOf, namesAfter_concat_name placed named, List.map_append, ← labelsOf]
    rfl
  have new : state.labels.contains name = false := by
    rw [Labels.contains, Bool.eq_false_iff, ne_eq, List.contains_iff_mem, books.mem_labels]
    exact vacant
  refine ⟨_, rfl, rfl, books.written, same ▸ books.header, books.emitted, same ▸ books.declared,
    ?_, ?_, ?_⟩
  · simp [Labels.insert, new, more, books.labels]
  · rw [jumps, ← books.jumps]
    simp [Labels.insert, new]
  · rw [more, List.nodup_append]
    refine ⟨books.distinct, by simp, ?_⟩
    intro other member last isLast equal
    rw [equal, List.mem_singleton.mp isLast] at member
    exact vacant member

theorem jump (named : here.token = .name name) (jumped : precededBy Token.jumps used = true)
    (notAssigned : precededBy Token.assigns used = false)
    (notPlaced : precededBy Token.places used = false) :
    ∃ entered, Pass.addJump name here.span state = .ok () entered ∧ entered.place = state.place ∧
      Books sink (used ++ [here]) calls entered := by
  have same : targets (used ++ [here]) = targets used := by
    rw [targets, namesAfter_concat_eq (.inl notAssigned), targets]
  have labels : labelsOf (used ++ [here]) = labelsOf used :=
    congrArg (List.map Prod.fst) (namesAfter_concat_eq (.inl notPlaced))
  have more : jumpsOf (used ++ [here]) = jumpsOf used ++ [(name, here.span)] :=
    namesAfter_concat_name jumped named
  refine ⟨_, rfl, rfl, books.written, same ▸ books.header, books.emitted, same ▸ books.declared,
    labels ▸ books.labels, ?_, labels ▸ books.distinct⟩
  simp [Labels.addJump, more, books.jumps]

end Entries

end Books

/-- The pass stands after the tokens, and the books are theirs. -/
structure Standing (whole : Feed) (sink : σ) (used : List Located) (state : State σ) : Prop where
  isAt : state.place.IsAt whole used.length
  taken : whole.tokens.take used.length = used
  notEnd : ∀ located ∈ used, located.token ≠ .endOfInput
  books : ∃ calls, Books sink used calls state

theorem Standing.perform {whole : Feed} {sink : σ} {used : List Located} {state : State σ}
    (standing : Standing whole sink used state) (call : Call) (body : call.header? = none)
    (allowed : ∀ name, call = .emit name → Name name → name ∈ targets used) :
    Standing whole sink used { state with sink := Sink.perform state.sink call } := by
  obtain ⟨calls, books⟩ := standing.books
  refine ⟨standing.isAt, standing.taken, standing.notEnd, _, books.perform body fun name same isName => ?_⟩
  exact books.mem_of_target (allowed name same isName)

/-- Steps that touch neither the input nor the books. -/
theorem Standing.of_same {whole : Feed} {sink : σ} {used : List Located} {state after : State σ}
    (standing : Standing whole sink used state) (isAt : after.place.IsAt whole used.length)
    (sameSink : after.sink = state.sink) (sameDeclared : after.declared = state.declared)
    (sameLabels : after.labels = state.labels) : Standing whole sink used after := by
  obtain ⟨calls, books⟩ := standing.books
  exact ⟨isAt, standing.taken, standing.notEnd, calls, books.of_same sameSink sameDeclared sameLabels⟩

/-- The failure is a refusal of the name the pass stands at just when that name may not stand there. -/
structure Judged (used : List Located) (state : State σ) (failure : Failure) : Prop where
  naming : failure.naming? = disallowance? used state.current.token
  span : failure.naming?.isSome → failure.span = state.current.span
  placed : failure.cause.code ≠ .undefinedLabel

/-- The pass has been stopped with its books in order. -/
def Stopped (whole : Feed) (sink : σ) (failure : Failure) (state : State σ) : Prop :=
  ∃ used, Standing whole sink used state ∧ Judged used state failure

namespace Pass

/-- From the state, the step ends as wanted or is stopped with its books in order. -/
def Meets (whole : Feed) (sink : σ) (step : Pass σ α) (state : State σ)
    (post : α → State σ → Prop) : Prop :=
  match step state with
  | .ok value after => post value after
  | .error failure after => Stopped whole sink failure after

variable {whole : Feed} {sink : σ} {used : List Located} {state : State σ}

namespace Meets

theorem mono {step : Pass σ α} {post weaker : α → State σ → Prop}
    (meets : Meets whole sink step state post)
    (implies : ∀ value after, post value after → weaker value after) :
    Meets whole sink step state weaker := by
  unfold Meets at meets ⊢
  generalize step state = result at meets ⊢
  cases result with
  | ok value after => exact implies value after meets
  | error failure after => exact meets

theorem bind {step : Pass σ α} {next : α → Pass σ β} {mid : α → State σ → Prop}
    {post : β → State σ → Prop} (first : Meets whole sink step state mid)
    (second : ∀ value between, mid value between → Meets whole sink (next value) between post) :
    Meets whole sink (step >>= next) state post := by
  unfold Meets at first
  change Meets whole sink (EStateM.bind step next) state post
  unfold Meets EStateM.bind
  generalize step state = result at first ⊢
  cases result with
  | ok value between => exact second value between first
  | error failure after => exact first

theorem repeatWhile {more : State σ → Bool} {round : Pass σ Unit} {holds : State σ → Prop}
    (uses : Uses (fun state => more state = true) round)
    (once : ∀ state, holds state → more state = true →
      Meets whole sink round state fun _ after => holds after)
    (held : holds state) :
    Meets whole sink (Pass.repeatWhile more round uses) state fun _ after =>
      holds after ∧ more after = false := by
  unfold Meets
  fun_induction Pass.repeatWhile more round uses state with
  | case1 state goesOn between ran ih =>
    have met := once state held goesOn
    unfold Meets at met
    rw [ran] at met
    exact ih met
  | case2 state goesOn failure after ran =>
    have met := once state held goesOn
    unfold Meets at met
    rw [ran] at met
    exact met
  | case3 state stopped => exact ⟨held, by simpa using stopped⟩

theorem of_eq {step other : Pass σ α} {post : α → State σ → Prop} (same : step state = other state)
    (meets : Meets whole sink other state post) : Meets whole sink step state post := by
  unfold Meets at meets ⊢
  rw [same]
  exact meets

theorem current {next : Located → Pass σ α} {post : α → State σ → Prop}
    (meets : Meets whole sink (next state.current) state post) :
    Meets whole sink (Pass.current >>= next) state post :=
  meets

theorem refuse {refusal : Refusal} {post : α → State σ → Prop}
    (standing : Standing whole sink used state)
    (naming : refusal.naming? = disallowance? used state.current.token)
    (placed : refusal.code ≠ .undefinedLabel) :
    Meets whole sink (Pass.refuse refusal : Pass σ α) state post :=
  ⟨used, standing, naming, fun _ => rfl, placed⟩

end Meets

/-! ## Moving on -/

/-- The pass has moved over a token and done nothing else. -/
structure Moved (whole : Feed) (used : List Located) (state after : State σ) : Prop where
  isAt : after.place.IsAt whole (used.length + 1)
  taken : whole.tokens.take (used.length + 1) = used ++ [state.current]
  notEnd : ∀ located ∈ used ++ [state.current], located.token ≠ .endOfInput
  sink : after.sink = state.sink
  declared : after.declared = state.declared
  labels : after.labels = state.labels

theorem meets_advance (standing : Standing whole sink used state)
    (clear : disallowance? used state.current.token = none)
    (notEnd : state.current.token ≠ .endOfInput) :
    Meets whole sink advance state fun here after =>
      here = state.current ∧ Moved whole used state after := by
  unfold Meets
  have found := standing.isAt.getElem?_tokens notEnd
  cases moved : state.place.move with
  | error error =>
    rw [advance_of_fault moved]
    refine ⟨used, standing, clear.symm, fun named => (by cases named), ?_⟩
    change error.fault.code ≠ .undefinedLabel
    cases error.fault <;> simp [LexicalFault.code]
  | ok place =>
    rw [advance_of_move moved]
    have isNext := standing.isAt.move moved
    have inside := (List.getElem?_eq_some_iff.mp found).1
    rw [Nat.min_eq_left inside] at isNext
    refine ⟨rfl, isNext, ?_, ?_, rfl, rfl, rfl⟩
    · rw [List.take_add_one, standing.taken, found]
      rfl
    · intro located member
      rcases List.mem_append.mp member with before | last
      · exact standing.notEnd located before
      · exact List.mem_singleton.mp last ▸ notEnd

/-- Tokens after which nothing special stands. -/
def Settled (used : List Located) : Prop :=
  precededBy Token.asksOperand used = false ∧ precededBy Token.introduces used = false

omit [Sink σ] in
theorem precededBy_of_introduces {test : Token → Bool}
    (implies : ∀ token, test token = true → token.introduces = true)
    (apart : precededBy Token.introduces used = false) : precededBy test used = false := by
  rw [Bool.eq_false_iff]
  intro preceded
  rw [precededBy_mono implies preceded] at apart
  cases apart

omit [Sink σ] in
theorem settled_concat {here : Located} (asks : here.token.asksOperand = false)
    (introduces : here.token.introduces = false) : Settled (used ++ [here]) :=
  ⟨precededBy_concat.trans asks, precededBy_concat.trans introduces⟩

omit [Sink σ] in
theorem settled_name {here : Located} {name : String} (named : here.token = .name name) :
    Settled (used ++ [here]) :=
  settled_concat (by rw [named]; rfl) (by rw [named]; rfl)

omit [Sink σ] in
theorem Settled.disallowance? (settled : Settled used) (token : Token) :
    disallowance? used token = none := by
  cases token with
  | name name =>
    have noLabel := precededBy_of_introduces (fun _ => Token.introduces_of_places) settled.2
    simp [TeenyBasic.disallowance?, settled.1, settled.2, noLabel]
  | _ => rfl

theorem Moved.books {after : State σ} {calls : List Call} (moved : Moved whole used state after)
    (books : Books sink used calls state) : Books sink used calls after :=
  books.of_same moved.sink moved.declared moved.labels

private theorem Moved.standing {after : State σ} (standing : Standing whole sink used state)
    (moved : Moved whole used state after)
    (plain : precededBy Token.introduces used = false ∨ state.current.token.name? = none) :
    Standing whole sink (used ++ [state.current]) after := by
  obtain ⟨calls, books⟩ := standing.books
  refine ⟨by simpa using moved.isAt, by simpa using moved.taken, moved.notEnd, calls, ?_⟩
  apply (moved.books books).pass
  · exact plain.imp_left (precededBy_of_introduces fun _ => Token.introduces_of_assigns)
  · exact plain.imp_left (precededBy_of_introduces fun _ => Token.introduces_of_places)
  · exact plain.imp_left (precededBy_of_introduces fun _ => Token.introduces_of_jumps)

theorem meets_consume (standing : Standing whole sink used state)
    (clear : disallowance? used state.current.token = none)
    (notEnd : state.current.token ≠ .endOfInput)
    (plain : precededBy Token.introduces used = false ∨ state.current.token.name? = none) :
    Meets whole sink advance state fun here after =>
      here = state.current ∧ Standing whole sink (used ++ [state.current]) after :=
  (meets_advance standing clear notEnd).mono fun _ _ met =>
    ⟨met.1, met.2.standing standing plain⟩

end Pass

end TeenyBasic
