import Mathlib.Data.List.Dedup
import TeenyBasic.Proofs.Lookahead

/-!
Errors are found at the first token that makes them unavoidable. What stands before a token that is
out of place can be continued to a source that is compiled: what the pass has read is the start of a
program, and jumps that lead nowhere yet get their labels at the end
(`Program.Derives.exists_valid_extension`). With the token, it is the start of no program
(`not_derives_of_refuses`). At the end of input nothing but the last word of a block can be missing.
-/

set_option autoImplicit false

namespace TeenyBasic.Grammar

/-! ## Unclosed blocks -/

/-- The blocks that are open after a token, the innermost first. -/
def blocksAfter (blocks : List Block) : Token → List Block
  | .keyword .if_ => .conditional :: blocks
  | .keyword .while_ => .loop :: blocks
  | .keyword .endIf | .keyword .endWhile => blocks.tail
  | _ => blocks

/-- The blocks that the tokens open and do not close, the innermost first. -/
def unclosedBlocks (tokens : List Token) : List Block :=
  tokens.foldl blocksAfter []

theorem foldl_blocksAfter_of_neutral {tokens : List Token} {blocks : List Block}
    (neutral : ∀ token ∈ tokens, blocksAfter blocks token = blocks) :
    tokens.foldl blocksAfter blocks = blocks := by
  induction tokens with
  | nil => rfl
  | cons token tokens ih =>
    rw [List.foldl_cons, neutral token (.head _)]
    exact ih fun other member => neutral other (.tail _ member)

theorem foldl_blocksAfter_newlines (count : Nat) (blocks : List Block) :
    (List.replicate count Token.newline).foldl blocksAfter blocks = blocks :=
  foldl_blocksAfter_of_neutral fun _ member => List.eq_of_mem_replicate member ▸ rfl

private theorem blocksAfter_of_inExpression {token : Token} (inside : inExpression token = true)
    (blocks : List Block) : blocksAfter blocks token = blocks := by
  cases token with
  | keyword => cases inside
  | _ => rfl

private theorem Line.Leads.foldl_blocksAfter {line : Line} {blocks inner : List Block}
    (leads : line.Leads blocks inner) : line.tokens.foldl blocksAfter blocks = inner := by
  cases leads with
  | simple statement =>
    refine foldl_blocksAfter_of_neutral fun token member => ?_
    rcases Line.cases_of_mem member with rfl | ⟨_, _, impossible, _⟩ | inside | ⟨body, rfl⟩
    · cases statement <;> rfl
    · cases impossible
    · exact blocksAfter_of_inExpression inside blocks
    · rfl
  | opening block condition =>
    have opened : blocksAfter blocks (.keyword block.opener) = block :: blocks := by
      cases block <;> rfl
    rw [Line.tokens, List.cons_append, List.foldl_cons, opened]
    refine foldl_blocksAfter_of_neutral fun token member => ?_
    rcases List.mem_append.mp member with inside | last
    · exact blocksAfter_of_inExpression (Condition.inExpression_of_mem inside) _
    · obtain rfl := List.mem_singleton.mp last
      cases block <;> rfl
  | closing block => cases block <;> rfl

private theorem LeadsAll.foldl_blocksAfter {lines : List Line} {blocks inner : List Block}
    (leads : LeadsAll lines blocks inner) {tokens : List Token} (written : Written lines tokens) :
    tokens.foldl blocksAfter blocks = inner := by
  induction leads generalizing tokens with
  | nil =>
    cases written
    rfl
  | cons first _ ih =>
    cases written with
    | cons line ends more =>
      obtain ⟨count, rfl⟩ := ends
      rw [List.foldl_append, List.foldl_append, first.foldl_blocksAfter, foldl_blocksAfter_newlines]
      exact ih more

private theorem LeadsAll.unclosedBlocks {lines : List Line} {inner : List Block} {tokens : List Token}
    (leads : LeadsAll lines [] inner) (written : Written lines tokens) (count : Nat) :
    unclosedBlocks (List.replicate count .newline ++ tokens) = inner := by
  rw [Grammar.unclosedBlocks, List.foldl_append, foldl_blocksAfter_newlines]
  exact leads.foldl_blocksAfter written

/-! ## Completions -/

theorem Derives.append {first second : List Statement} {front back : List Token}
    (frontDerives : Derives first front) (backDerives : Derives second back) :
    Derives (first ++ second) (front ++ back) := by
  induction frontDerives with
  | nil => exact backDerives
  | simple statement ends _ ih => simpa using Derives.simple statement ends ih
  | block block condition openingEnds body closingEnds _ _ ih =>
    simpa using Derives.block block condition openingEnds body closingEnds ih

theorem occurrencesOf_append (first second : List Statement) :
    occurrencesOf (first ++ second) = occurrencesOf first ++ occurrencesOf second := by
  induction first with
  | nil => rfl
  | cons statement rest ih => simp [occurrencesOf, ih]

theorem Derives.mem_of_jumped {statements : List Statement} {tokens : List Token} {label : String}
    (derives : Derives statements tokens) (jumped : .jumped label ∈ occurrencesOf statements) :
    .introduced label ∈ occurrencesOf statements ∧ .name label ∈ tokens := by
  induction derives with
  | nil => cases jumped
  | simple statement _ _ ih =>
    rcases List.mem_append.mp jumped with here | later
    · cases statement <;> simp [Statement.occurrences, Simple.occurrences] at here
      subst here
      simp [occurrencesOf, Statement.occurrences, Simple.occurrences, Simple.tokens]
    · obtain ⟨introduced, named⟩ := ih later
      exact ⟨List.mem_append_right _ introduced, List.mem_append_right _ named⟩
  | block block condition _ _ _ _ bodyIH restIH =>
    simp only [occurrencesOf, Statement.occurrences, List.mem_append, List.mem_map, reduceCtorEq,
      and_false, exists_false, false_or] at jumped ⊢
    rcases jumped with inBody | later
    · obtain ⟨introduced, named⟩ := bodyIH inBody
      exact ⟨.inl introduced, by simp [named]⟩
    · obtain ⟨introduced, named⟩ := restIH later
      exact ⟨.inr introduced, by simp [named]⟩

def Occurrence.jumpTarget? : Occurrence → Option String
  | .jumped label => some label
  | _ => none

/-- The labels that are jumped to and not placed. -/
def missingLabels (occurrences : List Occurrence) : List String :=
  ((occurrences.filterMap Occurrence.jumpTarget?).filter fun label =>
    .placed label ∉ occurrences).dedup

theorem mem_missingLabels {occurrences : List Occurrence} {label : String} :
    label ∈ missingLabels occurrences ↔
      .jumped label ∈ occurrences ∧ .placed label ∉ occurrences := by
  have target : ∀ occurrence : Occurrence, occurrence.jumpTarget? = some label ↔
      occurrence = .jumped label := by
    intro occurrence
    cases occurrence <;> simp [Occurrence.jumpTarget?]
  simp [missingLabels, target]

/-- The statements that complete a program in which the labels are missing. They are never none, so
that a text that starts with the program has a line to end in. -/
def completion : List String → List Statement
  | [] => [.simple (.printText "")]
  | label :: labels => .simple (.label label) :: completion labels

def completionTokens : List String → List Token
  | [] => [.keyword .print, .string "", .newline]
  | label :: labels => .keyword .label :: .name label :: .newline :: completionTokens labels

private theorem derives_completion (labels : List String) :
    Derives (completion labels) (completionTokens labels) := by
  induction labels with
  | nil => exact .simple (.printText "") ⟨0, rfl⟩ .nil
  | cons label labels ih => exact .simple (.label label) ⟨0, rfl⟩ ih

private theorem readable_completionTokens {labels : List String}
    (readable : ∀ label ∈ labels, (Token.name label).Readable) :
    ∀ token ∈ completionTokens labels, token.Readable := by
  induction labels with
  | nil =>
    simp [completionTokens, Token.readable_keyword, Token.readable_newline, Token.readable_empty]
  | cons label labels ih =>
    have others := ih fun other member => readable other (.tail _ member)
    simpa [completionTokens, Token.readable_keyword, Token.readable_newline] using
      ⟨readable label (.head _), others⟩

private theorem getLast?_completionTokens (labels : List String) :
    (completionTokens labels).getLast? = some .newline := by
  induction labels with
  | nil => rfl
  | cons label labels ih => simp [completionTokens, List.getLast?_cons, ih]

theorem occurrencesOf_completion (label : String) (labels : List String) :
    occurrencesOf (completion (label :: labels)) =
      .placed label :: .introduced label :: occurrencesOf (completion labels) :=
  rfl

private theorem mem_occurrencesOf_completion {labels : List String} {occurrence : Occurrence} :
    occurrence ∈ occurrencesOf (completion labels) ↔
      ∃ label ∈ labels, occurrence = .placed label ∨ occurrence = .introduced label := by
  induction labels with
  | nil => simp [completion, occurrencesOf, Statement.occurrences, Simple.occurrences]
  | cons label labels ih => simp [occurrencesOf_completion, ih, or_assoc]

private theorem labelsPlaced_completion (labels : List String) :
    labelsPlaced (occurrencesOf (completion labels)) = labels := by
  induction labels with
  | nil => rfl
  | cons label labels ih => exact congrArg (label :: ·) ih

private theorem split_of_notMem {α : Type} {front back before after : List α} {a : α}
    (same : front ++ back = before ++ a :: after) (notMem : a ∉ back) :
    ∃ rest, front = before ++ a :: rest := by
  rcases List.append_eq_append_iff.mp same with ⟨more, rfl, rfl⟩ | ⟨more, rfl, split⟩
  · simp at notMem
  · cases more with
    | nil =>
      rw [List.nil_append] at split
      simp [← split] at notMem
    | cons first rest =>
      cases split
      exact ⟨rest, rfl⟩

/-- A program whose names are in order but for jumps that lead nowhere becomes valid with the labels
of these jumps. -/
theorem valid_completion {σ : Type} {account : Account σ} {program : Program} {tokens : List Token}
    (derives : Derives program.statements tokens) (permits : account.Permits program.occurrences)
    (nothing : account.declared.names = []) :
    Program.Valid ⟨program.statements ++ completion (missingLabels program.occurrences)⟩ := by
  have occurrences : Program.occurrences
      ⟨program.statements ++ completion (missingLabels program.occurrences)⟩ =
      program.occurrences ++ occurrencesOf (completion (missingLabels program.occurrences)) :=
    occurrencesOf_append ..
  refine ⟨?_, ?_, ?_, ?_⟩ <;> rw [occurrences]
  · intro name member
    rcases List.mem_append.mp member with inTree | added
    · exact permits.unreserved name inTree
    · obtain ⟨label, missing, placed | introduced⟩ := mem_occurrencesOf_completion.mp added
      · cases placed
      · cases introduced
        exact permits.unreserved name (derives.mem_of_jumped (mem_missingLabels.mp missing).1).1
  · intro before name after split
    obtain ⟨rest, front⟩ := split_of_notMem split (by simp [mem_occurrencesOf_completion])
    refine (permits.readAssigned before name rest front).resolve_left ?_
    simp [nothing]
  · rw [labelsPlaced, List.filterMap_append, ← labelsPlaced, ← labelsPlaced, labelsPlaced_completion]
    refine List.nodup_append.mpr ⟨permits.labelsDistinct, List.nodup_dedup _, ?_⟩
    rintro label placed _ missing rfl
    exact (mem_missingLabels.mp missing).2 (mem_labelsPlaced.mp placed)
  · intro label member
    rcases List.mem_append.mp member with jumped | added
    · by_cases placed : .placed label ∈ program.occurrences
      · exact List.mem_append_left _ placed
      · have missing := mem_missingLabels.mpr ⟨jumped, placed⟩
        exact List.mem_append_right _ (mem_occurrencesOf_completion.mpr ⟨label, missing, .inl rfl⟩)
    · simp [mem_occurrencesOf_completion] at added

theorem Program.Derives.complete {program : Program} {tokens : List Token}
    (derives : program.Derives (tokens ++ [.endOfInput])) (labels : List String) :
    Program.Derives ⟨program.statements ++ completion labels⟩
      (tokens ++ completionTokens labels ++ [.endOfInput]) := by
  obtain ⟨count, used, derived, spelled⟩ := derives
  obtain rfl := List.append_cancel_right spelled
  exact ⟨count, _, derived.append (derives_completion labels), by simp⟩

theorem Program.Derives.exists_valid_extension {σ : Type} {account : Account σ} {program : Program}
    {tokens : List Token} (derives : program.Derives (tokens ++ [.endOfInput]))
    (permits : account.Permits program.occurrences) (nothing : account.declared.names = [])
    (readable : ∀ token ∈ tokens, token.Readable) :
    ∃ (whole : Program) (labels : List String), whole.Valid ∧
      whole.Derives (tokens ++ completionTokens labels ++ [.endOfInput]) ∧
      ∀ label ∈ labels, (Token.name label).Readable := by
  have whole := derives.complete (missingLabels program.occurrences)
  obtain ⟨count, used, derived, spelled⟩ := derives
  obtain rfl := List.append_cancel_right spelled
  refine ⟨_, _, valid_completion derived permits nothing, whole, fun label member => ?_⟩
  obtain ⟨-, named⟩ := derived.mem_of_jumped (mem_missingLabels.mp member).1
  exact readable _ (List.mem_append_right _ named)

end TeenyBasic.Grammar

namespace TeenyBasic

open Grammar Pass

/-! ## Accepted continuations -/

theorem exists_compile_of_valid {source : String} {tokens : List Located}
    {program : Grammar.Program} (tokenized : tokenize source = .ok tokens)
    (derives : program.Derives (tokens.map (·.token))) (valid : program.Valid) :
    ∃ text, compile source = .ok text := by
  obtain ⟨final, performed, resolved⟩ :=
    (program.valid_iff_exists_performAll ({} : Emitter)).mp valid
  obtain ⟨after, completed, -⟩ :=
    run_completed_iff.mpr ⟨tokens, tokenized, program, derives, performed, resolved⟩
  exact ⟨_, compile_eq_ok.mpr ⟨after, completed, rfl⟩⟩

/-- Tokens and what completes them are written in some text. -/
theorem exists_streamOf_completion {tokens : List Token} {labels : List String}
    (readable : ∀ token ∈ tokens, token.Readable)
    (readableLabels : ∀ label ∈ labels, (Token.name label).Readable) :
    ∃ source, tokenize source = .ok (streamOf source) ∧
      (streamOf source).map (·.token) = tokens ++ completionTokens labels ++ [.endOfInput] := by
  have ended : (tokens ++ completionTokens labels).getLast? = some .newline := by
    rw [List.getLast?_append, getLast?_completionTokens]
    rfl
  obtain ⟨source, offset, sameTokens, ending⟩ := exists_feedOf
    (List.forall_mem_append.mpr ⟨readable, readable_completionTokens readableLabels⟩) ended
  have tokenized := tokenize_eq_ok.mpr ⟨offset, ending, rfl⟩
  obtain ⟨-, stream⟩ := streamOf_of_tokenize tokenized
  rw [stream] at tokenized
  exact ⟨source, tokenized, by simp [← stream, sameTokens]⟩

theorem exists_derived_extension {tree : Grammar.Program} {tokens more : List Token}
    (derives : tree.Derives (tokens ++ more ++ [.endOfInput]))
    (readable : ∀ token ∈ tokens ++ more, token.Readable) :
    ∃ (other : String) (program : Grammar.Program),
      program.Derives ((streamOf other).map (·.token)) ∧
      tokens <+: (streamOf other).map (·.token) := by
  obtain ⟨other, -, spelled⟩ := exists_streamOf_completion readable (List.forall_mem_nil _)
  refine ⟨other, _, spelled ▸ derives.complete [], ?_⟩
  rw [spelled, List.append_assoc, List.append_assoc]
  exact List.prefix_append ..

/-- If all that a program does is allowed up to its jumps, its tokens start those of a source that is
compiled. -/
theorem exists_compiled_extension {tree : Grammar.Program} {tokens more : List Token}
    {final : Account Emitter} (derives : tree.Derives (tokens ++ more ++ [.endOfInput]))
    (performed : (State.initialAccount ({} : Emitter)).performAll tree.actions = .ok final)
    (readable : ∀ token ∈ tokens ++ more, token.Readable) :
    ∃ other text, compile other = .ok text ∧ tokens <+: (streamOf other).map (·.token) := by
  have permits := Account.exists_performAll_iff.mp ⟨final, performed⟩
  rw [tree.namesIn_actions] at permits
  obtain ⟨whole, labels, valid, derivesWhole, readableLabels⟩ :=
    derives.exists_valid_extension permits rfl readable
  obtain ⟨other, tokenized, spelled⟩ := exists_streamOf_completion readable readableLabels
  obtain ⟨text, compiled⟩ := exists_compile_of_valid tokenized (spelled ▸ derivesWhole) valid
  refine ⟨other, text, compiled, ?_⟩
  rw [spelled, List.append_assoc, List.append_assoc]
  exact List.prefix_append ..

/-! ## Tokens out of place -/

/-- A feed with the given tokens. Where they stand does not matter. -/
def Feed.ofTokens (tokens : List Token) : Feed where
  tokens := tokens.map fun token => { token := token, span := { start := 0, stop := 0 } }
  ending := .endOfInput 0

theorem Feed.tokens_ofTokens (tokens : List Token) :
    (Feed.ofTokens tokens).tokens.map (·.token) = tokens :=
  List.map_map.trans (List.map_id tokens)

private theorem Feed.stream_ofTokens (tokens : List Token) :
    (Feed.ofTokens tokens).stream.map (·.token) = tokens ++ [.endOfInput] := by
  rw [Feed.stream, List.map_append, tokens_ofTokens]
  rfl

private theorem stream_of_faces {feed : Feed} {state : State Emitter} {used rest : List Located}
    {index : Nat} (split : feed.tokens = used ++ rest) (faces : state.Faces rest)
    (isAt : state.place.IsAt feed index)
    (notEnd : ∀ located ∈ feed.tokens, located.token ≠ .endOfInput) :
    ∃ behind, feed.stream = used ++ state.current :: behind := by
  cases faces with
  | none currentEnd =>
    have outside : feed.tokens.length ≤ index := by
      refine Nat.le_of_not_lt fun inside => ?_
      have current := isAt.current
      rw [Feed.drawn?_of_lt inside] at current
      exact notEnd _ (List.mem_of_getElem? current) currentEnd
    have atEnd := isAt.current
    rw [Feed.drawn?_of_le outside] at atEnd
    exact ⟨[], by simp [Feed.stream, split, atEnd, State.place]⟩
  | one => exact ⟨_, by rw [Feed.stream, split, List.append_assoc]; rfl⟩
  | more => exact ⟨_, by rw [Feed.stream, split, List.append_assoc]; rfl⟩

/-- No program starts with the tokens up to one that is refused for what it is. -/
theorem not_derives_of_refuses {source : String} {index : Nat} {failure : Failure}
    {after : State Emitter} (refuses : Refuses {} (feedOf source) index failure after)
    (syntactic : failure.cause.code.isSyntactic = true) {before behind : List Located}
    (stream : streamOf source = before ++ after.current :: behind) {tree : Grammar.Program}
    {tokens : List Token} (derives : tree.Derives tokens) :
    ¬ (before ++ [after.current]).map (·.token) <+: tokens := by
  rintro ⟨more, split⟩
  obtain ⟨body, rfl, notEnd⟩ := derives.exists_body
  have found : (streamOf source)[before.length]? = some after.current := by simp [stream]
  obtain rfl : before.length = index :=
    (ordered_feedOf source).index_unique found refuses.isAt.stream rfl
  have faultless : (Feed.ofTokens body).Faultless := ⟨0, rfl⟩
  have rightNotEnd : ∀ located ∈ (Feed.ofTokens body).tokens, located.token ≠ .endOfInput := by
    intro located member
    refine notEnd _ ?_
    rw [← Feed.tokens_ofTokens body]
    exact List.mem_map_of_mem member
  -- A pass over the tokens of the program alone meets the same refusal, since a refusal depends on
  -- the tokens up to it and on there being a next one; but no pass over a program meets it.
  have agree : (feedOf source).Agree (Feed.ofTokens body) before.length := by
    refine agree_of_ahead (token_ne_endOfInput_of_mem_feedOf source) rightNotEnd
      (List.getElem?_eq_some_iff.mp found).1 ?_ (faultless.isSome_drawn? _)
    rw [Feed.stream_ofTokens, ← split, ← streamOf, stream, List.append_cons, List.map_append,
      List.take_left' (by simp), List.take_left' (by simp)]
  obtain ⟨there, stopped, refusesThere, sameCause, -⟩ :=
    refuses.of_agree (ordered_feedOf source) agree (Nat.le_refl _) Eq (fun call same => same ▸ rfl)
      rfl
  obtain ⟨state, started, failed⟩ := runFeed_eq_halted.mp refusesThere.halted
  obtain ⟨faces, -, closed, ending⟩ := State.faces_of_start rightNotEnd started
  obtain ⟨refusal, line, cause, notSyntactic⟩ :=
    program_of_derives faces ⟨0, ending⟩ closed (by rwa [Feed.tokens_ofTokens]) failed
  rw [← sameCause, cause, Cause.code, notSyntactic] at syntactic
  cases syntactic

/-! ## The end of input -/

private theorem stream_of_jump {source : String} {failure : Failure} {after : State Emitter}
    {jump : Jump} (faultless : (feedOf source).Faultless)
    (halted : runFeed ({} : Emitter) (feedOf source) = .halted failure after)
    (notLexical : failure.cause.code.isLexical = false) (member : jump ∈ after.labels.jumps) :
    ∃ index : Nat,
      (streamOf source)[index]? = some { token := .name jump.label, span := jump.span } := by
  have notEnd := token_ne_endOfInput_of_mem_feedOf source
  have agree : (feedOf source).Agree (feedOf source) (feedOf source).tokens.length :=
    ⟨fun _ _ => rfl, faultless.isSome_drawn? _, notEnd, notEnd⟩
  obtain ⟨state, started, failed⟩ := runFeed_eq_halted.mp halted
  obtain ⟨other, -, outcomes⟩ :=
    agree.outcomes (fun call same => same ▸ rfl) (Eq.refl ({} : Emitter)) started
  rw [failed] at outcomes
  generalize program other = result at outcomes
  cases outcomes with
  | refused abreast =>
    obtain ⟨_, sameJump⟩ := Pairing.exists_sameJump abreast.jumps member
    obtain ⟨index, -, found, -⟩ := sameJump.spot
    exact ⟨index, found⟩
  | @faulty error =>
    have isLexical : error.failure.cause.code.isLexical = true := error.fault.isLexical_code
    rw [isLexical] at notLexical
    cases notLexical
  | parted gone =>
    obtain ⟨index, beyond, isAt⟩ := gone
    exact absurd isAt.bound (Nat.not_le_of_lt beyond)

/-- A source that is refused at its end leaves a block open, and its last word is missing. -/
theorem unclosed_of_atEnd {source : String} {failure : Failure} {before : List Located}
    {here : Located} (failed : compile source = .error failure)
    (stream : streamOf source = before ++ [here]) (isEnd : here.token = .endOfInput)
    (span : failure.span = here.span) :
    ∃ block outer line, unclosedBlocks (before.map (·.token)) = block :: outer ∧
      failure.cause = .refused (.unexpectedToken (.keyword block.terminator) .endOfInput) line := by
  have notEnd := token_ne_endOfInput_of_mem_feedOf source
  have ordered := ordered_feedOf source
  have found : (streamOf source)[before.length]? = some here := by simp [stream]
  cases fails_of_compile failed with
  | faulty fault =>
    rw [streamOf_of_fault fault] at stream
    exact absurd isEnd (notEnd here (by simp [stream]))
  | @unresolved _ after jump faultless _ halted member =>
    obtain ⟨index, named⟩ := stream_of_jump faultless halted rfl member
    obtain rfl := ordered.index_unique named found span
    rw [named] at found
    cases found
    cases isEnd
  | @refused index _ state after refuses started halts =>
    obtain rfl := ordered.index_unique refuses.isAt.stream found (refuses.span.symm.trans span)
    obtain rfl : after.current = here := Option.some.inj (refuses.isAt.stream.symm.trans found)
    have isRefusal := Fails.isRefusal refuses halts
    obtain ⟨used, rest, done, -, facesRest, -, ending, -⟩ := halts
    have atEnd : after.Faces [] := by
      cases rest with
      | nil => exact facesRest
      | cons => exact absurd isEnd facesRest.of_current.2
    obtain ⟨offset, clean⟩ := atEnd.faultless
    obtain ⟨_, sameStart, ran⟩ := runFeed_eq_halted.mp refuses.halted
    cases sameStart.symm.trans started
    obtain ⟨faces, -, closed, sameEnding⟩ := State.faces_of_start notEnd started
    have faultless := ending.symm.trans clean
    have whole := sameEnding.symm.trans faultless
    obtain rfl : (feedOf source).tokens = before := by
      simp only [streamOf, Feed.stream, Feed.endToken?, whole, Option.toList] at stream
      exact List.append_inj_left' stream rfl
    rcases program_atEnd faces ⟨offset, faultless⟩ closed (getLast?_feedOf whole) ran atEnd with
      ⟨label, line, cause⟩ | ⟨count, lines, used, block, outer, line, spelled, written, leads, cause⟩
    · simp [Failure.isRefusal, cause, Cause.code, Refusal.code] at isRefusal
    · exact ⟨block, outer, line, spelled ▸ leads.unclosedBlocks written count, cause⟩

/-! ## The earliest token -/

private theorem Failure.diagnostic_of_unclosed {failure : Failure} {word : Keyword} {line : Nat}
    (cause : failure.cause = .refused (.unexpectedToken (.keyword word) .endOfInput) line) :
    failure.diagnostic.code.number = "E100" ∧
      failure.diagnostic.message =
        "Expected " ++ word.spelling ++ ", got EOF" ++ " (line " ++ toString line ++ ")" := by
  obtain ⟨_, span⟩ := failure
  subst cause
  have joined : ", got " ++ "EOF" = ", got EOF" := by decide
  refine ⟨rfl, ?_⟩
  rw [← joined, ← String.append_assoc]
  rfl

private theorem Failure.isRefusal_of_code {failure : Failure}
    (code : failure.cause.code.isSyntactic = true ∨ failure.cause.code.isNaming = true) :
    failure.isRefusal = true := by
  unfold isRefusal
  generalize failure.cause.code = found at code
  cases found <;> first | rfl | simp [Code.isSyntactic, Code.isNaming] at code

private theorem readable_of_mem_streamOf {source : String} {located : Located}
    (member : located ∈ streamOf source) (notEnd : located.token ≠ .endOfInput) :
    located.token.Readable := by
  rcases List.mem_append.mp member with inside | atEnd
  · exact readable_of_mem_feedOf (List.mem_map_of_mem inside)
  · exact absurd (Feed.token_of_endToken? (Option.mem_toList.mp atEnd)) notEnd

/-- What the pass has read and done before a token that it refuses. -/
theorem exists_stuck {source : String} {failure : Failure} (failed : compile source = .error failure)
    (isRefusal : failure.isRefusal = true) :
    ∃ index before behind done after, Refuses {} (feedOf source) index failure after ∧
      streamOf source = before ++ after.current :: behind ∧
      (∀ token ∈ before.map (·.token), token.Readable) ∧
      (State.initialAccount ({} : Emitter)).performAll done = .ok after.account ∧
      Stuck programWords (before.map (·.token)) done after failure := by
  have notEnd := token_ne_endOfInput_of_mem_feedOf source
  cases fails_of_compile failed with
  | @faulty error =>
    have isLexical : error.failure.cause.code.isLexical = true := error.fault.isLexical_code
    simp [Failure.isRefusal, isLexical] at isRefusal
  | unresolved => cases isRefusal
  | @refused index _ state after refuses started halts =>
    obtain ⟨-, account, -, -⟩ := State.faces_of_start notEnd started
    obtain ⟨used, rest, done, split, facesRest, performed, -, stuck⟩ := halts
    obtain ⟨behind, stream⟩ := stream_of_faces split facesRest refuses.isAt notEnd
    refine ⟨index, used, behind, done, after, refuses, stream, fun token member => ?_,
      account ▸ performed, stuck⟩
    have inside : token ∈ (feedOf source).tokens.map (·.token) := by
      rw [split, List.map_append]
      exact List.mem_append_left _ member
    exact readable_of_mem_feedOf inside

/-- A source that fails for the order of its tokens fails at the first token that makes this
unavoidable: what stands before it is the start of a source that is compiled, and with it no program
goes on. A name that is not allowed stands where a name may stand. At the end of input only the last
word of the innermost open block is missed, and that is what the message says. -/
theorem failure_at_earliest_token {source : String} {failure : Failure}
    (failed : compile source = .error failure) :
    (failure.diagnostic.code.number ∈ ["E100", "E103", "E104", "E105"] →
      ∃ before here behind, streamOf source = before ++ here :: behind ∧ failure.span = here.span ∧
        (∃ other text, compile other = .ok text ∧
          before.map (·.token) <+: (streamOf other).map (·.token)) ∧
        ∀ (program : Grammar.Program) (tokens : List Token), program.Derives tokens →
          ¬ (before ++ [here]).map (·.token) <+: tokens) ∧
    (failure.diagnostic.code.number ∈ ["E200", "E201", "E250"] →
      ∃ before here behind, streamOf source = before ++ here :: behind ∧ failure.span = here.span ∧
        ∃ (other : String) (program : Grammar.Program),
          program.Derives ((streamOf other).map (·.token)) ∧
          (before ++ [here]).map (·.token) <+: (streamOf other).map (·.token)) ∧
    ∀ before here, streamOf source = before ++ [here] → here.token = .endOfInput →
      failure.span = here.span →
      ∃ block outer line, unclosedBlocks (before.map (·.token)) = block :: outer ∧
        failure.cause = .refused (.unexpectedToken (.keyword block.terminator) .endOfInput) line ∧
        failure.diagnostic.code.number = "E100" ∧
        failure.diagnostic.message =
          "Expected " ++ block.terminator.spelling ++ ", got EOF" ++
            " (line " ++ toString line ++ ")" := by
  refine ⟨fun listed => ?_, fun listed => ?_, fun before here stream isEnd span => ?_⟩
  · have syntactic : failure.cause.code.isSyntactic = true := Code.isSyntactic_iff.mpr listed
    obtain ⟨index, before, behind, done, after, refuses, stream, readable, performed, stuck⟩ :=
      exists_stuck failed (Failure.isRefusal_of_code (.inl syntactic))
    refine ⟨before, after.current, behind, stream, refuses.span, ?_, fun program tokens =>
      not_derives_of_refuses refuses syntactic stream⟩
    cases stuck with
    | @faulty error =>
      obtain ⟨fault, span⟩ := error
      cases fault <;> cases syntactic
    | disallowed _ _ naming => cases syntactic.symm.trans (Code.isSyntactic_of_isNaming naming)
    | misplaced _ more _ word readableMore performedMore =>
      obtain ⟨tree, derives, actions⟩ := word
      have whole := Account.performAll_append_eq_ok.mpr ⟨_, performed, performedMore⟩
      exact exists_compiled_extension derives (actions ▸ whole)
        (List.forall_mem_append.mpr ⟨readable, readableMore⟩)
  · have naming : failure.cause.code.isNaming = true := Code.isNaming_iff.mpr listed
    obtain ⟨index, before, behind, done, after, refuses, stream, readable, performed, stuck⟩ :=
      exists_stuck failed (Failure.isRefusal_of_code (.inr naming))
    refine ⟨before, after.current, behind, stream, refuses.span, ?_⟩
    cases stuck with
    | @faulty error =>
      obtain ⟨fault, span⟩ := error
      cases fault <;> cases naming
    | misplaced _ _ syntactic => cases syntactic.symm.trans (Code.isSyntactic_of_isNaming naming)
    | disallowed _ more _ current word readableMore =>
      obtain ⟨tree, derives, -⟩ := word
      have member : after.current ∈ streamOf source := by simp [stream]
      have readableHere := readable_of_mem_streamOf member (by simp [current])
      have whole : tree.Derives
          ((before ++ [after.current]).map (·.token) ++ more ++ [.endOfInput]) := by
        simpa [current] using derives
      refine exists_derived_extension whole (List.forall_mem_append.mpr ⟨?_, readableMore⟩)
      rw [List.map_append]
      exact List.forall_mem_append.mpr ⟨readable, List.forall_mem_singleton.mpr readableHere⟩
  · obtain ⟨block, outer, line, unclosed, cause⟩ := unclosed_of_atEnd failed stream isEnd span
    obtain ⟨number, message⟩ := Failure.diagnostic_of_unclosed cause
    exact ⟨block, outer, line, unclosed, cause, number, message⟩

/-- The input ends inside a loop inside a condition. -/
theorem failure_at_earliest_token_unclosed :
    ∃ failure, compile "IF 2 > 1 THEN\nWHILE 1 < 2 REPEAT\n" = .error failure ∧
      failure.diagnostic.code.number ∈ ["E100", "E103", "E104", "E105"] ∧
      (∃ before here behind,
        streamOf "IF 2 > 1 THEN\nWHILE 1 < 2 REPEAT\n" = before ++ here :: behind ∧
        failure.span = here.span ∧
        (∃ other text, compile other = .ok text ∧
          before.map (·.token) <+: (streamOf other).map (·.token)) ∧
        ∀ (program : Grammar.Program) (tokens : List Token), program.Derives tokens →
          ¬ (before ++ [here]).map (·.token) <+: tokens) ∧
      ∃ before here, streamOf "IF 2 > 1 THEN\nWHILE 1 < 2 REPEAT\n" = before ++ [here] ∧
        here.token = .endOfInput ∧ failure.span = here.span ∧
        ∃ block outer line, unclosedBlocks (before.map (·.token)) = block :: outer ∧
          failure.cause =
            .refused (.unexpectedToken (.keyword block.terminator) .endOfInput) line ∧
          failure.diagnostic.code.number = "E100" ∧
          failure.diagnostic.message =
            "Expected " ++ block.terminator.spelling ++ ", got EOF" ++
              " (line " ++ toString line ++ ")" := by
  have failed : compile "IF 2 > 1 THEN\nWHILE 1 < 2 REPEAT\n" = .error
      { cause := .refused (.unexpectedToken (.keyword .endWhile) .endOfInput) 3
        span := { start := 33, stop := 33 } } := by
    decide +kernel
  have stream : streamOf "IF 2 > 1 THEN\nWHILE 1 < 2 REPEAT\n" =
      (streamOf "IF 2 > 1 THEN\nWHILE 1 < 2 REPEAT\n").take 12 ++
        [{ token := .endOfInput, span := { start := 33, stop := 33 } }] := by
    decide +kernel
  obtain ⟨syntactic, -, atEnd⟩ := failure_at_earliest_token failed
  exact ⟨_, failed, .head _, syntactic (.head _), _, _, stream, rfl, rfl, atEnd _ _ stream rfl rfl⟩

end TeenyBasic
