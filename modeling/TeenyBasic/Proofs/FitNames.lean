import TeenyBasic.Proofs.Moments
import TeenyBasic.Proofs.Pass.Phrases

/-!
No name that means something else in the C text gets into it. Every moment of a run is clean
(`Moment.clean`), so a call on the sink is a phrase, and a phrase shows the name it was made for
(`Phrased.fit`): whatever is written in the place of a name is a name fit for C. A reserved name is
refused where it is introduced. It cannot be a label already, so the test for labels that are there twice
does not get in the way.
-/

set_option autoImplicit false

namespace TeenyBasic

open Grammar Pass

/-! ## Reading phrases -/

/-- What stands before and after a name in the lines that hold one. -/
def lineForms : List (String × String) :=
  [("if(0 == scanf(\"%f\", &", ")) \x7b"), ("", " = 0;"), ("float ", " = rand() % 100 + 1;"), ("", ":"),
    ("goto ", ";")]

def filled (form : String × String) (name : String) : String :=
  form.1 ++ name ++ form.2

/-- Whether a text can have both forms, as far as its start and its end tell. -/
def compatible (form other : String × String) : Bool :=
  (form.1.toList.isPrefixOf other.1.toList || other.1.toList.isPrefixOf form.1.toList) &&
    (form.2.toList.isSuffixOf other.2.toList || other.2.toList.isSuffixOf form.2.toList)

theorem head_filled (form : String × String) (name : String) : form.1.toList <+: (filled form name).toList :=
  ⟨(name ++ form.2).toList, by simp [filled]⟩

theorem end_filled (form : String × String) (name : String) : form.2.toList <:+ (filled form name).toList :=
  ⟨(form.1 ++ name).toList, by simp [filled]⟩

theorem compatible_of_filled {form other : String × String} {name body : String}
    (same : filled form name = filled other body) : compatible form other = true := by
  have heads := List.prefix_or_prefix_of_prefix (head_filled form name) (same ▸ head_filled other body)
  have ends := List.suffix_or_suffix_of_suffix (end_filled form name) (same ▸ end_filled other body)
  simpa [compatible] using ⟨heads, ends⟩

private theorem filled_inj {form : String × String} {name other : String}
    (same : filled form name = filled form other) : name = other := by
  simpa [filled] using same

section Cases

variable {text name : String}

private theorem Phrased.header_cases (phrased : Phrased (.header text)) :
    text ∈ CLines.prologue ∨ ∃ name, Fit name ∧ text = CLines.declaration name := by
  cases phrased with
  | fixed member => exact .inl (by simpa [fixedCalls] using member)
  | name use fit member =>
    cases use
    case declaration => exact .inr ⟨_, fit, by simpa [NameUse.calls] using member⟩
    all_goals simp [NameUse.calls, CLines.inputRead] at member

theorem Phrased.emit_cases (phrased : Phrased (.emit text)) :
    text ∈ fixedEmits ∨ Numeral text ∨ (∃ op : Operator, text = op.spelling) ∨
      ∃ name, Fit name ∧ (text = CLines.assignmentOpening name ∨ text = name) := by
  cases phrased with
  | fixed member => exact .inl (by simpa [fixedCalls] using member)
  | number numeral => exact .inr (.inl numeral)
  | operator op => exact .inr (.inr (.inl ⟨op, rfl⟩))
  | name use fit member =>
    refine .inr (.inr (.inr ⟨_, fit, ?_⟩))
    cases use
    case assignment => exact .inl (by simpa [NameUse.calls] using member)
    case operand => exact .inr (by simpa [NameUse.calls] using member)
    all_goals simp [NameUse.calls, CLines.inputRead] at member

private theorem randomBinding_eq (name : String) :
    CLines.randomBinding name = filled ("float ", " = rand() % 100 + 1;") name := by
  have bound : " = rand() % " ++ (toString CLines.randomMax ++ " + 1;") = " = rand() % 100 + 1;" := by decide
  rw [filled, ← bound, CLines.randomBinding]
  simp only [String.append_assoc]

theorem exists_form {use : NameUse} (member : .line text ∈ use.calls name) :
    ∃ form ∈ lineForms, text = filled form name := by
  cases use with
  | input =>
    simp only [NameUse.calls, CLines.inputRead, List.take_succ_cons, List.take_zero, List.map_cons,
      List.map_nil, List.mem_cons, Call.line.injEq, List.not_mem_nil, or_false] at member
    rcases member with rfl | rfl
    · exact ⟨_, .head _, rfl⟩
    · exact ⟨_, .tail _ (.head _), by simp [filled]⟩
  | draw =>
    cases List.mem_singleton.mp member
    exact ⟨_, .tail _ (.tail _ (.head _)), randomBinding_eq name⟩
  | label =>
    cases List.mem_singleton.mp member
    exact ⟨_, .tail _ (.tail _ (.tail _ (.head _))), by simp [filled, CLines.label]⟩
  | jump =>
    cases List.mem_singleton.mp member
    exact ⟨_, .tail _ (.tail _ (.tail _ (.tail _ (.head _)))), rfl⟩
  | _ => simp [NameUse.calls] at member

private theorem Phrased.line_cases (phrased : Phrased (.line text)) :
    text ∈ fixedLines ∨ (∃ body, text = filled ("printf(\"", "\\n\");") body) ∨
      ∃ form ∈ lineForms, ∃ name, Fit name ∧ text = filled form name := by
  cases phrased with
  | fixed member => exact .inl (by simpa [fixedCalls] using member)
  | text => exact .inr (.inl ⟨_, rfl⟩)
  | name use fit member =>
    obtain ⟨form, known, same⟩ := exists_form member
    exact .inr (.inr ⟨form, known, _, fit, same⟩)

private theorem Phrased.fit_declaration (phrased : Phrased (.header (CLines.declaration name))) :
    Fit name := by
  have apart : ∀ line ∈ CLines.prologue, ¬ "float ".toList <+: line.toList := by decide
  rcases phrased.header_cases with member | ⟨other, fit, same⟩
  · exact absurd (by simp [CLines.declaration]) (apart _ member)
  · rw [CLines.declaration, CLines.declaration, String.append_left_inj, String.append_right_inj] at same
    exact same ▸ fit

private theorem Numeral.blank_notMem (numeral : Numeral text) : ' ' ∉ text.toList := by
  intro blank
  cases numeral with
  | whole digits =>
    rw [String.toList_ofList] at blank
    cases digits.2 _ blank
  | pointed whole fraction =>
    simp only [String.toList_ofList, List.mem_append, List.mem_cons] at blank
    rcases blank with inside | atPoint | behind
    · cases whole.2 _ inside
    · cases atPoint
    · cases fraction.2 _ behind

theorem Operator.not_letter (op : Operator) :
    ∀ c ∈ op.spelling.toList, (!(c.isAlpha || c = ' ')) = true := by
  apply List.all_eq_true.mp
  cases op with
  | assign => decide
  | sign sign => cases sign <;> decide
  | scaling scaling => cases scaling <;> decide
  | comparison comparison => cases comparison <;> decide

private theorem Phrased.fit_assignment (phrased : Phrased (.emit (CLines.assignmentOpening name))) :
    Fit name := by
  have apart : ∀ text ∈ fixedEmits, ¬ " = ".toList <:+ text.toList := by decide
  have blank : ' ' ∈ (CLines.assignmentOpening name).toList := by simp [CLines.assignmentOpening]
  rcases phrased.emit_cases with member | numeral | ⟨op, same⟩ | ⟨other, fit, same | same⟩
  · exact absurd (by simp [CLines.assignmentOpening]) (apart _ member)
  · exact absurd blank numeral.blank_notMem
  · rw [same] at blank
    cases op.not_letter _ blank
  · rw [CLines.assignmentOpening, CLines.assignmentOpening, String.append_left_inj] at same
    exact same ▸ fit
  · rw [same] at blank
    cases fit.isName.letters _ blank

private theorem Phrased.fit_operand (phrased : Phrased (.emit name))
    (letters : ∀ c ∈ name.toList, c.isAlpha = true) : Fit name := by
  have apart : ∀ text ∈ fixedEmits, text.toList.all Char.isAlpha = false := by decide
  rcases phrased.emit_cases with member | numeral | ⟨op, same⟩ | ⟨other, fit, same | same⟩
  · have notLetters := apart name member
    rw [List.all_eq_true.mpr letters] at notLetters
    cases notLetters
  · obtain ⟨c, more, cons, digit⟩ := numeral.exists_cons
    have notLetter := CLanguage.isLetter_of_isDigit digit
    rw [CLanguage.isLetter, letters c (cons ▸ .head _)] at notLetter
    cases notLetter
  · obtain ⟨c, more, cons, -⟩ := op.exists_symbol
    have symbol := op.not_letter c (cons ▸ .head _)
    rw [letters c (same ▸ cons ▸ .head _)] at symbol
    cases symbol
  · have blank := letters ' ' (by simp [same, CLines.assignmentOpening])
    cases blank
  · exact same ▸ fit

private theorem clearing_ne_jump (fit : Fit text) :
    filled ("", " = 0;") name ≠ filled ("goto ", ";") text := by
  intro same
  have split : name ++ " = 0" ++ ";" = "goto " ++ text ++ ";" := by
    rw [String.append_assoc]
    simpa [filled] using same
  have last := congrArg (fun line => line.toList.getLast?) ((String.append_left_inj ";").mp split)
  rw [String.toList_append, String.toList_append, List.getLast?_append_of_ne_nil _ fit.isName.nonempty,
    List.getLast?_append_of_ne_nil _ (by decide)] at last
  cases fit.isName.letters _ (List.mem_of_getLast? last.symm)

private theorem jump_ne_clearing (fit : Fit text) :
    filled ("", " = 0;") text ≠ filled ("goto ", ";") name := by
  intro same
  have lines := congrArg (fun line => line.toList.takeWhile Char.isAlpha) same
  have goto : (filled ("goto ", ";") name).toList.takeWhile Char.isAlpha = "goto".toList := by
    rw [filled, String.append_assoc, String.toList_append]
    rfl
  have whole : (filled ("", " = 0;") text).toList.takeWhile Char.isAlpha = text.toList := by
    rw [filled, String.toList_append, String.toList_append]
    exact (stops_cons.mpr rfl : Stops Char.isAlpha " = 0;".toList).takeWhile_append fit.isName.letters
  have word := String.toList_injective (whole.symm.trans (lines.trans goto))
  rw [word] at fit
  exact fit.unreserved (by decide)

/-- Two forms can be filled to the same line in one case only: `goto = 0;` would be a jump and would
give a value to a variable, but `goto` is not fit. -/
theorem eq_of_filled {form other : String × String} (known : form ∈ lineForms) (otherKnown : other ∈ lineForms)
    {fitting : String} (fit : Fit fitting) (same : filled form name = filled other fitting) :
    name = fitting := by
  have apart : ∀ form ∈ lineForms, ∀ other ∈ lineForms, compatible form other = true →
      form = other ∨ form = ("", " = 0;") ∧ other = ("goto ", ";") ∨
        form = ("goto ", ";") ∧ other = ("", " = 0;") := by decide
  rcases apart form known other otherKnown (compatible_of_filled same) with rfl | ⟨rfl, rfl⟩ | ⟨rfl, rfl⟩
  · exact filled_inj same
  · exact absurd same (clearing_ne_jump fit)
  · exact absurd same.symm (jump_ne_clearing fit)

private theorem Phrased.fit_line (phrased : Phrased (.line text)) {form : String × String}
    (known : form ∈ lineForms) (same : text = filled form name) : Fit name := by
  have fixedApart : ∀ line ∈ fixedLines, ∀ form ∈ lineForms,
      ¬ (form.1.toList <+: line.toList ∧ form.2.toList <:+ line.toList) := by decide
  have textApart : ∀ form ∈ lineForms, compatible form ("printf(\"", "\\n\");") = false := by decide
  subst same
  rcases phrased.line_cases with member | ⟨body, same⟩ | ⟨other, otherKnown, fitting, fit, same⟩
  · exact absurd ⟨head_filled form name, end_filled form name⟩ (fixedApart _ member form known)
  · have compatible := compatible_of_filled same
    rw [textApart form known] at compatible
    cases compatible
  · rw [eq_of_filled known otherKnown fit same]
    exact fit

/-- A phrase shows the name it holds. For an operand, which is nothing but a name, this takes that the
text can be one. -/
theorem Phrased.fit {call : Call} (phrased : Phrased call) {use : NameUse} (member : call ∈ use.calls name)
    (operand : use = .operand → ∀ c ∈ name.toList, c.isAlpha = true) : Fit name := by
  cases call with
  | header text =>
    cases use
    case declaration =>
      cases List.mem_singleton.mp member
      exact phrased.fit_declaration
    all_goals simp [NameUse.calls, CLines.inputRead] at member
  | emit text =>
    cases use
    case assignment =>
      cases List.mem_singleton.mp member
      exact phrased.fit_assignment
    case operand =>
      cases List.mem_singleton.mp member
      exact phrased.fit_operand (operand rfl)
    all_goals simp [NameUse.calls, CLines.inputRead] at member
  | line text =>
    obtain ⟨form, known, same⟩ := exists_form member
    exact phrased.fit_line known same

end Cases

/-! ## Moments -/

section Moments

variable {σ : Type} [Sink σ] {sink : σ} {state : State σ} {source : String}

private theorem clean_of_start {feed : Feed} (spelled : ∀ located ∈ feed.tokens, located.token.Spelled)
    (started : State.start sink feed = .ok state) : Clean sink state := by
  obtain ⟨first, second, drewFirst, drewSecond, rfl⟩ := State.start_eq_ok.mp started
  refine ⟨⟨[], rfl, by simp⟩, by simp [State.initial], by simp [State.initial], ?_⟩
  refine List.forall_mem_cons.mpr ⟨Feed.spelled_drawn? spelled drewFirst, ?_⟩
  refine List.forall_mem_cons.mpr ⟨Feed.spelled_drawn? spelled drewSecond, ?_⟩
  exact fun located member => spelled located (List.mem_of_mem_drop member)

private theorem clean_of_runFeed {feed : Feed}
    (spelled : ∀ located ∈ feed.tokens, located.token.Spelled)
    (ended : (runFeed sink feed).state? = some state) : Clean sink state := by
  unfold Run.state? at ended
  split at ended
  · cases ended
  · rename_i failure after halted
    cases ended
    obtain ⟨start, started, ran⟩ := runFeed_eq_halted.mp halted
    have clean := tidy_program start (clean_of_start spelled started) trivial
    rwa [ran] at clean
  · rename_i after completed
    cases ended
    obtain ⟨start, started, ran⟩ := runFeed_eq_completed.mp completed
    have clean := tidy_program start (clean_of_start spelled started) trivial
    rwa [ran] at clean

theorem Moment.clean (moment : Moment sink source state) : Clean sink state := by
  cases moment with
  | @asking count error _ halted =>
    have ends : (runFeed sink ((feedOf source).brokenOff count error)).state? = some state := by
      rw [halted]
      rfl
    exact clean_of_runFeed (spelled_brokenOff source count error) ends
  | ended ends => exact clean_of_runFeed (spelled_feedOf source) ends

end Moments

/-! ## Reserved names -/

private theorem disallowance?_eq_reservedName {used : List Located} {token : Token} {name : String} :
    disallowance? used token = some (.reservedName name) ↔
      token = .name name ∧ precededBy Token.introduces used = true ∧ name ∈ reservedNames ∧
        ¬ (precededBy Token.places used = true ∧ name ∈ labelsOf used) := by
  have notAsked : precededBy Token.introduces used = true → precededBy Token.asksOperand used = false :=
    precededBy_eq_false fun _ => Token.asksOperand_of_introduces
  rw [← isReserved_iff]
  cases token with
  | name found => grind [disallowance?]
  | _ => simp [disallowance?]

/-- A name that is reserved has not become a label. -/
theorem Reaches.unreserved {source : String} {used : List Located} {here : Located} {name : String}
    (reaches : Reaches source used here) (placed : name ∈ labelsOf used) : name ∉ reservedNames := by
  obtain ⟨state, moment, current, behind, split⟩ := reaches
  obtain ⟨front, back, calls, otherSplit, books, -⟩ := moment.stands
  rw [current] at otherSplit
  obtain rfl := used_unique split otherSplit
  exact (moment.clean.labels name (books.mem_labels.mpr placed)).unreserved

/-- At every moment, whatever has been written for a name, declared as a variable or placed as a label is
a name fit for C; and a source is refused for a reserved name, with `E201`, just when one is reached
right after a word that introduces a name. -/
theorem names_fit (source : String) :
    (∀ state, Moment ({} : Transcript) source state →
      (∀ call ∈ state.sink.calls.toList, Phrased call ∧
        ∀ use name, call ∈ NameUse.calls name use →
          (use = .operand → ∀ c ∈ name.toList, c.isAlpha = true) → Fit name) ∧
      ∀ name, state.declared.contains name = true ∨ state.labels.contains name = true → Fit name) ∧
    (∀ failure : Failure, failure.diagnostic.code.number = "E201" ↔
      ∃ name line, failure.cause = .refused (.reservedName name) line) ∧
    ∀ name span,
      (∃ line, compile source = .error { cause := .refused (.reservedName name) line, span := span }) ↔
      ∃ used, Reaches source used { token := .name name, span := span } ∧
        precededBy Token.introduces used = true ∧ name ∈ reservedNames := by
  refine ⟨?_, Failure.number_eq_iff (by simp [nameRefusals]), ?_⟩
  · intro state moment
    have clean := moment.clean
    constructor
    · obtain ⟨calls, written, phrased⟩ := clean.written
      rw [written, replay_transcript]
      exact fun call made => ⟨phrased call made, fun _ _ member => (phrased call made).fit member⟩
    · intro name entered
      rw [Variables.contains, Labels.contains, List.contains_iff_mem, List.contains_iff_mem] at entered
      exact entered.elim (clean.declared name) (clean.labels name)
  · intro name span
    rw [refused_iff_reaches_name rfl fun _ _ => disallowance?_eq_reservedName]
    constructor
    · intro reached
      obtain ⟨used, reaches, introduced, reserved, -⟩ := reached
      exact ⟨used, reaches, introduced, reserved⟩
    · intro reached
      obtain ⟨used, reaches, introduced, reserved⟩ := reached
      exact ⟨used, reaches, introduced, reserved, fun taken => reaches.unreserved taken.2 reserved⟩

end TeenyBasic
