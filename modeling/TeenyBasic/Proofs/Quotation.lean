import TeenyBasic.Proofs.CLanguage.Quoting
import TeenyBasic.Proofs.Fragments
import TeenyBasic.Proofs.LongestLexeme
import TeenyBasic.Proofs.Lossless

/-!
What the C text quotes. A line of C is fixed text, names, expressions and string literals. Fixed text
and names have neither quotes nor slashes; an expression is cut into the lexemes of its tokens, and none
of them is a literal or a comment. So the literals of the text are the formats that its lines are written
with and the printed texts, and nothing of a printed text ends its literal.
-/

set_option autoImplicit false

namespace TeenyBasic

open Grammar CLanguage

/-! ## Literals that the source calls for -/

/-- The literal that prints a text and ends the line. -/
def quoted (body : String) : String :=
  "\"" ++ body ++ "\\n\""

def quotations : List Token → List String
  | [] => []
  | .keyword .print :: .string body :: rest => quoted body :: quotations rest
  | .keyword .print :: rest => "\"%.2f\\n\"" :: quotations rest
  | .keyword .input :: rest => "\"%f\"" :: "\"%*s\"" :: quotations rest
  | _ :: rest => quotations rest

theorem quotations_cons_of_ne {token : Token} (notPrint : token ≠ .keyword .print)
    (notInput : token ≠ .keyword .input) (rest : List Token) :
    quotations (token :: rest) = quotations rest :=
  quotations.eq_5 _ _ (fun _ _ print _ => notPrint print) notPrint notInput

/-- The literals of a line do not depend on what follows it. -/
theorem quotations_append_newline (front more : List Token) :
    quotations (front ++ .newline :: more) = quotations front ++ quotations more := by
  fun_induction quotations front with
  | case1 => rfl
  | case2 body rest ih => simp [quotations, ih]
  | case3 rest notText ih =>
    have value : ∀ body after, rest ++ .newline :: more = .string body :: after → False := by
      intro body after text
      cases rest with
      | nil => cases text
      | cons token rest =>
        obtain ⟨rfl, -⟩ := List.cons.inj text
        exact notText body rest rfl
    rw [List.cons_append, quotations.eq_3 _ value, ih, List.cons_append]
  | case4 rest ih => simp [quotations, ih]
  | case5 token rest _ notPrint notInput ih =>
    rw [List.cons_append, quotations_cons_of_ne notPrint notInput, ih]

theorem quotations_append_of_inExpression {tokens : List Token}
    (inside : ∀ token ∈ tokens, inExpression token = true) (rest : List Token) :
    quotations (tokens ++ rest) = quotations rest := by
  induction tokens with
  | nil => rfl
  | cons token tokens ih =>
    have here := inside token (.head _)
    rw [List.cons_append, quotations_cons_of_ne, ih fun other member => inside other (.tail _ member)]
    all_goals
      intro keyword
      rw [keyword] at here
      cases here

theorem quotations_of_inExpression {tokens : List Token}
    (inside : ∀ token ∈ tokens, inExpression token = true) : quotations tokens = [] := by
  have none := quotations_append_of_inExpression inside []
  rwa [List.append_nil] at none

theorem quotations_print {tokens : List Token}
    (inside : ∀ token ∈ tokens, inExpression token = true) :
    quotations (.keyword .print :: tokens) = ["\"%.2f\\n\""] := by
  have value : ∀ body after, tokens = .string body :: after → False := by
    intro body after text
    subst text
    cases inside _ (.head _)
  rw [quotations.eq_3 _ value, quotations_of_inExpression inside]

theorem quotations_newlines (count : Nat) (rest : List Token) :
    quotations (List.replicate count .newline ++ rest) = quotations rest := by
  induction count with
  | zero => rfl
  | succ count ih => exact ih

theorem quotations_written {lines : List Line} {tokens : List Token} (written : Written lines tokens)
    (more : List Token) :
    quotations (tokens ++ more) =
      lines.flatMap (fun line => quotations line.tokens) ++ quotations more := by
  induction written with
  | nil => rfl
  | @cons line lines ends tokens lineEnds _ ih =>
    obtain ⟨count, rfl⟩ := lineEnds
    rw [List.replicate_succ, List.append_assoc, List.append_assoc, List.cons_append,
      quotations_append_newline, quotations_newlines, ih, List.flatMap_cons, List.append_assoc]

private theorem Grammar.Program.Derives.quotations_eq {program : Program} {tokens : List Token}
    (derives : program.Derives tokens) :
    quotations tokens = (linesOf program.statements).flatMap fun line => quotations line.tokens := by
  obtain ⟨count, used, written, rfl⟩ := derives.exists_written
  rw [List.append_assoc, quotations_newlines, quotations_written written]
  exact List.append_nil _

/-! ## Literals that a text holds -/

/-- The text has these literals and no comment, whatever follows it. -/
def Quotes (text : String) (found : List String) : Prop :=
  ∀ rest, raw (lexemes (text.toList ++ rest)) = found.map .literal ++ raw (lexemes rest)

theorem Quotes.append {front back : String} {found others : List String} (first : Quotes front found)
    (second : Quotes back others) : Quotes (front ++ back) (found ++ others) := by
  intro rest
  rw [String.toList_append, List.append_assoc, first, second, List.map_append, List.append_assoc]

theorem Quotes.congr {text other : String} {found : List String} (quotes : Quotes other found)
    (same : text.toList = other.toList) : Quotes text found := by
  intro rest
  rw [same, quotes]

def Quiet (text : String) : Prop :=
  ∀ c ∈ text.toList, isQuiet c = true

instance (text : String) : Decidable (Quiet text) :=
  decidable_of_iff (text.toList.all isQuiet = true) List.all_eq_true

theorem quiet_append {front back : String} : Quiet (front ++ back) ↔ Quiet front ∧ Quiet back := by
  simp [Quiet, or_imp, forall_and]

theorem quiet_of_name {name : String} (isName : Name name) : Quiet name := by
  intro c member
  have letter := isName.letters c member
  cases quiet : isQuiet c with
  | true => rfl
  | false =>
    simp only [isQuiet, isQuote, Bool.not_eq_false', Bool.or_eq_true, decide_eq_true_eq] at quiet
    rcases quiet with (rfl | rfl) | rfl <;> cases letter

/-- Fixed text that ends with a character no lexeme goes on with. -/
def isFixed (text : String) : Bool :=
  text.toList.getLast?.any isFirm && text.toList.dropLast.all isQuiet

theorem quotes_quiet {front : String} (quiet : Quiet front) (back : String)
    (fixed : isFixed back = true) : Quotes (front ++ back) [] := by
  obtain ⟨ends, others⟩ := Bool.and_eq_true_iff.mp fixed
  cases last : back.toList.getLast? with
  | none => simp [last] at ends
  | some stop =>
    rw [last] at ends
    obtain ⟨init, text⟩ := List.getLast?_eq_some_iff.mp last
    rw [text, List.dropLast_concat] at others
    intro rest
    rw [String.toList_append, text, ← List.append_assoc, List.append_assoc _ [stop]]
    refine raw_lexemes_quiet ends (List.forall_mem_append.mpr ⟨quiet, ?_⟩) rest
    exact List.all_eq_true.mp others

theorem quotes_fixed (text : String) (fixed : isFixed text = true) : Quotes text [] := by
  have whole := quotes_quiet (by decide : Quiet "") text fixed
  rwa [String.empty_append] at whole

theorem quotes_literal (text inside : String) (chars : text.toList = '"' :: (inside.toList ++ ['"']))
    (closes : ∀ rest,
      closingLength? '"' (inside.toList ++ '"' :: rest) = some (inside.toList.length + 1)) :
    Quotes text [text] := by
  intro rest
  have read := lexemes_literal (closes rest)
  rw [← chars, String.ofList_toList] at read
  rw [chars, List.cons_append, ← List.append_cons, read]
  rfl

theorem quotes_quoted {body : String} (plain : ∀ c ∈ body.toList, c ∉ ['"', '\\', '\n']) :
    Quotes (quoted body) [quoted body] := by
  refine quotes_literal _ (body ++ "\\n") (by simp [quoted]) fun rest => ?_
  have ends : closingLength? '"' ("\\n".toList ++ '"' :: rest) = some 3 := by simp [closingLength?]
  rw [String.toList_append, List.append_assoc, closingLength?_append plain, ends, Option.map_some,
    List.length_append]
  exact congrArg some (Nat.add_comm _ _)

/-! ## Lines of the C text -/

private theorem raw_lexemesOf (tokens : List Token) : raw (lexemesOf tokens) = [] := by
  refine List.filter_eq_nil_iff.mpr fun lexeme member => ?_
  obtain ⟨token, -, rfl⟩ := List.mem_map.mp member
  cases token <;> simp [Token.lexeme, Lexeme.isRaw]

/-- An expression or a condition, and the end of its line. -/
theorem Grammar.Lexes.quotes {text : String} {tokens : List Token} {signed : Bool}
    (lexes : Lexes text tokens signed) (back : String) (fixed : isFixed back = true)
    (closed : ∀ rest, Closed (back.toList ++ rest)) : Quotes (text ++ back) [] := by
  intro rest
  rw [String.toList_append, List.append_assoc, lexes.cut _ (closed rest), ← quotes_fixed back fixed rest,
    raw, List.filter_append]
  exact congrArg (· ++ _) (raw_lexemesOf tokens)

private theorem Grammar.Simple.quotes {statement : Simple} (spelled : (Line.simple statement).Spelled) :
    Quotes (linesText statement.cLines) (quotations statement.tokens) := by
  have named : ∀ {name : String}, .name name ∈ statement.tokens → Quiet name :=
    fun member => quiet_of_name (spelled _ member)
  cases statement with
  | printText body =>
    have plain : ∀ c ∈ body.toList, c ∉ ['"', '\\', '\n'] := by
      intro c member special
      have legal := isStringBody_iff.mp (spelled (.string body) (.tail _ (.head _)) c member)
      simp_all
    have line := (quotes_fixed "printf(" (by decide)).append
      ((quotes_quoted plain).append (quotes_fixed ");\n" (by decide)))
    exact line.congr (by simp [Simple.cLines, quoted])
  | printValue value =>
    have lexes := lexes_expression fun token member => spelled token (.tail _ member)
    have argument := lexes.quotes "));\n" (by decide) fun rest => stops_cons.mpr rfl
    have format := quotes_literal "\"%.2f\\n\"" "%.2f\\n" (by decide) fun rest => by
      simp [closingLength?]
    have line := (quotes_fixed "printf(" (by decide)).append
      (format.append ((quotes_fixed ", (float)(" (by decide)).append argument))
    rw [Simple.tokens, quotations_print fun _ => Expression.inExpression_of_mem]
    exact line.congr (by simp [Simple.cLines])
  | label name =>
    have line := quotes_quiet (named (.tail _ (.head _))) ":\n" (by decide)
    exact line.congr (by simp [Simple.cLines])
  | goto name =>
    have line := (quotes_fixed "goto " (by decide)).append
      (quotes_quiet (named (.tail _ (.head _))) ";\n" (by decide))
    exact line.congr (by simp [Simple.cLines])
  | assign name value =>
    have lexes := lexes_expression fun token member =>
      spelled token (.tail _ (.tail _ (.tail _ member)))
    have line := (quotes_quiet (named (.tail _ (.head _))) " = " (by decide)).append
      (lexes.quotes ";\n" (by decide) fun rest => stops_cons.mpr rfl)
    have none : quotations (Simple.assign name value).tokens = [] := by
      change quotations (Expression.tokens value) = []
      exact quotations_of_inExpression fun _ => Expression.inExpression_of_mem
    rw [none]
    exact line.congr (by simp [Simple.cLines])
  | input name =>
    have quiet : Quiet name := named (.tail _ (.head _))
    have number := quotes_literal "\"%f\"" "%f" (by decide) fun rest => by simp [closingLength?]
    have word := quotes_literal "\"%*s\"" "%*s" (by decide) fun rest => by simp [closingLength?]
    have address := quotes_quiet (quiet_append.mpr ⟨(by decide : Quiet ", &"), quiet⟩) ")) \x7b\n"
      (by decide)
    have test := (quotes_fixed "if(0 == scanf(" (by decide)).append (number.append address)
    have skip := (quotes_fixed "scanf(" (by decide)).append
      (word.append (quotes_fixed ");\n\x7d\n" (by decide)))
    have lines := test.append ((quotes_quiet quiet " = 0;\n" (by decide)).append skip)
    exact lines.congr (by simp [Simple.cLines])
  | random name =>
    have lines := (quotes_fixed "srand(time(0));\nfloat " (by decide)).append
      (quotes_quiet (named (.tail _ (.head _))) " = rand() % 100 + 1;\n" (by decide))
    exact lines.congr (by simp [Simple.cLines])

private theorem Grammar.Line.quotes {line : Line} (spelled : line.Spelled) :
    Quotes (linesText line.cLines) (quotations line.tokens) := by
  cases line with
  | simple statement => exact Simple.quotes spelled
  | opening block condition =>
    have lexes := lexes_condition fun token member =>
      spelled token (.tail _ (List.mem_append_left _ member))
    have inside : quotations (condition.tokens ++ [.keyword block.separator]) =
        quotations [.keyword block.separator] :=
      quotations_append_of_inExpression (fun _ => Condition.inExpression_of_mem) _
    have rest := lexes.quotes ")\x7b\n" (by decide) fun rest => stops_cons.mpr rfl
    have none : quotations (Line.opening block condition).tokens = [] := by
      cases block <;> exact inside
    rw [none]
    cases block with
    | conditional =>
      have line := (quotes_fixed "if(" (by decide)).append rest
      exact line.congr (by simp [Line.cLines, cOpening])
    | loop =>
      have line := (quotes_fixed "while(" (by decide)).append rest
      exact line.congr (by simp [Line.cLines, cOpening])
  | closing block => cases block <;> exact quotes_fixed "\x7d\n" (by decide)

/-! ## Whole programs -/

theorem quotes_quietLines {lines : List String} (quiet : ∀ line ∈ lines, Quiet line) :
    Quotes (linesText lines) [] := by
  induction lines with
  | nil => exact fun rest => rfl
  | cons line lines ih =>
    rw [linesText_cons]
    exact (quotes_quiet (quiet line (.head _)) "\n" (by decide)).append
      (ih fun other member => quiet other (.tail _ member))

theorem quotes_lines {lines : List Line} (spelled : ∀ line ∈ lines, line.Spelled) :
    Quotes (linesText (lines.flatMap Line.cLines))
      (lines.flatMap fun line => quotations line.tokens) := by
  induction lines with
  | nil => exact fun rest => rfl
  | cons line lines ih =>
    rw [List.flatMap_cons, List.flatMap_cons, linesText_append]
    exact (Line.quotes (spelled line (.head _))).append
      (ih fun other member => spelled other (.tail _ member))

private theorem Grammar.Program.quotes {program : Program} (spelled : program.Spelled) :
    Quotes (linesText program.cLines)
      ((linesOf program.statements).flatMap fun line => quotations line.tokens) := by
  have header : ∀ line ∈ program.cHeader, Quiet line := by
    refine List.forall_mem_append.mpr ⟨by decide, List.forall_mem_map.mpr fun name member => ?_⟩
    rw [quiet_append, quiet_append]
    exact ⟨⟨by decide, quiet_of_name (spelled.name member)⟩, by decide⟩
  have epilogue : Quotes (linesText ["return 0;", "\x7d"]) [] := quotes_quietLines (by decide)
  have whole := ((quotes_quietLines header).append (quotes_lines spelled)).append epilogue
  rw [List.nil_append, List.append_nil] at whole
  rw [Program.cLines, linesText_append, linesText_append, cLinesOf_eq_flatMap]
  exact whole

/-! ## Line ends -/

private theorem joinLines_linesText {lines : List String}
    (each : ∀ line ∈ lines, OneLine line ∧ line.toList.getLast? ≠ some '\\') :
    joinLines (linesText lines).toList = (linesText lines).toList := by
  induction lines with
  | nil => rfl
  | cons line lines ih =>
    obtain ⟨oneLine, ends⟩ := each line (.head _)
    have text : (linesText (line :: lines)).toList =
        line.toList ++ '\n' :: (linesText lines).toList := by
      simp
    rw [text, joinLines_line oneLine ends, ih fun other member => each other (.tail _ member)]

theorem Grammar.Line.getLast?_cLines (line : Line) :
    ∀ text ∈ line.cLines, text.toList.getLast? ≠ some '\\' := by
  cases line with
  | simple statement => cases statement <;> simp [Line.cLines, Simple.cLines, List.getLast?_cons]
  | opening block condition => cases block <;> simp [Line.cLines, cOpening, List.getLast?_cons]
  | closing block => simp [Line.cLines]

/-- No line of the C text goes on in the next. -/
theorem Grammar.Program.getLast?_cLines (program : Program) :
    ∀ text ∈ program.cLines, text.toList.getLast? ≠ some '\\' := by
  have body : ∀ text ∈ cLinesOf program.statements, text.toList.getLast? ≠ some '\\' := by
    rw [cLinesOf_eq_flatMap]
    intro text member
    obtain ⟨line, -, inLine⟩ := List.mem_flatMap.mp member
    exact line.getLast?_cLines text inLine
  simp only [Program.cLines, Program.cHeader, List.forall_mem_append, List.forall_mem_map]
  exact ⟨⟨⟨by decide, fun name _ => by simp [List.getLast?_cons]⟩, body⟩, by decide⟩

private theorem Grammar.Program.joinLines_cText {program : Program} (spelled : program.Spelled) :
    joinLines program.cText.toList = program.cText.toList :=
  joinLines_linesText fun line member =>
    ⟨spelled.oneLine line member, program.getLast?_cLines line member⟩

/-! ## Printed texts -/

private theorem spelled_of_tokenize {source : String} {tokens : List Located}
    (tokenized : tokenize source = .ok tokens) {token : Token}
    (member : token ∈ tokens.map (·.token)) : token.Spelled := by
  obtain ⟨offset, -, rfl⟩ := tokenize_eq_ok.mp tokenized
  rw [List.map_append] at member
  rcases List.mem_append.mp member with inside | last
  · exact spelled_of_mem_tokens source inside
  · obtain rfl := List.mem_singleton.mp last
    trivial

/-- The one escape of a printed text is the line feed after it. -/
theorem escapes_quoted {body : String} (plain : '\\' ∉ body.toList) :
    escapes (quoted body).toList = ['n'] := by
  have chars : (quoted body).toList = ('"' :: body.toList) ++ ['\\', 'n', '"'] := by simp [quoted]
  rw [chars, escapes_append (by simpa using plain)]
  rfl

/-- An accepted source gets a C text without comments, whose literals are the formats of numbers and
the printed texts, in the order of the source. A printed text has no character that would end its
literal, and nothing in it is an escape or a conversion. Each fragment of the text is one line. -/
theorem literals_compile_eq_quotations (source text : String) (accepted : compile source = .ok text) :
    ∃ tokens emitter, tokenize source = .ok tokens ∧ (emission source).outcome = .ok emitter ∧
      emitter.finish = text ∧
      .comment ∉ lexFile text ∧
      literals (lexFile text) = quotations (tokens.map (·.token)) ∧
      (∀ body, .string body ∈ tokens.map (·.token) →
        (∀ c ∈ body.toList, c ∉ ['"', '\\', '%', '\r', '\n']) ∧
          escapes (quoted body).toList = ['n'] ∧ '%' ∉ (quoted body).toList) ∧
      (∀ fragment ∈ emitter.header.toList ++ emitter.body.toList,
        ∃ line, fragment = line ++ "\n" ∧ '\n' ∉ line.toList) ∧
      emitter.pending = "" := by
  obtain ⟨emitter, emitted, rfl⟩ := compile_eq_ok_iff_emission.mp accepted
  obtain ⟨tokens, tokenized, program, derives, -, rfl⟩ := emission_eq_ok.mp emitted
  have spelled := derives.spelled tokenized
  have lines : program.cHeader ++ (cLinesOf program.statements ++ ["return 0;", "\x7d"]) =
      program.cLines := (List.append_assoc _ _ _).symm
  have cText : program.emitter.finish = program.cText := by
    rw [Program.emitter, Emitter.finish_ofLines, lines, Program.cText]
  have found : raw (lexFile program.emitter.finish) =
      (quotations (tokens.map (·.token))).map .literal := by
    have quotes := Program.quotes spelled []
    rw [List.append_nil] at quotes
    rw [cText, lexFile, Program.joinLines_cText spelled, Program.cText, quotes, derives.quotations_eq]
    simp [raw, lexemes]
  refine ⟨tokens, program.emitter, tokenized, emitted, rfl, not_comment_of_raw found,
    literals_of_raw found, ?_, ?_, rfl⟩
  · intro body member
    have legal : ∀ c ∈ body.toList, c ∉ ['"', '\n', '\r', '\\', '%'] := fun c inside =>
      isStringBody_iff.mp (spelled_of_tokenize tokenized member c inside)
    refine ⟨fun c inside => ?_, escapes_quoted fun inside => ?_, ?_⟩
    · have := legal c inside
      simp_all
    · exact legal _ inside (by decide)
    · have noPercent : '%' ∉ body.toList := fun inside => legal _ inside (by decide)
      simp [quoted, noPercent]
  · intro fragment member
    rw [Program.emitter, Emitter.ofLines, ← List.map_append, lines] at member
    obtain ⟨line, inside, rfl⟩ := List.mem_map.mp member
    exact ⟨line, rfl, spelled.oneLine line inside⟩

theorem literals_compile_slashes :
    ∃ text, compile "PRINT \"//'/*\"\nINPUT x\nPRINT x/-2" = .ok text ∧ .comment ∉ lexFile text ∧
      literals (lexFile text) = ["\"//'/*\\n\"", "\"%f\"", "\"%*s\"", "\"%.2f\\n\""] := by
  have accepted : compile "PRINT \"//'/*\"\nINPUT x\nPRINT x/-2" = .ok
      (linesText (CLines.prologue ++ ["float x;", CLines.printString "//'/*"] ++
        CLines.inputRead "x" ++ ["printf(\"%.2f\\n\", (float)(x/-2));"] ++ CLines.epilogue)) := by
    decide +kernel
  have called : (tokenize "PRINT \"//'/*\"\nINPUT x\nPRINT x/-2").map
      (fun tokens => quotations (tokens.map (·.token))) =
      .ok ["\"//'/*\\n\"", "\"%f\"", "\"%*s\"", "\"%.2f\\n\""] := by
    decide +kernel
  obtain ⟨tokens, emitter, tokenized, -, -, noComment, same, -⟩ :=
    literals_compile_eq_quotations _ _ accepted
  rw [tokenized] at called
  exact ⟨_, accepted, noComment, same.trans (Except.ok.inj called)⟩

end TeenyBasic
