import TeenyBasic.CLines
import TeenyBasic.Pass.Expression

/-!
Statements. Blocks are not read by recursion: opening one puts it on top of `State.openBlocks`, its
last word takes it off, and everything between the two is read by further turns of one loop.
-/

set_option autoImplicit false

namespace TeenyBasic.Pass

variable {σ : Type}

def lineEnd : Pass σ Unit := do
  let _ ← advance
  nextLine

theorem uses_lineEnd :
    Uses (fun state => standsAt Kind.isNewline state = true) (lineEnd : Pass σ Unit) :=
  (uses_advance.bind fun _ => keeps_nextLine).mono fun _ found => token_ne_endOfInput rfl found

def blankLines : Pass σ Unit :=
  repeatWhile (standsAt Kind.isNewline) lineEnd uses_lineEnd

/-- The end of the line, which a statement needs, and any number of empty lines after it. -/
def endOfLine : Pass σ Unit := do
  let _ ← expect .newline
  nextLine
  blankLines

/-- A name that the program may give to something. -/
def freshName : Pass σ String := do
  let here ← current
  match here.token with
  | .name name =>
    if isReserved name then refuse (.reservedName name)
    else
      let _ ← advance
      return name
  | other => refuse (.unexpectedToken .name other.kind)

/-- The name of a new label. A name that is taken is refused before anything else is looked at. -/
def labelName : Pass σ String := fun state =>
  match state.current.token with
  | .name name =>
    if state.labels.contains name then refuse (.duplicateLabel name) state else freshName state
  | _ => freshName state

def placeLabel (name : String) : Pass σ Unit := fun state =>
  .ok ()
    { state with
      labels := state.labels.insert name
      notes := state.notes.push (.newLabel name) }

def addJump (label : String) (span : Span) : Pass σ Unit := fun state =>
  .ok ()
    { state with
      labels := state.labels.addJump { label := label, span := span, line := state.line } }

def enterBlock (block : Block) : Pass σ Unit := fun state =>
  .ok () { state with openBlocks := block :: state.openBlocks }

/-- Comes out of the innermost block; `outer` are the blocks still open. -/
def leaveBlock (outer : List Block) : Pass σ Unit := fun state =>
  .ok () { state with openBlocks := outer }

def noteStatement : Pass σ Unit := fun state =>
  note (.statement state.line state.current.kind) state

section Writing

variable [Sink σ]

def declareVariable (name : String) : Pass σ Unit := fun state =>
  if state.declared.contains name then .ok () state
  else
    .ok ()
      { state with
        declared := state.declared.insert name
        sink := Sink.headerLine state.sink (CLines.declaration name)
        notes := state.notes.push (.newVariable name) }

/-- The rest of `PRINT`: a string as it is, or the value of an expression. -/
def printStatement : Pass σ Unit := do
  let here ← current
  match here.token with
  | .string body =>
    let _ ← advance
    emitLine (CLines.printString body)
  | _ =>
    emit CLines.printOpening
    expression
    emitLine CLines.printClosing

def labelStatement : Pass σ Unit := do
  let name ← labelName
  placeLabel name
  emitLine (CLines.label name)

/-- The rest of `GOTO`. The label may be placed later. -/
def gotoStatement : Pass σ Unit := do
  let here ← current
  let name ← freshName
  addJump name here.span
  emitLine (CLines.jump name)

/-- The rest of `LET`. The variable counts as given a value in its own expression. -/
def letStatement : Pass σ Unit := do
  let name ← freshName
  declareVariable name
  emit (CLines.assignmentOpening name)
  let _ ← expect (.operator .assign)
  expression
  emitLine CLines.assignmentClosing

def inputStatement : Pass σ Unit := do
  let name ← freshName
  declareVariable name
  (CLines.inputRead name).forM emitLine

/-- The rest of `RND`. The name is bound where it stands and does not count as a variable. -/
def randomStatement : Pass σ Unit := do
  let name ← freshName
  emitLine CLines.randomSeed
  emitLine (CLines.randomBinding name)

def openBlock (block : Block) : Pass σ Unit := do
  emit block.head
  condition
  let _ ← expect (.keyword block.separator)
  endOfLine
  emitLine CLines.blockOpening
  enterBlock block

def closeBlock (block : Block) (outer : List Block) : Pass σ Unit := do
  let _ ← expect (.keyword block.terminator)
  emitLine CLines.blockClosing
  leaveBlock outer
  endOfLine

/-- What a line goes on with after its first word, if a statement starts with that word. -/
def statementRest? : Keyword → Option (Pass σ Unit)
  | .print => some do printStatement; endOfLine
  | .label => some do labelStatement; endOfLine
  | .goto => some do gotoStatement; endOfLine
  | .let_ => some do letStatement; endOfLine
  | .input => some do inputStatement; endOfLine
  | .rnd => some do randomStatement; endOfLine
  | .if_ => some (openBlock .conditional)
  | .while_ => some (openBlock .loop)
  | _ => none

/-- A statement up to the end of its line; of a block, its first line. -/
def statement : Pass σ Unit := do
  noteStatement
  let here ← current
  match here.token with
  | .keyword word =>
    match statementRest? word with
    | some rest =>
      let _ ← advance
      rest
    | none => refuse (.expectedStatement (.keyword word))
  | other => refuse (.expectedStatement other)

/-- A statement, or the end of the innermost open block. Where the input ends inside a block, the
last word of the block is missing. -/
def turn : Pass σ Unit := fun state =>
  match state.openBlocks with
  | [] => statement state
  | block :: outer =>
    if state.current.token = .keyword block.terminator ∨ state.current.token = .endOfInput then
      closeBlock block outer state
    else
      statement state

end Writing

theorem keeps_blankLines : Keeps (blankLines : Pass σ Unit) :=
  keeps_repeatWhile uses_lineEnd

theorem keeps_endOfLine : Keeps (endOfLine : Pass σ Unit) :=
  (keeps_expect _).bind fun _ => keeps_nextLine.bind fun _ => keeps_blankLines

theorem keeps_freshName : Keeps (freshName : Pass σ String) := by
  refine Keeps.current_bind fun here => ?_
  split
  · split
    · exact keeps_refuse _
    · exact keeps_advance.bind fun _ => Keeps.pure _
  · exact keeps_refuse _

theorem keeps_labelName : Keeps (labelName : Pass σ String) := by
  intro state result after success
  unfold labelName at success
  split at success
  · split at success
    · exact keeps_refuse _ state result after success
    · exact keeps_freshName state result after success
  · exact keeps_freshName state result after success

theorem keeps_placeLabel (name : String) : Keeps (placeLabel name : Pass σ Unit) :=
  keeps_of_total (fun _ => rfl) fun _ => rfl

theorem keeps_addJump (label : String) (span : Span) :
    Keeps (addJump label span : Pass σ Unit) :=
  keeps_of_total (fun _ => rfl) fun _ => rfl

theorem keeps_enterBlock (block : Block) : Keeps (enterBlock block : Pass σ Unit) :=
  keeps_of_total (fun _ => rfl) fun _ => rfl

theorem keeps_leaveBlock (outer : List Block) : Keeps (leaveBlock outer : Pass σ Unit) :=
  keeps_of_total (fun _ => rfl) fun _ => rfl

theorem keeps_noteStatement : Keeps (noteStatement : Pass σ Unit) :=
  keeps_of_total (fun _ => rfl) fun _ => rfl

section Writing

variable [Sink σ]

theorem keeps_declareVariable (name : String) : Keeps (declareVariable name : Pass σ Unit) := by
  intro state result after success
  unfold declareVariable at success
  split at success <;> cases success <;> exact Nat.le_refl _

theorem keeps_printStatement : Keeps (printStatement : Pass σ Unit) := by
  refine Keeps.current_bind fun here => ?_
  split
  · exact keeps_advance.bind fun _ => keeps_emitLine _
  · exact (keeps_emit _).bind fun _ => keeps_expression.bind fun _ => keeps_emitLine _

theorem keeps_labelStatement : Keeps (labelStatement : Pass σ Unit) :=
  keeps_labelName.bind fun _ => (keeps_placeLabel _).bind fun _ => keeps_emitLine _

theorem keeps_gotoStatement : Keeps (gotoStatement : Pass σ Unit) :=
  Keeps.current_bind fun _ => keeps_freshName.bind fun _ => (keeps_addJump _ _).bind fun _ =>
    keeps_emitLine _

theorem keeps_letStatement : Keeps (letStatement : Pass σ Unit) :=
  keeps_freshName.bind fun _ => (keeps_declareVariable _).bind fun _ => (keeps_emit _).bind fun _ =>
    (keeps_expect _).bind fun _ => keeps_expression.bind fun _ => keeps_emitLine _

theorem keeps_forM_emitLine (lines : List String) : Keeps (lines.forM emitLine : Pass σ Unit) := by
  induction lines with
  | nil => exact Keeps.pure ()
  | cons line rest ih =>
    exact (keeps_emitLine line).bind fun _ => ih

theorem keeps_inputStatement : Keeps (inputStatement : Pass σ Unit) :=
  keeps_freshName.bind fun _ => (keeps_declareVariable _).bind fun _ => keeps_forM_emitLine _

theorem keeps_randomStatement : Keeps (randomStatement : Pass σ Unit) :=
  keeps_freshName.bind fun _ => (keeps_emitLine _).bind fun _ => keeps_emitLine _

theorem keeps_openBlock (block : Block) : Keeps (openBlock block : Pass σ Unit) :=
  (keeps_emit _).bind fun _ => keeps_condition.bind fun _ => (keeps_expect _).bind fun _ =>
    keeps_endOfLine.bind fun _ => (keeps_emitLine _).bind fun _ => keeps_enterBlock _

theorem keeps_statementRest? {word : Keyword} {rest : Pass σ Unit}
    (found : statementRest? word = some rest) : Keeps rest := by
  unfold statementRest? at found
  split at found <;> cases found
  · exact keeps_printStatement.bind fun _ => keeps_endOfLine
  · exact keeps_labelStatement.bind fun _ => keeps_endOfLine
  · exact keeps_gotoStatement.bind fun _ => keeps_endOfLine
  · exact keeps_letStatement.bind fun _ => keeps_endOfLine
  · exact keeps_inputStatement.bind fun _ => keeps_endOfLine
  · exact keeps_randomStatement.bind fun _ => keeps_endOfLine
  · exact keeps_openBlock .conditional
  · exact keeps_openBlock .loop

theorem uses_closeBlock (block : Block) (outer : List Block) :
    Uses (fun _ => True) (closeBlock block outer : Pass σ Unit) :=
  (uses_expect (by simp)).bind fun _ => (keeps_emitLine _).bind fun _ =>
    (keeps_leaveBlock _).bind fun _ => keeps_endOfLine

theorem uses_statement : Uses (fun _ => True) (statement : Pass σ Unit) := by
  refine keeps_noteStatement.bind_uses fun _ => Uses.current_bind fun here => ?_
  split
  · rename_i word isKeyword
    split
    · rename_i rest found
      refine (uses_advance.bind fun _ => keeps_statementRest? found).mono fun state held => ?_
      simp [held.2, isKeyword]
    · exact uses_refuse _ _
  · exact uses_refuse _ _

theorem uses_turn : Uses (fun _ => True) (turn : Pass σ Unit) := by
  intro state result after _ success
  unfold turn at success
  split at success
  · exact uses_statement state result after trivial success
  · split at success
    · exact uses_closeBlock _ _ state result after trivial success
    · exact uses_statement state result after trivial success

end Writing

end TeenyBasic.Pass
