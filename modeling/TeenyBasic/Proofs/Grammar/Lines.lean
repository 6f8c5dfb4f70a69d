import TeenyBasic.Proofs.Grammar.Tree

/-!
Programs as lists of lines. A tree is cut into lines from left to right, a block giving one line that
opens it, the lines of its body and one line that closes it. A list of lines comes from a tree just
when its blocks are nested (`nested_iff_exists_linesOf`), and the tree derives the tokens that its
lines are written as (`derives_iff_written`).
-/

set_option autoImplicit false

namespace TeenyBasic.Grammar

inductive Line where
  | simple (statement : Simple)
  | opening (block : Block) (condition : Condition)
  | closing (block : Block)
  deriving DecidableEq, Repr

/-- The tokens of a line without its end. -/
def Line.tokens : Line → List Token
  | .simple statement => statement.tokens
  | .opening block condition =>
    .keyword block.opener :: condition.tokens ++ [.keyword block.separator]
  | .closing block => [.keyword block.terminator]

mutual

def Statement.lines : Statement → List Line
  | .simple statement => [.simple statement]
  | .block block condition body => .opening block condition :: linesOf body ++ [.closing block]

def linesOf : List Statement → List Line
  | [] => []
  | statement :: rest => statement.lines ++ linesOf rest

end

/-- How a line changes the blocks that are open around it, the innermost first. -/
inductive Line.Leads : Line → List Block → List Block → Prop where
  | simple (statement : Simple) (blocks : List Block) : Leads (.simple statement) blocks blocks
  | opening (block : Block) (condition : Condition) (blocks : List Block) :
      Leads (.opening block condition) blocks (block :: blocks)
  | closing (block : Block) (blocks : List Block) : Leads (.closing block) (block :: blocks) blocks

/-- The lines close the given blocks and all blocks they open. -/
inductive Nested : List Block → List Line → Prop where
  | done : Nested [] []
  | cons {line : Line} {blocks inner : List Block} {lines : List Line} :
      line.Leads blocks inner → Nested inner lines → Nested blocks (line :: lines)

/-- How lines one after the other change the blocks that are open around them. -/
inductive LeadsAll : List Line → List Block → List Block → Prop where
  | nil (blocks : List Block) : LeadsAll [] blocks blocks
  | cons {line : Line} {lines : List Line} {blocks between inner : List Block} :
      line.Leads blocks between → LeadsAll lines between inner →
      LeadsAll (line :: lines) blocks inner

inductive Written : List Line → List Token → Prop where
  | nil : Written [] []
  | cons (line : Line) {lines : List Line} {ends more : List Token} :
      LineEnds ends → Written lines more → Written (line :: lines) (line.tokens ++ ends ++ more)

/-! ## Nesting -/

theorem Line.Leads.unique {line : Line} {blocks first second : List Block}
    (leadsFirst : line.Leads blocks first) (leadsSecond : line.Leads blocks second) :
    first = second := by
  cases leadsFirst <;> cases leadsSecond <;> rfl

theorem LeadsAll.nested {lines more : List Line} {blocks inner : List Block}
    (leads : LeadsAll lines blocks inner) (nested : Nested inner more) :
    Nested blocks (lines ++ more) := by
  induction leads with
  | nil => exact nested
  | cons first _ ih => exact .cons first (ih nested)

private theorem nested_linesOf_append :
    ∀ (statements : List Statement) {blocks : List Block} {more : List Line},
      Nested blocks more → Nested blocks (linesOf statements ++ more)
  | [], _, _, nested => nested
  | .simple statement :: rest, _, _, nested => by
    simpa [linesOf, Statement.lines] using
      Nested.cons (.simple statement _) (nested_linesOf_append rest nested)
  | .block block condition body :: rest, _, _, nested => by
    have outer := Nested.cons (.closing block _) (nested_linesOf_append rest nested)
    simpa [linesOf, Statement.lines] using
      Nested.cons (.opening block condition _) (nested_linesOf_append body outer)
  termination_by statements => sizeOf statements

/-- What is left of the trees around a place: the rest of the innermost block, its end, the rest of
the block around it, and so on. -/
def Unclosed : List Block → List Line → Prop
  | [], lines => ∃ statements, lines = linesOf statements
  | block :: outer, lines =>
    ∃ statements more, lines = linesOf statements ++ .closing block :: more ∧ Unclosed outer more

theorem Unclosed.cons {blocks : List Block} {lines : List Line} (unclosed : Unclosed blocks lines)
    (statement : Statement) : Unclosed blocks (statement.lines ++ lines) := by
  cases blocks with
  | nil =>
    obtain ⟨statements, rfl⟩ := unclosed
    exact ⟨statement :: statements, rfl⟩
  | cons block outer =>
    obtain ⟨statements, more, rfl, closed⟩ := unclosed
    exact ⟨statement :: statements, more, by simp [linesOf], closed⟩

private theorem Nested.unclosed {blocks : List Block} {lines : List Line}
    (nested : Nested blocks lines) : Unclosed blocks lines := by
  induction nested with
  | done => exact ⟨[], rfl⟩
  | @cons _ _ _ lines leads _ ih =>
    cases leads with
    | simple statement => exact ih.cons (.simple statement)
    | opening block condition =>
      obtain ⟨body, more, rfl, outer⟩ := ih
      simpa [Statement.lines] using outer.cons (.block block condition body)
    | closing block => exact ⟨[], lines, rfl, ih⟩

theorem nested_iff_exists_linesOf {lines : List Line} :
    Nested [] lines ↔ ∃ statements, lines = linesOf statements := by
  constructor
  · exact Nested.unclosed
  · rintro ⟨statements, rfl⟩
    simpa using nested_linesOf_append statements .done

/-! ## Tokens -/

theorem Written.append {front back : List Line} {first second : List Token}
    (frontWritten : Written front first) (backWritten : Written back second) :
    Written (front ++ back) (first ++ second) := by
  induction frontWritten with
  | nil => exact backWritten
  | cons line ends _ ih => simpa using Written.cons line ends ih

private theorem Written.of_append {front back : List Line} {tokens : List Token}
    (written : Written (front ++ back) tokens) :
    ∃ first second, tokens = first ++ second ∧ Written front first ∧ Written back second := by
  induction front generalizing tokens with
  | nil => exact ⟨[], tokens, rfl, .nil, written⟩
  | cons line lines ih =>
    cases written with
    | cons _ ends rest =>
      obtain ⟨first, second, rfl, frontWritten, backWritten⟩ := ih rest
      exact ⟨_, second, by simp, .cons line ends frontWritten, backWritten⟩

theorem Derives.written {statements : List Statement} {tokens : List Token}
    (derives : Derives statements tokens) : Written (linesOf statements) tokens := by
  induction derives with
  | nil => exact .nil
  | simple statement ends _ ih => exact .cons (.simple statement) ends ih
  | block block condition openingEnds _ closingEnds _ bodyIH restIH =>
    have rest := Written.cons (.closing block) closingEnds restIH
    have whole := Written.cons (.opening block condition) openingEnds (bodyIH.append rest)
    simpa [linesOf, Statement.lines, Line.tokens] using whole

private theorem derives_of_written :
    ∀ (statements : List Statement) {tokens : List Token},
      Written (linesOf statements) tokens → Derives statements tokens
  | [], _, .nil => .nil
  | .simple statement :: rest, _, .cons _ ends written =>
    .simple statement ends (derives_of_written rest written)
  | .block block condition body :: rest, tokens, written => by
    have whole : Written (.opening block condition ::
        (linesOf body ++ .closing block :: linesOf rest)) tokens := by
      simpa [linesOf, Statement.lines] using written
    cases whole with
    | cons _ openingEnds inside =>
      obtain ⟨inner, second, rfl, bodyWritten, closed⟩ := inside.of_append
      cases closed with
      | cons _ closingEnds restWritten =>
        have derives := Derives.block block condition openingEnds
          (derives_of_written body bodyWritten) closingEnds (derives_of_written rest restWritten)
        simpa [Line.tokens] using derives
  termination_by statements => sizeOf statements

theorem derives_iff_written {statements : List Statement} {tokens : List Token} :
    Derives statements tokens ↔ Written (linesOf statements) tokens :=
  ⟨Derives.written, derives_of_written statements⟩

end TeenyBasic.Grammar
