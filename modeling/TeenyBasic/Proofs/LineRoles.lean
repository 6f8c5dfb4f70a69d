import TeenyBasic.Proofs.Lossless
import TeenyBasic.Text.Pieces

/-!
What the lines of a C text are there for. A line shows by its last character whether it opens or closes
a scope or places a label, and otherwise by its first word whether it jumps or declares a name
(`Role.ofLine`). For a text that a source is compiled to, these roles are those of the statements
(`roles_of_compile`).
-/

set_option autoImplicit false

namespace TeenyBasic

open Grammar

/-! ## Lines of a text -/

/-- The lines of a text, with what stands after the last line feed. -/
def linesIn (text : String) : List String :=
  (Text.pieces '\n' text.toList).map String.ofList

theorem linesIn_linesText {lines : List String} (oneLine : ∀ line ∈ lines, OneLine line) :
    linesIn (linesText lines) = lines ++ [""] := by
  induction lines with
  | nil => rfl
  | cons line lines ih =>
    have split : (linesText (line :: lines)).toList =
        line.toList ++ '\n' :: (linesText lines).toList := by
      simp
    rw [linesIn, split, Text.pieces_append, Text.pieces_of_notMem (oneLine line (.head _)),
      List.singleton_append, List.map_cons, ← linesIn,
      ih fun other member => oneLine other (.tail _ member), String.ofList_toList, List.cons_append]

/-! ## Roles -/

inductive Role where
  | opens
  | closes
  | places (label : String)
  | jumps (label : String)
  | declares (name : String)
  | other
  deriving DecidableEq, Repr

namespace Role

/-- The role of a line by the letters it starts with and the rest of the line. -/
def ofWord (word rest : List Char) : Role :=
  if word = "goto".toList then .jumps (String.ofList (rest.drop 1).dropLast)
  else if word = "float".toList then .declares (String.ofList ((rest.drop 1).takeWhile Char.isAlpha))
  else .other

def ofLine (line : String) : Role :=
  match line.toList.getLast? with
  | some '\x7b' => .opens
  | some '\x7d' => .closes
  | some ':' => .places (String.ofList line.toList.dropLast)
  | _ => ofWord (line.toList.takeWhile Char.isAlpha) (line.toList.dropWhile Char.isAlpha)

/-- Most lines end in a semicolon and are told by their first word. -/
theorem ofLine_of_word {line : String} (word rest : List Char)
    (split : line.toList = word ++ (rest ++ [';'])) (letters : ∀ c ∈ word, c.isAlpha = true)
    (stops : Stops Char.isAlpha (rest ++ [';'])) : ofLine line = ofWord word (rest ++ [';']) := by
  have ends : (word ++ (rest ++ [';'])).getLast? = some ';' := by
    rw [← List.append_assoc, List.getLast?_concat]
  rw [ofLine, split, ends, stops.takeWhile_append letters, stops.dropWhile_append letters]
  rfl

theorem ofLine_of_opens {line : String} (front : List Char) (split : line.toList = front ++ ['\x7b']) :
    ofLine line = .opens := by
  rw [ofLine, split, List.getLast?_concat]
  rfl

theorem ofLine_label (name : String) : ofLine (CLines.label name) = .places name := by
  have split : (CLines.label name).toList = name.toList ++ [':'] := by simp [CLines.label]
  rw [ofLine, split, List.getLast?_concat, List.dropLast_concat, String.ofList_toList]
  rfl

theorem ofLine_jump (name : String) : ofLine (CLines.jump name) = .jumps name := by
  rw [ofLine_of_word "goto".toList (' ' :: name.toList) (by simp [CLines.jump])
    (List.all_eq_true.mp (by decide)) (stops_cons.mpr rfl)]
  simp [ofWord]

/-- A line that starts with a name of the program does nothing but give it a value. -/
theorem ofLine_of_name {line name : String} (rest : List Char) (isName : Name name)
    (unreserved : name ∉ reservedNames) (split : line.toList = name.toList ++ (rest ++ [';']))
    (stops : Stops Char.isAlpha (rest ++ [';'])) : ofLine line = .other := by
  have ne : ∀ word ∈ reservedNames, name.toList ≠ word.toList := by
    intro word reserved same
    exact unreserved (String.toList_inj.mp same ▸ reserved)
  rw [ofLine_of_word name.toList rest split isName.letters stops, ofWord,
    if_neg (ne "goto" (by decide)), if_neg (ne "float" (by decide))]

/-- A declaration, with or without a value. -/
theorem ofLine_of_float {line name : String} (rest : List Char) (isName : Name name)
    (split : line.toList = "float".toList ++ (' ' :: (name.toList ++ rest) ++ [';']))
    (stops : Stops Char.isAlpha (rest ++ [';'])) : ofLine line = .declares name := by
  have letters : (name.toList ++ (rest ++ [';'])).takeWhile Char.isAlpha = name.toList :=
    stops.takeWhile_append isName.letters
  rw [ofLine_of_word "float".toList (' ' :: (name.toList ++ rest)) split
    (List.all_eq_true.mp (by decide)) (stops_cons.mpr rfl)]
  simp [ofWord, letters]

end Role

/-! ## Roles of statements -/

namespace Grammar

def Simple.roles : Simple → List Role
  | .label name => [.places name]
  | .goto name => [.jumps name]
  | .input _ => [.opens, .other, .other, .closes]
  | .random name => [.other, .declares name]
  | .printText _ | .printValue _ | .assign _ _ => [.other]

mutual

def Statement.roles : Statement → List Role
  | .simple statement => statement.roles
  | .block _ _ body => .opens :: rolesOf body ++ [.closes]

def rolesOf : List Statement → List Role
  | [] => []
  | statement :: rest => statement.roles ++ rolesOf rest

end

def Program.roles (program : Program) : List Role :=
  [Role.other, Role.other, Role.other, Role.opens] ++
    (targetsOf program.statements).eraseDups.map Role.declares ++
    rolesOf program.statements ++ [Role.other, Role.closes, Role.other]

open Role in
theorem Simple.map_ofLine_cLines {statement : Simple} (spelled : (Line.simple statement).Spelled)
    (unreserved : ∀ name, .introduced name ∈ statement.occurrences → name ∉ reservedNames) :
    statement.cLines.map ofLine = statement.roles := by
  cases statement with
  | printText body =>
    simp only [Simple.cLines, List.map_cons, List.map_nil]
    rw [ofLine_of_word "printf".toList ('(' :: '"' :: (body.toList ++ ['\\', 'n', '"', ')']))
      (by simp) (List.all_eq_true.mp (by decide)) (stops_cons.mpr rfl)]
    rfl
  | printValue value =>
    simp only [Simple.cLines, List.map_cons, List.map_nil]
    rw [ofLine_of_word "printf".toList
      ("(\"%.2f\\n\", (float)(".toList ++ ((Expression.cText value).toList ++ "))".toList))
      (by simp) (List.all_eq_true.mp (by decide)) (stops_cons.mpr rfl)]
    rfl
  | label name => exact congrArg (fun role => [role]) (ofLine_label name)
  | goto name => exact congrArg (fun role => [role]) (ofLine_jump name)
  | assign name value =>
    have isName : Name name := spelled (.name name) (by simp [Line.tokens, Simple.tokens])
    simp only [Simple.cLines, List.map_cons, List.map_nil]
    rw [ofLine_of_name (' ' :: '=' :: ' ' :: (Expression.cText value).toList) isName
      (unreserved name (.head _)) (by simp) (stops_cons.mpr rfl)]
    rfl
  | input name =>
    have isName : Name name := spelled (.name name) (by simp [Line.tokens, Simple.tokens])
    have skips : ofLine "scanf(\"%*s\");" = .other := by decide
    have closes : ofLine "\x7d" = .closes := by decide
    simp only [Simple.cLines, List.map_cons, List.map_nil, skips, closes]
    rw [ofLine_of_opens ("if(0 == scanf(\"%f\", &".toList ++ (name.toList ++ ")) ".toList)) (by simp),
      ofLine_of_name [' ', '=', ' ', '0'] isName (unreserved name (.head _)) (by simp)
        (stops_cons.mpr rfl)]
    rfl
  | random name =>
    have isName : Name name := spelled (.name name) (by simp [Line.tokens, Simple.tokens])
    have seeds : ofLine "srand(time(0));" = .other := by decide
    simp only [Simple.cLines, List.map_cons, List.map_nil, seeds]
    rw [ofLine_of_float " = rand() % 100 + 1".toList isName (by simp) (stops_cons.mpr rfl)]
    rfl

private theorem ofLine_cOpening (block : Block) (condition : Condition) :
    Role.ofLine (cOpening block condition) = .opens := by
  cases block with
  | conditional =>
    exact Role.ofLine_of_opens ("if(".toList ++ condition.cText.toList ++ [')']) (by simp [cOpening])
  | loop =>
    exact Role.ofLine_of_opens ("while(".toList ++ condition.cText.toList ++ [')']) (by simp [cOpening])

private theorem map_ofLine_cLinesOf : ∀ {statements : List Statement},
    (∀ line ∈ linesOf statements, line.Spelled) →
    (∀ name, .introduced name ∈ occurrencesOf statements → name ∉ reservedNames) →
    (cLinesOf statements).map Role.ofLine = rolesOf statements
  | [], _, _ => rfl
  | .simple statement :: rest, spelled, unreserved => by
    have here := Simple.map_ofLine_cLines (spelled (.simple statement) (.head _))
      fun name member => unreserved name (List.mem_append_left _ member)
    have later := map_ofLine_cLinesOf (fun line member => spelled line (.tail _ member))
      fun name member => unreserved name (List.mem_append_right _ member)
    rw [cLinesOf, List.map_append, later]
    exact congrArg (· ++ rolesOf rest) here
  | .block block condition body :: rest, spelled, unreserved => by
    have inside : (cLinesOf body).map Role.ofLine = rolesOf body :=
      map_ofLine_cLinesOf (fun line member => spelled line (by simp [linesOf, Statement.lines, member]))
        fun name member => unreserved name (by simp [occurrencesOf, Statement.occurrences, member])
    have later : (cLinesOf rest).map Role.ofLine = rolesOf rest :=
      map_ofLine_cLinesOf (fun line member => spelled line (by simp [linesOf, member]))
        fun name member => unreserved name (by simp [occurrencesOf, member])
    have closes : Role.ofLine "\x7d" = .closes := by decide
    simp [cLinesOf, Statement.cLines, rolesOf, Statement.roles, inside, later, ofLine_cOpening, closes]

theorem Program.map_ofLine_cLines {program : Program} (spelled : program.Spelled)
    (unreserved : ∀ name, .introduced name ∈ program.occurrences → name ∉ reservedNames) :
    (program.cLines ++ [""]).map Role.ofLine = program.roles := by
  have front : ["#include <stdio.h>", "#include <stdlib.h>", "#include <time.h>",
      "int main(void)\x7b"].map Role.ofLine = [.other, .other, .other, .opens] := by
    decide
  have back : (["return 0;", "\x7d"] ++ [""]).map Role.ofLine = [.other, .closes, .other] := by decide
  have declared : ((targetsOf program.statements).eraseDups.map fun name => "float " ++ name ++ ";").map
      Role.ofLine = (targetsOf program.statements).eraseDups.map .declares := by
    rw [List.map_map]
    apply List.map_congr_left
    intro name member
    exact Role.ofLine_of_float [] (spelled.name member) (by simp) (stops_cons.mpr rfl)
  rw [Program.cLines, Program.cHeader, List.append_assoc, List.map_append, List.map_append,
    List.map_append, front, declared, map_ofLine_cLinesOf spelled unreserved, back]
  rfl

end Grammar

private theorem valid_of_compile {source text : String} {tokens : List Located}
    {program : Grammar.Program}
    (compiled : compile source = .ok text) (tokenized : tokenize source = .ok tokens)
    (derives : program.Derives (tokens.map (·.token))) : program.Valid := by
  obtain ⟨after, completed, -⟩ := compile_eq_ok.mp compiled
  obtain ⟨others, sameTokenized, tree, treeDerives, performed, resolved⟩ :=
    run_completed_iff.mp ⟨after, completed, rfl⟩
  cases tokenized.symm.trans sameTokenized
  obtain rfl := derives.unique treeDerives
  exact (program.valid_iff_exists_performAll _).mpr ⟨_, performed, resolved⟩

/-- The lines of a compiled text have the roles of the statements of its program. -/
theorem roles_of_compile {source text : String} (compiled : compile source = .ok text) :
    ∃ tokens, tokenize source = .ok tokens ∧ ∃ program : Grammar.Program,
      program.Derives (tokens.map (·.token)) ∧ program.Valid ∧
      linesIn text = program.cLines ++ [""] ∧ (linesIn text).map Role.ofLine = program.roles := by
  obtain ⟨tokens, tokenized, program, derives, spelled, rfl⟩ := exists_program_of_compile compiled
  have valid := valid_of_compile compiled tokenized derives
  have lines := linesIn_linesText spelled.oneLine
  refine ⟨tokens, tokenized, program, derives, valid, lines, ?_⟩
  rw [Program.cText, lines]
  exact Program.map_ofLine_cLines spelled valid.unreserved

end TeenyBasic
