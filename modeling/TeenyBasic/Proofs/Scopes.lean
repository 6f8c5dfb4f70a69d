import TeenyBasic.Proofs.LineRoles

/-!
Scopes of the C text. Two things declare a name: a target of `LET` or `INPUT` gets one declaration at
the start of `main`, and each `RND` declares its name where it stands. The scopes of a compiled text are
therefore those of its tree (`scopesFrom_rolesOf`), and a name is declared twice in one of them just when
it is drawn twice in one block, or drawn outside of all blocks and a target as well.
-/

set_option autoImplicit false

namespace TeenyBasic

open Grammar

/-- The names declared in each scope, in the order in which the scopes end; those that are open come
first among the arguments, the innermost at the front. -/
def scopesFrom : List (List String) → List Role → List (List String)
  | opened, [] => opened
  | opened, .opens :: roles => scopesFrom ([] :: opened) roles
  | scope :: outer, .closes :: roles => scope :: scopesFrom outer roles
  | scope :: outer, .declares name :: roles => scopesFrom ((scope ++ [name]) :: outer) roles
  | opened, _ :: roles => scopesFrom opened roles

/-- The names declared in each scope of a C text. -/
def scopesIn (text : String) : List (List String) :=
  scopesFrom [[]] ((linesIn text).map Role.ofLine)

namespace Grammar

def Statement.drawn? : Statement → Option String
  | .simple (.random name) => some name
  | _ => none

/-- The names that are drawn by the statements themselves and not in blocks among them. -/
def drawnIn (statements : List Statement) : List String :=
  statements.filterMap Statement.drawn?

mutual

/-- The bodies of the blocks in a statement, inner ones first. -/
def Statement.bodies : Statement → List (List Statement)
  | .simple _ => []
  | .block _ _ body => bodiesOf body ++ [body]

def bodiesOf : List Statement → List (List Statement)
  | [] => []
  | statement :: rest => statement.bodies ++ bodiesOf rest

end

/-- No block draws a name twice, and what is drawn outside of blocks is no target. -/
structure Program.DrawsApart (program : Program) : Prop where
  once : (drawnIn program.statements).Nodup
  noTarget : ∀ name ∈ drawnIn program.statements, name ∉ targetsOf program.statements
  onceInBlocks : ∀ body ∈ bodiesOf program.statements, (drawnIn body).Nodup

mutual

/-- The scopes that are opened and closed in a statement. -/
def Statement.scopes : Statement → List (List String)
  | .simple (.input _) => [[]]
  | .simple _ => []
  | .block _ _ body => scopesOf body ++ [drawnIn body]

def scopesOf : List Statement → List (List String)
  | [] => []
  | statement :: rest => statement.scopes ++ scopesOf rest

end

/-! ## Scopes of statements -/

private theorem scopesFrom_simple (statement : Simple) (scope : List String)
    (outer : List (List String)) (roles : List Role) :
    scopesFrom (scope :: outer) (statement.roles ++ roles) =
      (Statement.simple statement).scopes ++
        scopesFrom ((scope ++ (Statement.simple statement).drawn?.toList) :: outer) roles := by
  cases statement <;>
    simp [Simple.roles, Statement.scopes, Statement.drawn?, scopesFrom]

private theorem drawnIn_cons (statement : Statement) (rest : List Statement) :
    drawnIn (statement :: rest) = statement.drawn?.toList ++ drawnIn rest := by
  cases drawn : statement.drawn? <;> simp [drawnIn, drawn]

theorem scopesFrom_rolesOf : ∀ (statements : List Statement) (scope : List String)
    (outer : List (List String)) (roles : List Role),
    scopesFrom (scope :: outer) (rolesOf statements ++ roles) =
      scopesOf statements ++ scopesFrom ((scope ++ drawnIn statements) :: outer) roles
  | [], scope, outer, roles => by
    simp [rolesOf, scopesOf, drawnIn]
  | .simple statement :: rest, scope, outer, roles => by
    rw [rolesOf, List.append_assoc, Statement.roles, scopesFrom_simple, scopesFrom_rolesOf rest,
      scopesOf, drawnIn_cons, List.append_assoc, List.append_assoc]
  | .block block condition body :: rest, scope, outer, roles => by
    calc scopesFrom (scope :: outer) (rolesOf (.block block condition body :: rest) ++ roles)
        = scopesFrom ([] :: scope :: outer) (rolesOf body ++ .closes :: (rolesOf rest ++ roles)) := by
          simp [rolesOf, Statement.roles, scopesFrom]
      _ = scopesOf body ++ drawnIn body :: scopesFrom (scope :: outer) (rolesOf rest ++ roles) := by
          rw [scopesFrom_rolesOf body, List.nil_append]
          rfl
      _ = scopesOf (.block block condition body :: rest) ++
            scopesFrom ((scope ++ drawnIn (.block block condition body :: rest)) :: outer) roles := by
          rw [scopesFrom_rolesOf rest]
          simp [scopesOf, Statement.scopes, drawnIn_cons, Statement.drawn?]

private theorem scopesFrom_declares (names scope : List String) (outer : List (List String))
    (roles : List Role) :
    scopesFrom (scope :: outer) (names.map .declares ++ roles) =
      scopesFrom ((scope ++ names) :: outer) roles := by
  induction names generalizing scope with
  | nil => simp
  | cons name names ih => simp [scopesFrom, ih]

private theorem nodup_scopesOf_iff : ∀ statements : List Statement,
    (∀ scope ∈ scopesOf statements, scope.Nodup) ↔
      ∀ body ∈ bodiesOf statements, (drawnIn body).Nodup
  | [] => by
    simp [scopesOf, bodiesOf]
  | .simple statement :: rest => by
    have nothing : ∀ scope ∈ (Statement.simple statement).scopes, scope.Nodup := by
      cases statement <;> simp [Statement.scopes]
    simp only [scopesOf, bodiesOf, List.forall_mem_append, Statement.bodies, List.nil_append,
      nodup_scopesOf_iff rest]
    exact ⟨And.right, fun later => ⟨nothing, later⟩⟩
  | .block block condition body :: rest => by
    simp only [scopesOf, bodiesOf, List.forall_mem_append, Statement.bodies, Statement.scopes,
      List.forall_mem_singleton, nodup_scopesOf_iff body, nodup_scopesOf_iff rest]

/-! ## Scopes of programs -/

private theorem Program.scopesFrom_roles (program : Program) :
    scopesFrom [[]] program.roles =
      scopesOf program.statements ++
        [(targetsOf program.statements).eraseDups ++ drawnIn program.statements, []] := by
  rw [Program.roles, List.append_assoc, List.append_assoc]
  change scopesFrom [[], []] (_ ++ _) = _
  rw [List.nil_append, scopesFrom_declares, scopesFrom_rolesOf]
  rfl

private theorem nodup_eraseDups : ∀ names : List String, names.eraseDups.Nodup
  | [] => List.nodup_nil
  | name :: names => by
    rw [List.eraseDups_cons, List.nodup_cons]
    refine ⟨?_, nodup_eraseDups _⟩
    simp [List.mem_eraseDups]
termination_by names => names.length
decreasing_by
  exact Nat.lt_succ_of_le (List.length_filter_le _ _)

private theorem Program.nodup_scopes_iff (program : Program) :
    (∀ scope ∈ scopesFrom [[]] program.roles, scope.Nodup) ↔ program.DrawsApart := by
  have main : ((targetsOf program.statements).eraseDups ++ drawnIn program.statements).Nodup ↔
      (drawnIn program.statements).Nodup ∧
        ∀ name ∈ drawnIn program.statements, name ∉ targetsOf program.statements := by
    rw [List.nodup_append]
    constructor
    · intro distinct
      obtain ⟨_, once, apart⟩ := distinct
      exact ⟨once, fun name drawn target => apart name (List.mem_eraseDups.mpr target) name drawn rfl⟩
    · intro distinct
      obtain ⟨once, noTarget⟩ := distinct
      refine ⟨nodup_eraseDups _, once, fun target member name drawn same => ?_⟩
      exact noTarget name drawn (same ▸ List.mem_eraseDups.mp member)
  rw [program.scopesFrom_roles]
  simp only [List.forall_mem_append, List.forall_mem_cons, nodup_scopesOf_iff, main]
  constructor
  · intro distinct
    obtain ⟨onceInBlocks, ⟨once, noTarget⟩, _⟩ := distinct
    exact ⟨once, noTarget, onceInBlocks⟩
  · intro drawsApart
    obtain ⟨once, noTarget, onceInBlocks⟩ := drawsApart
    exact ⟨onceInBlocks, ⟨once, noTarget⟩, List.nodup_nil, by simp⟩

end Grammar

/-- No scope of a compiled text declares a name twice just when its program draws its names apart. -/
theorem scopes_nodup_iff_drawsApart {source text : String} (compiled : compile source = .ok text) :
    ∃ tokens, tokenize source = .ok tokens ∧ ∃ program : Grammar.Program,
      program.Derives (tokens.map (·.token)) ∧
      ((∀ scope ∈ scopesIn text, scope.Nodup) ↔ program.DrawsApart) := by
  obtain ⟨tokens, tokenized, program, derives, -, -, roles⟩ := roles_of_compile compiled
  refine ⟨tokens, tokenized, program, derives, ?_⟩
  rw [scopesIn, roles]
  exact program.nodup_scopes_iff

/-- A block may declare a name anew that has a declaration outside. -/
theorem scopes_nodup_of_inner_draw :
    ∃ text, compile "INPUT a\nIF a < 1 THEN\nRND a\nENDIF\n" = .ok text ∧
      (∀ scope ∈ scopesIn text, scope.Nodup) ∧
      ∃ tokens, tokenize "INPUT a\nIF a < 1 THEN\nRND a\nENDIF\n" = .ok tokens ∧
        ∃ program : Grammar.Program, program.Derives (tokens.map (·.token)) ∧ program.DrawsApart := by
  have compiled : compile "INPUT a\nIF a < 1 THEN\nRND a\nENDIF\n" =
      .ok (linesText ["#include <stdio.h>", "#include <stdlib.h>", "#include <time.h>",
        "int main(void)\x7b", "float a;", "if(0 == scanf(\"%f\", &a)) \x7b", "a = 0;",
        "scanf(\"%*s\");", "\x7d", "if(a<1)\x7b", "srand(time(0));", "float a = rand() % 100 + 1;",
        "\x7d", "return 0;", "\x7d"]) := by
    decide +kernel
  obtain ⟨tokens, tokenized, program, derives, apart⟩ := scopes_nodup_iff_drawsApart compiled
  refine ⟨_, compiled, ?distinct, tokens, tokenized, program, derives, apart.mp ?distinct⟩
  rw [scopesIn, linesIn_linesText (by decide +kernel)]
  decide +kernel

/-- A name drawn twice is declared twice in one scope. -/
theorem redeclared_of_repeated_draw :
    ∃ text, compile "RND x\nRND x\n" = .ok text ∧ ∃ scope ∈ scopesIn text, ¬ scope.Nodup := by
  refine ⟨linesText ["#include <stdio.h>", "#include <stdlib.h>", "#include <time.h>",
    "int main(void)\x7b", "srand(time(0));", "float x = rand() % 100 + 1;", "srand(time(0));",
    "float x = rand() % 100 + 1;", "return 0;", "\x7d"], ?_, ["x", "x"], ?_, ?_⟩
  · decide +kernel
  · rw [scopesIn, linesIn_linesText (by decide +kernel)]
    decide +kernel
  · decide

end TeenyBasic
