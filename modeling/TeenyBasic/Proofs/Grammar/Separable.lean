import TeenyBasic.Proofs.Grammar.Tree

/-!
Words that can be told from what follows them. `Separable` says that a word and the rest after it
are determined by their concatenation, provided the rest does not go on with something the word
could swallow. The property passes from items to chains of items (`Separable.chain`).
-/

set_option autoImplicit false

namespace TeenyBasic.Grammar

variable {α τ : Type}

/-- The rest does not start with anything that passes the test. -/
def Stops (goesOn : τ → Bool) (rest : List τ) : Prop :=
  ∀ token ∈ rest.head?, goesOn token = false

theorem stops_nil (goesOn : τ → Bool) : Stops goesOn [] := by
  simp [Stops]

theorem stops_cons {goesOn : τ → Bool} {token : τ} {rest : List τ} :
    Stops goesOn (token :: rest) ↔ goesOn token = false := by
  simp [Stops]

theorem Stops.mono {goesOn weaker : τ → Bool} {rest : List τ} (stops : Stops goesOn rest)
    (implies : ∀ token, weaker token = true → goesOn token = true) : Stops weaker rest := by
  intro token first
  cases result : weaker token with
  | false => rfl
  | true =>
    have stopped := stops token first
    rw [implies token result] at stopped
    cases stopped

section Prefix

variable {goesOn : τ → Bool} {body rest : List τ} (stops : Stops goesOn rest)
  (inside : ∀ token ∈ body, goesOn token = true)

include stops inside

theorem Stops.takeWhile_append : (body ++ rest).takeWhile goesOn = body := by
  rw [List.takeWhile_append_of_pos inside]
  cases rest with
  | nil => simp
  | cons token rest => simp [stops_cons.mp stops]

theorem Stops.dropWhile_append : (body ++ rest).dropWhile goesOn = rest := by
  rw [List.dropWhile_append_of_pos inside]
  cases rest with
  | nil => rfl
  | cons token rest => simp [stops_cons.mp stops]

theorem Stops.append_inj {other others : List τ} (otherStops : Stops goesOn others)
    (otherInside : ∀ token ∈ other, goesOn token = true) (same : body ++ rest = other ++ others) :
    body = other ∧ rest = others := by
  constructor
  · rw [← stops.takeWhile_append inside, same, otherStops.takeWhile_append otherInside]
  · rw [← stops.dropWhile_append inside, same, otherStops.dropWhile_append otherInside]

end Prefix

/-- A word and the rest after it are determined by their concatenation. -/
def Separable (word : α → List τ) (goesOn : τ → Bool) : Prop :=
  ∀ first second restFirst restSecond,
    word first ++ restFirst = word second ++ restSecond →
    Stops goesOn restFirst → Stops goesOn restSecond → first = second ∧ restFirst = restSecond

namespace Separable

variable {op item : Type} {word : item → List τ} {goesOn : τ → Bool}

theorem injective {first second : item} (separable : Separable word goesOn)
    (same : word first = word second) : first = second :=
  (separable first second [] [] (by rw [same]) (stops_nil _) (stops_nil _)).1

/-- The part of a chain after its first item, and what follows the chain, start with an operator or
with something that stops the item before. -/
theorem stops_rest {mark : op → τ} {isMark : τ → Bool}
    (marks : ∀ op, goesOn (mark op) = false) (rounds : List (op × item))
    {rest : List τ} (stops : Stops (fun token => goesOn token || isMark token) rest) :
    Stops goesOn ((rounds.flatMap fun (op, item) => mark op :: word item) ++ rest) := by
  cases rounds with
  | nil => exact stops.mono fun token => by simp +contextual
  | cons round rounds => exact stops_cons.mpr (marks round.1)

theorem rounds {mark : op → τ} {isMark : τ → Bool} (separable : Separable word goesOn)
    (injective : ∀ op other, mark op = mark other → op = other)
    (marks : ∀ op, goesOn (mark op) = false) (marked : ∀ op, isMark (mark op) = true)
    (first second : List (op × item)) {restFirst restSecond : List τ}
    (same : (first.flatMap fun (op, item) => mark op :: word item) ++ restFirst =
      (second.flatMap fun (op, item) => mark op :: word item) ++ restSecond)
    (stopsFirst : Stops (fun token => goesOn token || isMark token) restFirst)
    (stopsSecond : Stops (fun token => goesOn token || isMark token) restSecond) :
    first = second ∧ restFirst = restSecond := by
  induction first generalizing second with
  | nil =>
    cases second with
    | nil => exact ⟨rfl, same⟩
    | cons round rounds =>
      have started : restFirst = mark round.1 :: (word round.2 ++
          ((rounds.flatMap fun (op, item) => mark op :: word item) ++ restSecond)) := by
        simpa using same
      rw [started, stops_cons, marked] at stopsFirst
      simp at stopsFirst
  | cons round others ih =>
    cases second with
    | nil =>
      have started : restSecond = mark round.1 :: (word round.2 ++
          ((others.flatMap fun (op, item) => mark op :: word item) ++ restFirst)) := by
        simpa using same.symm
      rw [started, stops_cons, marked] at stopsSecond
      simp at stopsSecond
    | cons counterpart counterparts =>
      obtain ⟨op, item⟩ := round
      obtain ⟨otherOp, otherItem⟩ := counterpart
      simp only [List.flatMap_cons, List.cons_append, List.cons.injEq, List.append_assoc] at same
      obtain ⟨sameMark, sameRest⟩ := same
      obtain ⟨rfl, sameOthers⟩ := separable item otherItem _ _ sameRest
        (stops_rest marks others stopsFirst) (stops_rest marks counterparts stopsSecond)
      obtain ⟨rfl, sameEnd⟩ := ih counterparts sameOthers
      exact ⟨by rw [injective op otherOp sameMark], sameEnd⟩

/-- A chain is separable where its items are and no operator could continue an item. -/
theorem chain (separable : Separable word goesOn) (mark : op → τ) (isMark : τ → Bool)
    (injective : ∀ op other, mark op = mark other → op = other)
    (marks : ∀ op, goesOn (mark op) = false) (marked : ∀ op, isMark (mark op) = true) :
    Separable (Chain.spell mark word) (fun token => goesOn token || isMark token) := by
  intro first second restFirst restSecond same stopsFirst stopsSecond
  obtain ⟨firstItem, firstRounds⟩ := first
  obtain ⟨secondItem, secondRounds⟩ := second
  simp only [Chain.spell, List.append_assoc] at same
  obtain ⟨rfl, sameRounds⟩ := separable firstItem secondItem _ _ same
    (stops_rest marks firstRounds stopsFirst) (stops_rest marks secondRounds stopsSecond)
  obtain ⟨rfl, sameRest⟩ := separable.rounds injective marks marked firstRounds secondRounds
    sameRounds stopsFirst stopsSecond
  exact ⟨rfl, sameRest⟩

end Separable

end TeenyBasic.Grammar
