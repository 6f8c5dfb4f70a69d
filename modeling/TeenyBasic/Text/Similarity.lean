/-!
How similar two words are. Characters are paired if they are equal and stand at about the same place;
the more pairs there are, and the fewer of them are out of order, the more similar the words.
-/

set_option autoImplicit false

namespace TeenyBasic.Text

/-- The places of a word, each with its character and whether it is already paired. -/
abbrev Places := List (Char × Bool)

/-- Pairs a character with the first free place from `low` on and before `high` that holds it;
`index` is the number of the first place given. -/
def pairUp? (c : Char) (low high index : Nat) : Places → Option Places
  | [] => none
  | (held, paired) :: rest =>
    if high ≤ index then none
    else if low ≤ index && held == c && !paired then some ((held, true) :: rest)
    else (pairUp? c low high (index + 1) rest).map ((held, paired) :: ·)

def reachOf (first second : List Char) : Nat :=
  max first.length second.length / 2 - 1

/-- The characters of the first word that are paired, in order, and the places of the second. -/
def pairs (first second : List Char) : List Char × Places :=
  let reach := reachOf first second
  first.zipIdx.foldl
    (fun (found, places) (c, index) =>
      match pairUp? c (index - reach) (index + reach + 1) 0 places with
      | some places => (found ++ [c], places)
      | none => (found, places))
    ([], second.map fun c => (c, false))

/-- Between no similarity, which is zero, and equality, which is one: the average of the shares of
paired characters in both words and the share of pairs that are in order. -/
def similarity (first second : List Char) : Float :=
  let (found, places) := pairs first second
  let partners := (places.filter Prod.snd).map Prod.fst
  let crossed := ((found.zip partners).filter fun pair => pair.1 != pair.2).length / 2
  let count := found.length
  if first.isEmpty && second.isEmpty then 1.0
  else if count = 0 then 0.0
  else
    (count.toFloat / first.length.toFloat + count.toFloat / second.length.toFloat +
      (count - crossed).toFloat / count.toFloat) / 3.0

def similarityLimit : Float := 0.7

/-- The one of several things whose name is most similar to a word, if it is similar enough. Of
equally similar ones the last is taken. -/
def mostSimilar? {α : Type} (nameOf : α → String) (word : String) (candidates : List α) :
    Option α :=
  (candidates.foldl
    (fun (best : Option (α × Float)) candidate =>
      let score := similarity word.toList (nameOf candidate).toList
      match best with
      | some (_, known) =>
        if score > similarityLimit && score ≥ known then some (candidate, score) else best
      | none => if score > similarityLimit then some (candidate, score) else none)
    none).map Prod.fst

end TeenyBasic.Text
