import TeenyBasic.Command.Build
import TeenyBasic.Proofs.LongestLexeme

/-!
The parts of a path. A path that names a file is a directory part, which is empty or ends in a slash, the
name, and a trail of slashes and single dots that leads nowhere (`Path.Named`). Its steps are those of the
directory part and one more for the name (`Path.LastStep.components_eq`).

Giving a path another extension first drops bytes from the end of the text, where the trail stands, and
only then looks at the name. Whatever is dropped, a name with the same stem is left, and the stem is what
counts (`Path.Named.withExtension_eq`). Only the stem `.` can be left without a name, as `..` is none.
-/

set_option autoImplicit false

namespace TeenyBasic

namespace Text

theorem byteLength_reverse (text : List Char) : byteLength text.reverse = byteLength text := by
  induction text with
  | nil => rfl
  | cons c text ih =>
    rw [List.reverse_cons, byteLength_append, ih, byteLength_cons, byteLength_cons, byteLength_nil]
    omega

private theorem splitAtByte_append_of_le {front : List Char} (back : List Char) {offset : Nat}
    (inside : offset ≤ byteLength front) :
    splitAtByte (front ++ back) offset =
      ((splitAtByte front offset).1, (splitAtByte front offset).2 ++ back) := by
  induction front generalizing offset with
  | nil =>
    obtain rfl : offset = 0 := by simpa using inside
    exact splitAtByte_byteLength [] back
  | cons c front ih =>
    rw [byteLength_cons] at inside
    by_cases fits : c.utf8Size ≤ offset
    · simp [splitAtByte, fits, ih (show offset - c.utf8Size ≤ byteLength front by omega)]
    · simp [splitAtByte, fits]

private theorem dropLastBytes_append (front : List Char) {back : List Char} {count : Nat}
    (inside : count ≤ byteLength back) :
    dropLastBytes (front ++ back) count = front ++ dropLastBytes back count := by
  rw [dropLastBytes, List.reverse_append, splitAtByte_append_of_le _ (by rwa [byteLength_reverse]),
    List.reverse_append, List.reverse_reverse, dropLastBytes]

private theorem dropLastBytes_isPrefix (text : List Char) (count : Nat) :
    dropLastBytes text count <+: text := by
  refine ⟨(splitAtByte text.reverse count).1.reverse, ?_⟩
  rw [dropLastBytes, ← List.reverse_append, splitAtByte_append, List.reverse_reverse]

private theorem dropLastBytes_eq_nil_iff {text : List Char} {count : Nat} :
    dropLastBytes text count = [] ↔ byteLength text ≤ count := by
  rw [dropLastBytes, List.reverse_eq_nil_iff, ← byteLength_reverse text]
  constructor
  · intro nothing
    have whole := splitAtByte_append text.reverse count
    rw [nothing, List.append_nil] at whole
    have floor := floorBoundary_le text.reverse count
    rwa [floorBoundary, whole] at floor
  · intro beyond
    rw [splitAtByte_of_le beyond]

end Text

namespace Path

/-! ## Trails -/

/-- Slashes, and single dots behind slashes, at the end of a text. -/
inductive Trail : List Char → Prop where
  | nil : Trail []
  | slash {front : List Char} : Trail front → Trail (front ++ ['/'])
  | dot {front : List Char} : Trail front → Trail (front ++ ['/'] ++ ['.'])

/-- The text, given backwards, does not end in a trail. -/
def Solid (text : List Char) : Prop :=
  (∀ rest, text ≠ '/' :: rest) ∧ ∀ rest, text ≠ '.' :: '/' :: rest

private theorem dropTrail_of_solid {text : List Char} (solid : Solid text) : dropTrail text = text :=
  dropTrail.eq_3 text (fun rest same => solid.1 rest same) fun rest same => solid.2 rest same

private theorem dropTrail_append {trail text : List Char} (isTrail : Trail trail) (solid : Solid text) :
    dropTrail (trail.reverse ++ text) = text := by
  induction isTrail with
  | nil => exact dropTrail_of_solid solid
  | slash _ ih => simpa [dropTrail.eq_1] using ih
  | dot _ ih => simpa [dropTrail.eq_1, dropTrail.eq_2] using ih

private theorem exists_trail (text : List Char) :
    ∃ trail, Trail trail ∧ text = trail.reverse ++ dropTrail text ∧ Solid (dropTrail text) := by
  fun_induction dropTrail text with
  | case1 rest ih =>
    obtain ⟨trail, isTrail, split, solid⟩ := ih
    exact ⟨trail ++ ['/'], .slash isTrail, by simpa using split, solid⟩
  | case2 rest ih =>
    obtain ⟨trail, isTrail, split, solid⟩ := ih
    cases isTrail with
    | nil => exact absurd split.symm (solid.1 rest)
    | slash isTrail => exact ⟨_, .dot isTrail, by simpa using split, solid⟩
    | dot => simp at split
  | case3 text noSlash noDot =>
    exact ⟨[], .nil, rfl, fun rest same => noSlash rest same, fun rest same => noDot rest same⟩

namespace Trail

variable {trail : List Char} (isTrail : Trail trail)

include isTrail

private theorem of_isPrefix {front : List Char} (leads : front <+: trail) : Trail front := by
  induction isTrail with
  | nil =>
    rw [List.prefix_nil.mp leads]
    exact .nil
  | slash isTrail ih =>
    rcases List.prefix_concat_iff.mp leads with rfl | leads
    · exact .slash isTrail
    · exact ih leads
  | dot isTrail ih =>
    rcases List.prefix_concat_iff.mp leads with rfl | leads
    · exact .dot isTrail
    · rcases List.prefix_concat_iff.mp leads with rfl | leads
      · exact .slash isTrail
      · exact ih leads

/-- A trail adds segments to a text, and none of them is a step. -/
theorem exists_segments (text : List Char) :
    ∃ idle, segments (text ++ trail) = segments text ++ idle ∧ idle.filterMap component? = [] := by
  induction isTrail with
  | nil => exact ⟨[], by simp, rfl⟩
  | @slash front _ ih =>
    obtain ⟨idle, split, nothing⟩ := ih
    refine ⟨idle ++ [[]], ?_, by rw [List.filterMap_append, nothing]; rfl⟩
    rw [← List.append_assoc, segments, Text.pieces_append, ← segments, split, List.append_assoc]
    rfl
  | @dot front _ ih =>
    obtain ⟨idle, split, nothing⟩ := ih
    refine ⟨idle ++ [['.']], ?_, by rw [List.filterMap_append, nothing]; rfl⟩
    rw [List.append_assoc front, ← List.append_assoc text, segments, List.cons_append,
      Text.pieces_append, ← segments, split, List.append_assoc]
    rfl

end Trail

/-! ## The file name -/

/-- The text consists of a directory part, a segment that is a step, and a trail. -/
structure LastStep (text before segment trail : List Char) : Prop where
  split : text = before ++ (segment ++ trail)
  parted : ∀ c ∈ before.getLast?, c = '/'
  whole : '/' ∉ segment
  isStep : segment ≠ [] ∧ segment ≠ ['.']
  isTrail : Trail trail

/-- The last step of the text is a file name. -/
structure Named (text before name trail : List Char) : Prop extends LastStep text before name trail where
  notUp : name ≠ ['.', '.']

namespace LastStep

variable {text before segment trail : List Char} (last : LastStep text before segment trail)

include last

private theorem solid : Solid (segment.reverse ++ before.reverse) := by
  cases backwards : segment.reverse with
  | nil => exact absurd (List.reverse_eq_nil_iff.mp backwards) last.isStep.1
  | cons c more =>
    have inside : ∀ d ∈ c :: more, d ≠ '/' := by
      intro d member same
      rw [← backwards, List.mem_reverse] at member
      exact last.whole (same ▸ member)
    constructor
    · intro rest same
      exact inside c (.head _) (List.cons.inj same).1
    · intro rest same
      obtain ⟨rfl, behind⟩ := List.cons.inj same
      cases more with
      | nil => exact last.isStep.2 (List.reverse_eq_cons_iff.mp backwards)
      | cons d more => exact inside d (.tail _ (.head _)) (List.cons.inj behind).1

theorem splitName?_eq :
    splitName? text = if segment = ['.', '.'] then none else some (before, segment) := by
  have goesOn : ∀ c ∈ segment.reverse, (c != '/') = true :=
    Text.bne_of_notMem (by simpa using last.whole)
  have stops : Grammar.Stops (· != '/') before.reverse := by
    intro c first
    rw [List.head?_reverse] at first
    simp [last.parted c first]
  have backwards : dropTrail text.reverse = segment.reverse ++ before.reverse := by
    rw [last.split, List.reverse_append, List.reverse_append, List.append_assoc,
      dropTrail_append last.isTrail last.solid]
  rw [splitName?, backwards]
  simp only [stops.takeWhile_append goesOn, stops.dropWhile_append goesOn, List.reverse_reverse]
  simp [last.isStep.1, last.isStep.2]

end LastStep

theorem Named.splitName?_eq {text before name trail : List Char} (named : Named text before name trail) :
    splitName? text = some (before, name) := by
  rw [named.toLastStep.splitName?_eq, if_neg named.notUp]

theorem splitName?_eq_some_iff {text before name : List Char} :
    splitName? text = some (before, name) ↔ ∃ trail, Named text before name trail := by
  constructor
  · intro found
    obtain ⟨trail, isTrail, split, -⟩ := exists_trail text.reverse
    simp only [splitName?] at found
    split at found
    · cases found
    rename_i isName
    obtain ⟨rfl, rfl⟩ := Prod.mk.inj (Option.some.inj found)
    simp only [List.isEmpty_iff, not_or] at isName
    refine ⟨trail, ⟨?_, ?_, ?_, ⟨isName.1, isName.2.1⟩, isTrail⟩, isName.2.2⟩
    · rw [← List.append_assoc, ← List.reverse_append, List.takeWhile_append_dropWhile,
        ← List.reverse_reverse trail, ← List.reverse_append, ← split, List.reverse_reverse]
    · intro c last
      rw [List.getLast?_reverse] at last
      have stopped := List.head?_dropWhile_not (· != '/') (dropTrail text.reverse)
      rw [last] at stopped
      simpa using stopped
    · intro slash
      simpa using isTrue_of_mem_takeWhile (List.mem_reverse.mp slash)
  · intro found
    obtain ⟨trail, named⟩ := found
    exact named.splitName?_eq

/-! ## Stem and extension -/

theorem splitExtension_append {stem extension : List Char} (nonempty : stem ≠ [])
    (plain : '.' ∉ extension) :
    splitExtension (stem ++ '.' :: extension) = (stem, some extension) := by
  have goesOn : ∀ c ∈ extension.reverse, (c != '.') = true :=
    Text.bne_of_notMem (by simpa using plain)
  have stops : Grammar.Stops (· != '.') ('.' :: stem.reverse) := Grammar.stops_cons.mpr rfl
  have backwards : (stem ++ '.' :: extension).reverse = extension.reverse ++ '.' :: stem.reverse := by
    simp
  rw [splitExtension, backwards, stops.takeWhile_append goesOn, stops.dropWhile_append goesOn]
  simp only [List.reverse_cons, List.reverse_reverse, List.dropLast_concat]

/-- A name is its stem, or it is the stem, a dot and the extension. -/
theorem splitExtension_cases (name : List Char) :
    splitExtension name = (name, none) ∨
      ∃ stem extension, name = stem ++ '.' :: extension ∧ stem ≠ [] ∧ '.' ∉ extension ∧
        splitExtension name = (stem, some extension) := by
  have halves := List.takeWhile_append_dropWhile (p := (· != '.')) (l := name.reverse)
  have plain : '.' ∉ name.reverse.takeWhile (· != '.') := by
    intro member
    simpa using isTrue_of_mem_takeWhile member
  cases back : name.reverse.dropWhile (· != '.') with
  | nil => exact .inl (by simp [splitExtension, back])
  | cons c rest =>
    have dot : c = '.' := by
      have stopped := List.head?_dropWhile_not (· != '.') name.reverse
      rw [back] at stopped
      simpa using stopped
    rw [back, dot] at halves
    have whole : name = rest.reverse ++ '.' :: (name.reverse.takeWhile (· != '.')).reverse := by
      simpa using (congrArg List.reverse halves).symm
    cases empty : rest.reverse with
    | nil => exact .inl (by simp [splitExtension, back, empty])
    | cons d stem =>
      have nonempty : rest.reverse ≠ [] := by simp [empty]
      have plainBack : '.' ∉ (name.reverse.takeWhile (· != '.')).reverse := by simpa using plain
      exact .inr ⟨_, _, whole, nonempty, plainBack,
        (congrArg splitExtension whole).trans (splitExtension_append nonempty plainBack)⟩

/-- A stem and a dot are a step, and a file name if they are not two dots. -/
theorem isStep_append {stem : List Char} (rest : List Char) (nonempty : stem ≠ []) :
    stem ++ '.' :: rest ≠ [] ∧ stem ++ '.' :: rest ≠ ['.'] := by
  cases stem with
  | nil => exact absurd rfl nonempty
  | cons c stem => simp

theorem append_ne_up {stem rest : List Char} (nonempty : stem ≠ []) (more : stem = ['.'] → rest ≠ []) :
    stem ++ '.' :: rest ≠ ['.', '.'] := by
  intro same
  cases stem with
  | nil => exact nonempty rfl
  | cons c stem =>
    obtain ⟨rfl, behind⟩ := List.cons.inj same
    cases stem with
    | nil => exact more rfl (List.cons.inj behind).2
    | cons d stem => simp at behind

/-- The stem is the start of the name, and it is not empty. -/
theorem stem_isPrefix {name : List Char} (isName : name ≠ []) :
    (splitExtension name).1 <+: name ∧ (splitExtension name).1 ≠ [] := by
  rcases splitExtension_cases name with alone | ⟨stem, extension, split, nonempty, -, found⟩
  · rw [alone]
    exact ⟨List.prefix_rfl, isName⟩
  · rw [found]
    exact ⟨⟨'.' :: extension, split.symm⟩, nonempty⟩

/-- A stem with an extension, or alone if the extension is empty. -/
def extended (stem extension : List Char) : List Char :=
  if extension.isEmpty then stem else stem ++ '.' :: extension

namespace Named

variable {text before name trail : List Char}

private theorem replaceExtension_eq (named : Named text before name trail) (extension : List Char) :
    replaceExtension text extension = before ++ extended (splitExtension name).1 extension := by
  rw [replaceExtension, named.splitName?_eq]
  by_cases empty : extension.isEmpty
  · simp [extended, empty]
  · simp [extended, empty]

theorem extensionOf?_eq (named : Named text before name trail) :
    extensionOf? text = (splitExtension name).2 := by
  rw [extensionOf?, named.splitName?_eq]
  rfl

/-- The bytes dropped may be those of the trail, so that part of the extension is kept. -/
theorem exists_kept (named : Named text before name trail) {stem extension : List Char}
    (split : name = stem ++ '.' :: extension)
    (found : splitExtension name = (stem, some extension)) :
    ∃ kept, dropExtension text = before ++ (stem ++ '.' :: kept) ∧ kept <+: extension ++ trail ∧
      (kept = [] ↔ trail = []) := by
  have isExtension : extensionOf? text = some extension := by rw [named.extensionOf?_eq, found]
  refine ⟨Text.dropLastBytes (extension ++ trail) (Text.byteLength extension), ?_,
    Text.dropLastBytes_isPrefix _ _, ?_⟩
  · have regrouped : text = (before ++ (stem ++ ['.'])) ++ (extension ++ trail) := by
      simp [named.split, split]
    simp only [dropExtension, isExtension]
    rw [regrouped, Text.dropLastBytes_append _ (by simp)]
    simp
  · rw [Text.dropLastBytes_eq_nil_iff, Text.byteLength_append]
    constructor
    · intro short
      exact Text.eq_nil_of_byteLength (by omega)
    · intro nothing
      simp [nothing]

/-- What is left when the extension has been dropped has a name with the same stem, unless that would be
`..`, which names no file. -/
theorem exists_named_dropExtension (named : Named text before name trail) {stem extension : List Char}
    (split : name = stem ++ '.' :: extension) (nonempty : stem ≠ []) (plain : '.' ∉ extension)
    (found : splitExtension name = (stem, some extension)) (kept : stem = ['.'] → trail ≠ []) :
    ∃ rest others, Named (dropExtension text) before (stem ++ '.' :: rest) others ∧ '.' ∉ rest := by
  obtain ⟨left, dropped, ⟨gone, same⟩, nothing⟩ := named.exists_kept split found
  rcases List.append_eq_append_iff.mp same with ⟨middle, rfl, -⟩ | ⟨middle, rfl, rfl⟩
  · have whole := named.whole
    rw [split] at whole
    refine ⟨left, [], ⟨⟨by rw [dropped, List.append_nil], named.parted, ?_, isStep_append _ nonempty,
      .nil⟩, ?_⟩, ?_⟩
    · intro slash
      exact whole (by rw [← List.cons_append, ← List.append_assoc]; exact List.mem_append_left _ slash)
    · exact append_ne_up nonempty fun isDot empty => kept isDot (nothing.mp empty)
    · intro dot
      exact plain (List.mem_append_left _ dot)
  · refine ⟨extension, middle, ⟨⟨?_, named.parted, split ▸ named.whole, split ▸ named.isStep, ?_⟩,
      split ▸ named.notUp⟩, plain⟩
    · rw [dropped]
      simp
    · exact named.isTrail.of_isPrefix (List.prefix_append _ _)

theorem withExtension_eq (named : Named text before name trail)
    (kept : (splitExtension name).1 = ['.'] → trail ≠ []) (extension : List Char) :
    replaceExtension (dropExtension text) extension =
      before ++ extended (splitExtension name).1 extension := by
  rcases splitExtension_cases name with alone | ⟨stem, old, split, nonempty, plain, found⟩
  · have same : dropExtension text = text := by
      simp only [dropExtension, named.extensionOf?_eq, alone]
    rw [same, named.replaceExtension_eq]
  · rw [found] at kept
    obtain ⟨rest, others, left, plainRest⟩ :=
      named.exists_named_dropExtension split nonempty plain found kept
    rw [left.replaceExtension_eq, splitExtension_append nonempty plainRest, found]

/-- Without a trail the extension behind the stem `.` is dropped, and what is left names no file. -/
theorem withExtension_of_dot (named : Named text before name []) (dot : (splitExtension name).1 = ['.'])
    (extension : List Char) :
    LastStep (replaceExtension (dropExtension text) extension) before ['.', '.'] [] := by
  rcases splitExtension_cases name with alone | ⟨stem, old, split, nonempty, plain, found⟩
  · rw [alone] at dot
    exact absurd dot named.isStep.2
  rw [found] at dot
  obtain rfl : stem = ['.'] := dot
  obtain ⟨left, dropped, -, nothing⟩ := named.exists_kept split found
  obtain rfl := nothing.mpr rfl
  have last : LastStep (dropExtension text) before ['.', '.'] [] :=
    ⟨by rw [dropped]; rfl, named.parted, by decide, by decide, .nil⟩
  rw [replaceExtension, last.splitName?_eq]
  exact last

end Named

/-! ## Steps -/

/-- The step that a segment of a path is, if it is one. -/
def stepOf (segment : List Char) : Component :=
  if segment = ['.', '.'] then .up else .name (String.ofList segment)

theorem stepOf_inj {first second : List Char} : stepOf first = stepOf second ↔ first = second := by
  refine ⟨fun same => ?_, congrArg stepOf⟩
  unfold stepOf at same
  split at same <;> split at same
  · simp_all
  · cases same
  · cases same
  · exact String.ofList_injective (Component.name.inj same)

/-- Where a path starts, from its segments. -/
def leading : List (List Char) → List Component
  | [] => []
  | first :: others =>
    if first = ['.'] then [.here] else if first = [] ∧ others ≠ [] then [.root] else []

private theorem components_eq_leading (path : Path) :
    path.components = leading (segments path.text.toList) ++
      (segments path.text.toList).filterMap component? := by
  simp only [components]
  split
  · rename_i found
    simp [leading, found]
  · rename_i found
    simp [leading, found]
  · rename_i notRoot notHere
    cases found : segments path.text.toList with
    | nil => rfl
    | cons first others =>
      have relative : first ≠ ['.'] := fun same => notHere others (same ▸ found)
      have inside : ¬ (first = [] ∧ others ≠ []) := by
        intro both
        cases others with
        | nil => exact both.2 rfl
        | cons second others => exact notRoot second others (both.1 ▸ found)
      rw [leading, if_neg relative, if_neg inside]
      rfl

/-- Once a segment is followed by others it does not matter which ones. -/
theorem leading_append {front back others : List (List Char)} (nonempty : front ≠ [])
    (goesOn : back ≠ []) (alsoGoesOn : others ≠ []) :
    leading (front ++ back) = leading (front ++ others) := by
  cases front with
  | nil => exact absurd rfl nonempty
  | cons first front => simp [leading, goesOn, alsoGoesOn]

theorem LastStep.components_eq {path : Path} {before segment trail : List Char}
    (last : LastStep path.text.toList before segment trail) :
    path.components = (Path.mk (String.ofList before)).components ++ [stepOf segment] := by
  have step : component? segment = some (stepOf segment) := by
    rw [component?, if_neg (by simpa using last.isStep.1), if_neg last.isStep.2, stepOf]
    split <;> rfl
  have alone : segments segment = [segment] := Text.pieces_of_notMem last.whole
  obtain ⟨idle, split, nothing⟩ := last.isTrail.exists_segments segment
  rw [alone, List.singleton_append] at split
  rw [components_eq_leading, components_eq_leading, last.split, String.toList_ofList]
  rcases List.eq_nil_or_concat before with rfl | ⟨front, c, ending⟩
  · have notLeading : leading (segment :: idle) = [] := by
      simp [leading, last.isStep.1, last.isStep.2]
    rw [List.nil_append, split, notLeading, List.filterMap_cons, step, nothing]
    rfl
  · rw [List.concat_eq_append] at ending
    subst ending
    obtain rfl : c = '/' := last.parted c (by simp)
    have behind : segments (front ++ ['/'] ++ (segment ++ trail)) =
        segments front ++ segment :: idle := by
      rw [List.append_assoc, List.singleton_append, ← split]
      exact Text.pieces_append '/' front (segment ++ trail)
    have directory : segments (front ++ ['/']) = segments front ++ [[]] :=
      Text.pieces_append '/' front []
    have started : segments front ≠ [] := Text.pieces_ne_nil '/' front
    have unnamed : component? [] = none := rfl
    rw [behind, directory,
      leading_append started (List.cons_ne_nil segment idle) (List.cons_ne_nil [] [])]
    simp [List.filterMap_append, step, nothing, unnamed]

end Path

end TeenyBasic
