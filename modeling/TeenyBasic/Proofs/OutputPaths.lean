import TeenyBasic.Proofs.Command.Course
import TeenyBasic.Proofs.Paths

/-!
Where the outputs go. The C file lies beside the source and has its stem, the executable has the stem
alone, and doing this again changes nothing more, unless the stem is a single dot
(`Path.buildsBeside_iff`). So a source that is named like a C file is where its own C file goes, and one
without an extension is where its executable goes; no other source is replaced
(`Command.source_replaced_iff`).
-/

set_option autoImplicit false

namespace TeenyBasic

namespace Path

/-! ## The texts of the outputs -/

namespace Named

variable {path : Path} {before name trail : List Char}

theorem text_withExtension (named : Named path.text.toList before name trail)
    (kept : (splitExtension name).1 = ['.'] → trail ≠ []) (extension : String) :
    (path.withExtension extension).text.toList =
      before ++ extended (splitExtension name).1 extension.toList := by
  rw [withExtension, String.toList_ofList, named.withExtension_eq kept]

theorem text_cFile (named : Named path.text.toList before name trail)
    (kept : (splitExtension name).1 = ['.'] → trail ≠ []) :
    path.cFile.text.toList = before ++ ((splitExtension name).1 ++ ['.', 'c']) :=
  named.text_withExtension kept "c"

theorem text_executable (named : Named path.text.toList before name trail)
    (kept : (splitExtension name).1 = ['.'] → trail ≠ []) :
    path.executable.text.toList = before ++ (splitExtension name).1 :=
  named.text_withExtension kept ""

theorem slash_notMem_stem (named : Named path.text.toList before name trail) :
    '/' ∉ (splitExtension name).1 := by
  intro slash
  exact named.whole ((stem_isPrefix named.isStep.1).1.subset slash)

theorem named_cFile (named : Named path.text.toList before name trail)
    (kept : (splitExtension name).1 = ['.'] → trail ≠ []) :
    Named path.cFile.text.toList before ((splitExtension name).1 ++ ['.', 'c']) [] where
  split := by rw [named.text_cFile kept, List.append_nil]
  parted := named.parted
  whole := by simpa using named.slash_notMem_stem
  isStep := isStep_append ['c'] (stem_isPrefix named.isStep.1).2
  isTrail := .nil
  notUp := append_ne_up (stem_isPrefix named.isStep.1).2 (by simp)

theorem lastStep_executable (named : Named path.text.toList before name trail)
    (notDot : (splitExtension name).1 ≠ ['.']) :
    LastStep path.executable.text.toList before (splitExtension name).1 [] where
  split := by rw [named.text_executable (absurd · notDot), List.append_nil]
  parted := named.parted
  whole := named.slash_notMem_stem
  isStep := ⟨(stem_isPrefix named.isStep.1).2, notDot⟩
  isTrail := .nil

/-- Without a trail the stem `.` and any extension become two dots. -/
theorem lastStep_of_dot (named : Named path.text.toList before name [])
    (dot : (splitExtension name).1 = ['.']) (extension : String) :
    LastStep (path.withExtension extension).text.toList before ['.', '.'] [] := by
  rw [withExtension, String.toList_ofList]
  exact named.withExtension_of_dot dot extension.toList

theorem stem?_eq (named : Named path.text.toList before name trail) :
    path.stem? = some (String.ofList (splitExtension name).1) := by
  rw [stem?, named.splitName?_eq]
  rfl

theorem extension?_eq (named : Named path.text.toList before name trail) :
    path.extension? = (splitExtension name).2.map String.ofList := by
  rw [extension?, named.extensionOf?_eq]

theorem splitExtension_cFile (named : Named path.text.toList before name trail) :
    splitExtension ((splitExtension name).1 ++ ['.', 'c']) = ((splitExtension name).1, some ['c']) :=
  splitExtension_append (stem_isPrefix named.isStep.1).2 (by decide)

end Named

private theorem LastStep.directory?_eq {path : Path} {before segment trail : List Char}
    (last : LastStep path.text.toList before segment trail) :
    Watch.directory? path = some (Path.mk (String.ofList before)).components := by
  rw [Watch.directory?, last.components_eq, List.getLast?_concat, List.dropLast_concat]
  by_cases up : segment = ['.', '.'] <;> simp [stepOf, up]

theorem LastStep.equivalent_iff {path other : Path} {before segment trail name others : List Char}
    (last : LastStep path.text.toList before segment trail)
    (otherLast : LastStep other.text.toList before name others) :
    path.equivalent other = true ↔ segment = name := by
  rw [equivalent, last.components_eq, otherLast.components_eq]
  simp [stepOf_inj]

/-! ## Building beside the source -/

/-- The outputs of a path lie beside it under its stem, are those of its C file as well, and can be
built. -/
structure BuildsBeside (path : Path) : Prop where
  extension : path.cFile.extension? = some "c"
  directory : Watch.directory? path.cFile = Watch.directory? path
  stem : path.cFile.stem? = path.stem?
  bareEnd : path.cFile.text.toList.getLast? ≠ some '/'
  settled : path.cFile.cFile = path.cFile
  executable : path.cFile.executable = path.executable
  apart : path.cFile.equivalent path.cFile.executable = false
  buildable : Build.isBuildable path.cFile path.cFile.executable = true

theorem eq_of_toList {first second : Path} (same : first.text.toList = second.text.toList) :
    first = second := by
  cases first
  cases second
  exact congrArg Path.mk (String.toList_injective same)

theorem withExtension_of_nameless {path : Path} (nameless : splitName? path.text.toList = none)
    (extension : String) : path.withExtension extension = path := by
  have noExtension : extensionOf? path.text.toList = none := by
    rw [extensionOf?, nameless]
    rfl
  refine eq_of_toList ?_
  rw [withExtension, String.toList_ofList, dropExtension, noExtension, replaceExtension, nameless]

theorem extension?_of_nameless {path : Path} (nameless : splitName? path.text.toList = none) :
    path.extension? = none := by
  rw [extension?, extensionOf?, nameless]
  rfl

/-- Behind the stem `.` the C file is no file, or its own C file is none. -/
theorem Named.not_buildsBeside {path : Path} {before name trail : List Char}
    (named : Named path.text.toList before name trail) (dot : (splitExtension name).1 = ['.']) :
    ¬ path.BuildsBeside := by
  intro builds
  cases trail with
  | nil =>
    have last := named.lastStep_of_dot dot "c"
    have extension : path.cFile.extension? = none := extension?_of_nameless last.splitName?_eq
    rw [builds.extension] at extension
    cases extension
  | cons c trail =>
    have cNamed := named.named_cFile fun _ => List.cons_ne_nil c trail
    have last := cNamed.lastStep_of_dot (by rw [named.splitExtension_cFile, dot]) "c"
    have same : path.cFile.cFile.text.toList = path.cFile.text.toList := by rw [builds.settled]
    have texts := last.split.symm.trans (same.trans cNamed.split)
    simp [dot] at texts

private theorem Named.buildsBeside {path : Path} {before name trail : List Char}
    (named : Named path.text.toList before name trail) (notDot : (splitExtension name).1 ≠ ['.']) :
    path.BuildsBeside := by
  have kept : (splitExtension name).1 = ['.'] → trail ≠ [] := (absurd · notDot)
  have cNamed := named.named_cFile kept
  have again := named.splitExtension_cFile
  have cNotDot : (splitExtension ((splitExtension name).1 ++ ['.', 'c'])).1 ≠ ['.'] := by rwa [again]
  have extension : path.cFile.extension? = some "c" := by
    rw [cNamed.extension?_eq, again]
    rfl
  have apart : path.cFile.equivalent path.cFile.executable = false := by
    rw [Bool.eq_false_iff, Ne, cNamed.equivalent_iff (cNamed.lastStep_executable cNotDot), again]
    simp
  refine ⟨extension, ?_, ?_, ?_, ?_, ?_, apart, ?_⟩
  · rw [cNamed.directory?_eq, named.directory?_eq]
  · rw [cNamed.stem?_eq, named.stem?_eq, again]
  · rw [named.text_cFile kept]
    simp
  · refine eq_of_toList ?_
    rw [cNamed.text_cFile (absurd · cNotDot), named.text_cFile kept, again]
  · refine eq_of_toList ?_
    rw [cNamed.text_executable (absurd · cNotDot), named.text_executable kept, again]
  · rw [Build.isBuildable, extension, apart]
    rfl

/-- The C file and the executable of a path lie beside it under its stem, are also those of the C file,
and can be built, just when the path names a file whose stem is not a single dot. -/
theorem buildsBeside_iff (path : Path) :
    path.BuildsBeside ↔ ∃ stem, path.stem? = some stem ∧ stem ≠ "." := by
  constructor
  · intro builds
    cases split : splitName? path.text.toList with
    | none =>
      have extension := builds.extension
      rw [cFile, withExtension_of_nameless split, extension?_of_nameless split] at extension
      cases extension
    | some parts =>
      obtain ⟨trail, named⟩ := splitName?_eq_some_iff.mp split
      refine ⟨_, named.stem?_eq, fun dot => named.not_buildsBeside ?_ builds⟩
      exact String.ofList_injective dot
  · intro found
    obtain ⟨stem, isStem, notDot⟩ := found
    obtain ⟨⟨before, name⟩, split, rfl⟩ := Option.map_eq_some_iff.mp isStem
    obtain ⟨trail, named⟩ := splitName?_eq_some_iff.mp split
    refine named.buildsBeside fun dot => notDot ?_
    rw [dot]

/-! ## Outputs in place of the source -/

private theorem stem_eq_iff (name : List Char) :
    (splitExtension name).1 = name ↔ (splitExtension name).2 = none := by
  rcases splitExtension_cases name with alone | ⟨stem, extension, split, -, -, found⟩
  · simp [alone]
  · rw [found, split]
    simp

private theorem stem_append_eq_iff (name : List Char) :
    (splitExtension name).1 ++ ['.', 'c'] = name ↔ (splitExtension name).2 = some ['c'] := by
  rcases splitExtension_cases name with alone | ⟨stem, extension, split, -, -, found⟩
  · simp [alone]
  · rw [found, split]
    simp [eq_comm]

namespace Named

variable {path : Path} {before name trail : List Char}

private theorem cFile_equivalent_iff (named : Named path.text.toList before name trail) :
    path.cFile.equivalent path = true ↔
      (splitExtension name).2 = some ['c'] ∧ ((splitExtension name).1 = ['.'] → trail ≠ []) := by
  by_cases kept : (splitExtension name).1 = ['.'] → trail ≠ []
  · rw [(named.named_cFile kept).equivalent_iff named.toLastStep, stem_append_eq_iff]
    exact ⟨fun found => ⟨found, kept⟩, fun found => found.1⟩
  · obtain ⟨dot, noTrail⟩ := Classical.not_imp.mp kept
    obtain rfl := not_not.mp noTrail
    have last := named.lastStep_of_dot dot "c"
    refine ⟨fun same => ?_, fun found => absurd found.2 kept⟩
    exact absurd ((last.equivalent_iff named.toLastStep).mp same).symm named.notUp

/-- With the stem `.` the executable is a directory. -/
theorem lastStep_executable_of_dot (named : Named path.text.toList before name trail)
    (dot : (splitExtension name).1 = ['.']) :
    LastStep path.cFile.executable.text.toList before ['.', '.'] [] := by
  cases trail with
  | nil =>
    have last := named.lastStep_of_dot dot "c"
    have same : path.cFile.executable = path.cFile :=
      withExtension_of_nameless last.splitName?_eq ""
    rw [same]
    exact last
  | cons c trail =>
    have cNamed := named.named_cFile fun _ => List.cons_ne_nil c trail
    exact cNamed.lastStep_of_dot (by rw [named.splitExtension_cFile, dot]) ""

private theorem executable_equivalent_iff (named : Named path.text.toList before name trail) :
    path.cFile.executable.equivalent path = true ↔ (splitExtension name).2 = none := by
  rw [← stem_eq_iff]
  by_cases dot : (splitExtension name).1 = ['.']
  · rw [(named.lastStep_executable_of_dot dot).equivalent_iff named.toLastStep, dot]
    exact ⟨fun up => absurd up.symm named.notUp, fun same => absurd same.symm named.isStep.2⟩
  · have cNamed := named.named_cFile (absurd · dot)
    have again := named.splitExtension_cFile
    rw [(cNamed.lastStep_executable (by rwa [again])).equivalent_iff named.toLastStep, again]

private theorem fileName?_eq (named : Named path.text.toList before name trail) :
    path.fileName? = some (String.ofList name) := by
  rw [fileName?, named.splitName?_eq]
  rfl

/-- A name that ends in `c` ends the text just when no trail follows it. -/
theorem isSuffix_iff (named : Named path.text.toList before name trail)
    (isC : name.getLast? = some 'c') : name <:+ path.text.toList ↔ trail = [] := by
  constructor
  · intro ends
    obtain ⟨rest, same⟩ := ends
    have last := congrArg List.getLast? (same.trans named.split)
    cases named.isTrail with
    | nil => rfl
    | slash | dot => simp [← List.append_assoc, isC] at last
  · intro nothing
    rw [named.split, nothing, List.append_nil]
    exact List.suffix_append _ _

end Named

/-- The file has the extension of C files, and the path does not end in the name `..c`. -/
def NamedAsC (path : Path) : Prop :=
  path.extension? = some "c" ∧
    ¬ (path.fileName? = some "..c" ∧ "..c".toList <:+ path.text.toList)

namespace Named

variable {path : Path} {before name trail : List Char}

/-- The name is `..c` just when the stem is a single dot, and it is at the end if there is no trail. -/
theorem endsInDots_iff (named : Named path.text.toList before name trail) {stem : List Char}
    (split : name = stem ++ ['.', 'c']) :
    path.fileName? = some "..c" ∧ "..c".toList <:+ path.text.toList ↔ stem = ['.'] ∧ trail = [] := by
  have atEnd := named.isSuffix_iff (by simp [split])
  rw [named.fileName?_eq]
  constructor
  · intro ends
    obtain ⟨isName, suffix⟩ := ends
    have dots : name = "..c".toList := String.ofList_injective (Option.some.inj isName)
    rw [← dots, atEnd] at suffix
    exact ⟨List.append_cancel_right (split.symm.trans dots), suffix⟩
  · intro ends
    obtain ⟨rfl, noTrail⟩ := ends
    have dots : name = "..c".toList := split
    rw [← dots, atEnd]
    exact ⟨by rw [dots, String.ofList_toList], noTrail⟩

private theorem cFile_equivalent_iff_namedAsC (named : Named path.text.toList before name trail) :
    path.cFile.equivalent path = true ↔ path.NamedAsC := by
  rw [named.cFile_equivalent_iff, NamedAsC, named.extension?_eq]
  rcases splitExtension_cases name with alone | ⟨stem, extension, split, -, -, found⟩
  · simp [alone]
  rw [found]
  by_cases isC : extension = ['c']
  · subst isC
    rw [named.endsInDots_iff split, not_and]
    exact ⟨fun found => ⟨rfl, found.2⟩, fun found => ⟨rfl, found.2⟩⟩
  · have other : String.ofList extension ≠ "c" := fun same => isC (String.ofList_injective same)
    simp [isC, other]

private theorem executable_equivalent_iff_bare (named : Named path.text.toList before name trail) :
    path.cFile.executable.equivalent path = true ↔ path.extension? = none := by
  rw [named.executable_equivalent_iff, named.extension?_eq, Option.map_eq_none_iff]

end Named

end Path

namespace Command

/-- The file that a call makes or replaces. -/
def Event.made? : Event → Option Path
  | wrote path _ _ => some path
  | compiled _ _ target _ => some target
  | _ => none

theorem Searches.made?_eq_none {names : List String} {done : List Event} {found : Option Path}
    (searches : Searches names done found) {event : Event} (member : event ∈ done) :
    event.made? = none := by
  induction searches with
  | nowhere => cases member
  | found =>
    obtain rfl := List.mem_singleton.mp member
    rfl
  | next _ ih =>
    rcases List.mem_cons.mp member with rfl | member
    · rfl
    · exact ih member

theorem LooksUp.made?_eq_none {wanted found : Option Path} {done : List Event}
    (looksUp : LooksUp wanted done found) {event : Event} (member : event ∈ done) :
    event.made? = none := by
  cases looksUp with
  | file =>
    obtain rfl := List.mem_singleton.mp member
    rfl
  | program => rcases List.mem_pair.mp member with rfl | rfl <;> rfl
  | usual searches => exact searches.made?_eq_none member

theorem Course.made {options : Options} {compiler : Option Path} {work : List Event} {code : Nat}
    (course : Course options compiler work code) {event : Event} (member : event ∈ work) {path : Path}
    (made : event.made? = some path) :
    path = options.outputPath ∨ path = options.outputPath.executable := by
  cases event with
  | wrote =>
    cases made
    exact .inl (course.of_wrote member).1
  | compiled =>
    cases made
    obtain ⟨_, _, _, _, _, build, inside, -⟩ := course.of_started rfl member
    exact .inr (build.of_compiled inside).2.2.1
  | _ => cases made

theorem CommandCourse.made {options : Options} {compiler : Option Path} {lookups work : List Event}
    {code : Nat} (course : CommandCourse options lookups compiler work code) {event : Event}
    (member : event ∈ lookups ++ work) {path : Path} (made : event.made? = some path) :
    path = options.outputPath ∨ path = options.outputPath.executable := by
  have notLookup {found : Option Path} (looksUp : LooksUp options.compiler lookups found) :
      event ∉ lookups := by
    intro early
    rw [looksUp.made?_eq_none early] at made
    cases made
  cases course with
  | plain _ course => exact course.made member made
  | noCompiler _ looksUp =>
    rw [List.append_nil] at member
    exact absurd member (notLookup looksUp)
  | compiler _ looksUp course =>
    rcases List.mem_append.mp member with early | late
    · exact absurd early (notLookup looksUp)
    · exact course.made late made

/-- The command makes no files other than its outputs. -/
theorem made_of_start (oracle : Oracle) {arguments : List String} {options : Options}
    (asked : Invocation.ofArguments arguments (oracle.environmentValue [] "CC") =
      .ok (.compile options))
    {event : Event} (member : event ∈ ((start arguments : Recorded oracle Next) []).2) {path : Path}
    (made : event.made? = some path) :
    path = options.outputPath ∨ path = options.outputPath.executable := by
  have brings : Brings (compileSource options : Recorded oracle Next) _ := brings_compileSource options
  obtain ⟨events, next, same, lookups, done, compiler, split, work, watching, code, rfl, course,
    resolutions, -⟩ := brings [.asked "CC" (oracle.environmentValue [] "CC")]
  rw [start_eq oracle asked, same] at member
  rcases List.mem_cons.mp member with rfl | member
  · cases made
  have isDeed : event.isDeed = true := by
    cases event with
    | wrote | compiled => rfl
    | _ => cases made
  have inside : event ∈ deeds events := List.mem_filter.mpr ⟨member, isDeed⟩
  rw [split, ← List.append_assoc] at inside
  rcases List.mem_append.mp inside with inside | inside
  · exact course.made inside made
  · obtain ⟨_, _, rfl⟩ := resolutions event inside
    cases made

/-- Without an output of its own in the options, the C file goes where the source is just when the source
is named like a C file, and the executable just when the source has no extension. In all other cases the
command makes and replaces files elsewhere only. -/
theorem source_replaced_iff {options : Options} {name : String} (noOutput : options.output = none)
    (isName : options.source.fileName? = some name) :
    (options.outputPath.equivalent options.source = true ↔ options.source.NamedAsC) ∧
    (options.outputPath.executable.equivalent options.source = true ↔
      options.source.extension? = none) ∧
    ∀ oracle arguments,
      Invocation.ofArguments arguments (oracle.environmentValue [] "CC") = .ok (.compile options) →
      ∀ event ∈ ((start arguments : Recorded oracle Next) []).2, ∀ path, event.made? = some path →
        path.equivalent options.source = true →
        options.source.NamedAsC ∨ options.source.extension? = none := by
  have output : options.outputPath = options.source.cFile := by
    rw [Options.outputPath, noOutput]
    rfl
  obtain ⟨⟨before, file⟩, split, -⟩ := Option.map_eq_some_iff.mp isName
  obtain ⟨trail, named⟩ := Path.splitName?_eq_some_iff.mp split
  have byCFile := named.cFile_equivalent_iff_namedAsC
  have byExecutable := named.executable_equivalent_iff_bare
  rw [← output] at byCFile byExecutable
  refine ⟨byCFile, byExecutable, fun oracle arguments asked event member path made same => ?_⟩
  rcases made_of_start oracle asked member made with rfl | rfl
  · exact .inl (byCFile.mp same)
  · exact .inr (byExecutable.mp same)

theorem source_replaced_iff_teeny :
    (Path.mk "hello.teeny").fileName? = some "hello.teeny" ∧
    ¬ (Options.outputPath { source := ⟨"hello.teeny"⟩ }).equivalent ⟨"hello.teeny"⟩ = true ∧
    ¬ (Options.outputPath { source := ⟨"hello.teeny"⟩ }).executable.equivalent ⟨"hello.teeny"⟩ = true ∧
    ∀ oracle arguments,
      Invocation.ofArguments arguments (oracle.environmentValue [] "CC") =
        .ok (.compile { source := ⟨"hello.teeny"⟩ }) →
      ∀ event ∈ ((start arguments : Recorded oracle Next) []).2, ∀ path, event.made? = some path →
        ¬ path.equivalent ⟨"hello.teeny"⟩ = true := by
  have isName : (Path.mk "hello.teeny").fileName? = some "hello.teeny" := by decide +kernel
  have extension : (Path.mk "hello.teeny").extension? = some "teeny" := by decide +kernel
  have notC : ¬ (Path.mk "hello.teeny").NamedAsC := by
    intro isC
    exact absurd (extension.symm.trans isC.1) (by decide)
  have notBare : (Path.mk "hello.teeny").extension? ≠ none := by simp [extension]
  have noOutput : ({ source := ⟨"hello.teeny"⟩ } : Options).output = none := rfl
  obtain ⟨byCFile, byExecutable, elsewhere⟩ := source_replaced_iff noOutput isName
  refine ⟨isName, mt byCFile.mp notC, mt byExecutable.mp notBare, ?_⟩
  intro oracle arguments asked event member path made same
  rcases elsewhere oracle arguments asked event member path made same with isC | bare
  · exact notC isC
  · exact notBare bare

/-- A source named like a C file is where its C file goes, and the command writes there. A source without
an extension is where its executable goes, and the C compiler is told to make it there. -/
theorem outputs_replace_source :
    (Path.mk "hello.c").fileName? = some "hello.c" ∧
    (Options.outputPath { source := ⟨"hello.c"⟩ }).equivalent ⟨"hello.c"⟩ = true ∧
    (∃ event ∈ ((start ["hello.c"] : Recorded sevenOracle Next) []).2,
      event.made? = some ⟨"hello.c"⟩) ∧
    (Path.mk "hello").fileName? = some "hello" ∧
    (Options.outputPath { source := ⟨"hello"⟩ }).executable.equivalent ⟨"hello"⟩ = true ∧
    ∃ event ∈ ((start ["hello", "--build"] : Recorded sevenOracle Next) []).2,
      event.made? = some ⟨"hello"⟩ := by
  have written : (((start ["hello.c"] : Recorded sevenOracle Next) []).2.any
      fun event => event.made? == some ⟨"hello.c"⟩) = true := by decide +kernel
  have built : (((start ["hello", "--build"] : Recorded sevenOracle Next) []).2.any
      fun event => event.made? == some ⟨"hello"⟩) = true := by decide +kernel
  refine ⟨by decide +kernel, by decide +kernel, by simpa using List.any_eq_true.mp written,
    by decide +kernel, by decide +kernel, by simpa using List.any_eq_true.mp built⟩

end Command

end TeenyBasic
