import Mathlib.Data.List.Basic
import TeenyBasic.Proofs.Command.Recording

/-!
What the command does and in which order. The C compiler is looked for first (`LooksUp`), and then the
source is read, the C text written, the executable built and run, each only if everything before it went
well (`Course`). The course determines the exit code.
-/

set_option autoImplicit false

namespace TeenyBasic.Command

/-! ## What can happen -/

/-- The names are searched for in turn, up to the first one that is found. -/
inductive Searches : List String → List Event → Option Path → Prop where
  | nowhere : Searches [] [] none
  | found {name : String} {names : List String} {path : Path} :
      Searches (name :: names) [.searched ⟨name⟩ (some path)] (some path)
  | next {name : String} {names : List String} {done : List Event} {found : Option Path} :
      Searches names done found → Searches (name :: names) (.searched ⟨name⟩ none :: done) found

/-- How the C compiler is looked for, and what is found. One that is asked for is a file, or else the
name of a program. -/
inductive LooksUp : Option Path → List Event → Option Path → Prop where
  | file {path : Path} : LooksUp (some path) [.inspected path true] (some path)
  | program {path : Path} {found : Option Path} :
      LooksUp (some path) [.inspected path false, .searched path found] found
  | usual {done : List Event} {found : Option Path} :
      Searches ["cc", "gcc", "clang"] done found → LooksUp none done found

/-- The C file is named as one and is not where the executable goes. -/
def Fits (output : Path) : Prop :=
  output.extension? = some "c" ∧ output.equivalent output.executable = false

/-- The C compiler was started and ended well. -/
def Succeeded (answer : Except SystemError Completion) : Prop :=
  ∃ completion, answer = .ok completion ∧ completion.status = .exited 0

/-- The exit code after a program was to be run. -/
def codeAfter : Except SystemError ExitStatus → Nat
  | .ok (.exited code) => if code ≤ 255 then code else 1
  | .ok (.killed _) => 1
  | .error _ => 5

/-- What follows once the C file is written, and the exit code. -/
inductive BuildCourse (options : Options) (compiler : Path) : List Event → Nat → Prop where
  | unfit : ¬ Fits options.outputPath → BuildCourse options compiler [] 5
  | failed {answer : Except SystemError Completion} : Fits options.outputPath → ¬ Succeeded answer →
      BuildCourse options compiler
        [.compiled compiler options.outputPath options.outputPath.executable answer] 5
  | built {answer : Except SystemError Completion} : Fits options.outputPath → Succeeded answer →
      options.run = false →
      BuildCourse options compiler
        [.compiled compiler options.outputPath options.outputPath.executable answer] 0
  | ran {answer : Except SystemError Completion} {ending : Except SystemError ExitStatus} :
      Fits options.outputPath → Succeeded answer → options.run = true →
      BuildCourse options compiler
        [.compiled compiler options.outputPath options.outputPath.executable answer,
          .ran (Build.programPath options.outputPath.executable) ending] (codeAfter ending)

/-- What is done with a source, and the exit code. It is built if there is a C compiler for it. -/
inductive Course (options : Options) (compiler : Option Path) : List Event → Nat → Prop where
  | unreadable {reason : SystemError} :
      Course options compiler [.read options.source (.error reason)] 3
  | refused {text : String} {failure : Failure} : compile text = .error failure →
      Course options compiler [.read options.source (.ok text)] 1
  | unwritten {text cText : String} {reason : SystemError} : compile text = .ok cText →
      Course options compiler
        [.read options.source (.ok text), .wrote options.outputPath cText (.error reason)] 1
  | written {text cText : String} : compile text = .ok cText → compiler = none →
      Course options compiler
        [.read options.source (.ok text), .wrote options.outputPath cText (.ok ())] 0
  | built {text cText : String} {path : Path} {done : List Event} {code : Nat} :
      compile text = .ok cText → compiler = some path → BuildCourse options path done code →
      Course options compiler
        (.read options.source (.ok text) :: .wrote options.outputPath cText (.ok ()) :: done) code

/-- What the command does: how it looks for a C compiler and what it finds, what it does with the source
then, and its exit code. -/
inductive CommandCourse (options : Options) :
    List Event → Option Path → List Event → Nat → Prop where
  | plain {work : List Event} {code : Nat} : options.wantsBuild = false →
      Course options none work code → CommandCourse options [] none work code
  | noCompiler {lookups : List Event} : options.wantsBuild = true →
      LooksUp options.compiler lookups none → CommandCourse options lookups none [] 4
  | compiler {lookups work : List Event} {path : Path} {code : Nat} : options.wantsBuild = true →
      LooksUp options.compiler lookups (some path) → Course options (some path) work code →
      CommandCourse options lookups (some path) work code

/-! ## What each part does -/

section Build

variable {oracle : Oracle}

theorem brings_searchFirst (names : List String) :
    Brings (Build.searchFirst names : Recorded oracle (Option Path)) (Searches names) := by
  induction names with
  | nil => exact .pure .nowhere
  | cons name names ih =>
    refine (Brings.call fun _ => rfl).bind fun done answer called => ?_
    subst called
    cases answer with
    | some path => exact .pure .found
    | none => exact ih.mono fun done found searches => searches.next

theorem brings_findCompiler (wanted : Option Path) :
    Brings (Build.findCompiler wanted : Recorded oracle (Except BuildError Path))
      fun done result => LooksUp wanted done result.toOption := by
  cases wanted with
  | none =>
    refine (brings_searchFirst _).bind fun done found searches => ?_
    cases found with
    | some path => exact .pure (by rw [List.append_nil]; exact .usual searches)
    | none => exact .pure (by rw [List.append_nil]; exact .usual searches)
  | some path =>
    refine (Brings.call fun _ => rfl).bind fun done isFile called => ?_
    subst called
    cases isFile with
    | true => exact .pure .file
    | false =>
      refine (Brings.call fun _ => rfl).bind fun done found called => ?_
      subst called
      cases found with
      | some path => exact .pure .program
      | none => exact .pure .program

private theorem isBuildable_iff {output : Path} :
    Build.isBuildable output output.executable = true ↔ Fits output := by
  simp [Build.isBuildable, Fits]

/-- What having an executable made comes to. -/
inductive BuildAttempt (compiler source target : Path) : List Event → Except BuildError Unit → Prop where
  | refused {error : BuildError} : Build.isBuildable source target = false →
      BuildAttempt compiler source target [] (.error error)
  | failed {answer : Except SystemError Completion} {error : BuildError} :
      Build.isBuildable source target = true → ¬ Succeeded answer →
      BuildAttempt compiler source target [.compiled compiler source target answer] (.error error)
  | built {answer : Except SystemError Completion} :
      Build.isBuildable source target = true → Succeeded answer →
      BuildAttempt compiler source target [.compiled compiler source target answer] (.ok ())

theorem brings_build {log : Log.Entry → Recorded oracle Unit} (silent : ∀ entry, Silent (log entry))
    (compiler source target : Path) :
    Brings (Build.build log compiler source target) (BuildAttempt compiler source target) := by
  rw [Build.build]
  split
  · rename_i buildable
    refine (silent _).bind fun _ => (Brings.call fun _ => rfl).bind fun done answer called => ?_
    subst called
    cases answer with
    | error reason =>
      exact .pure (.failed buildable fun ⟨completion, impossible, _⟩ => by cases impossible)
    | ok completion =>
      dsimp only
      split
      · rename_i isSuccess
        exact .pure (.built buildable ⟨completion, rfl, by simpa [ExitStatus.isSuccess] using isSuccess⟩)
      · rename_i isFailure
        refine .pure (.failed buildable fun ⟨other, same, ended⟩ => isFailure ?_)
        cases same
        rw [ended]
        rfl
  · rename_i unfit
    exact .pure (.refused (by simpa using unfit))

theorem brings_execute {log : Log.Entry → Recorded oracle Unit} (silent : ∀ entry, Silent (log entry))
    (executable : Path) :
    Brings (Build.execute log executable) fun done result =>
      ∃ answer, done = [.ran (Build.programPath executable) answer] ∧
        result = answer.mapError (.startFailed (Build.programPath executable)) := by
  refine (silent _).bind fun _ => (Brings.call fun _ => rfl).bind fun done answer called => ?_
  subst called
  cases answer with
  | error reason => exact .pure ⟨_, rfl, rfl⟩
  | ok status => exact .pure ⟨_, rfl, rfl⟩

end Build

namespace Session

variable {oracle : Oracle}

theorem brings_writeOutput (session : Session) (text : String) :
    Brings (session.writeOutput text : Recorded oracle (Except SystemError Unit))
      fun done answer => done = [.wrote session.output text answer] := by
  refine (Brings.call fun _ => rfl).bind fun done answer called => ?_
  subst called
  cases answer with
  | error reason => exact .pure rfl
  | ok => exact (session.silent_log _).bind fun _ => .pure rfl

private theorem number_ofStatus (status : ExitStatus) :
    (ExitCode.ofStatus status).number = codeAfter (.ok status) := by
  cases status with
  | killed => rfl
  | exited code =>
    rw [ExitCode.ofStatus, ExitStatus.code?, codeAfter]
    dsimp only
    by_cases fits : code < 256
    · rw [if_pos fits, if_pos (by omega)]
      rfl
    · rw [if_neg fits, if_neg (by omega)]
      rfl

theorem brings_runExecutable (session : Session) (executable : Path) :
    Brings (session.runExecutable executable : Recorded oracle ExitCode) fun done code =>
      ∃ ending, done = [.ran (Build.programPath executable) ending] ∧ code.number = codeAfter ending := by
  refine (brings_execute session.silent_log executable).bind fun done result ran => ?_
  obtain ⟨answer, rfl, rfl⟩ := ran
  cases answer with
  | error reason => exact (Silent.complain _).bind fun _ => .pure ⟨_, rfl, rfl⟩
  | ok status => exact (session.silent_log _).bind fun _ => .pure ⟨_, rfl, number_ofStatus status⟩

theorem brings_buildExecutable (session : Session) (compiler : Path) :
    Brings (session.buildExecutable compiler : Recorded oracle ExitCode) fun done code =>
      BuildCourse session.options compiler done code.number := by
  refine (brings_build session.silent_log compiler session.output session.output.executable).bind
    fun done result attempt => ?_
  cases attempt with
  | refused unfit =>
    refine (Silent.complain _).bind fun _ => .pure (.unfit fun fits => ?_)
    have buildable : Build.isBuildable session.output session.output.executable = true :=
      isBuildable_iff.mpr fits
    rw [unfit] at buildable
    cases buildable
  | failed buildable unsuccessful =>
    exact (Silent.complain _).bind fun _ => .pure (.failed (isBuildable_iff.mp buildable) unsuccessful)
  | built buildable successful =>
    have fits := isBuildable_iff.mp buildable
    refine (Silent.print _).bind fun _ => ?_
    split
    · rename_i run
      refine (session.brings_runExecutable _).mono fun done code ran => ?_
      obtain ⟨ending, rfl, number⟩ := ran
      rw [number]
      exact .ran fits successful run
    · rename_i noRun
      exact .pure (.built fits successful (by simpa using noRun))

theorem brings_deliver (session : Session) {source text : String} (compiled : compile source = .ok text) :
    Brings (session.deliver text : Recorded oracle ExitCode) fun done code =>
      Course session.options session.compiler
        (.read session.options.source (.ok source) :: done) code.number := by
  refine (session.silent_mention _).bind fun _ => (session.silent_mention _).bind fun _ => ?_
  refine (session.brings_writeOutput text).bind fun done answer wrote => ?_
  subst wrote
  cases answer with
  | error reason => exact (Silent.complain _).bind fun _ => .pure (.unwritten compiled)
  | ok =>
    refine (Silent.print _).bind fun _ => ?_
    split
    · rename_i none
      exact .pure (.written compiled none)
    · rename_i compiler found
      exact (session.brings_buildExecutable compiler).mono fun done code course =>
        .built compiled found course

theorem brings_compileText (session : Session) (source : String) :
    Brings (session.compileText source : Recorded oracle ExitCode) fun done code =>
      Course session.options session.compiler
        (.read session.options.source (.ok source) :: done) code.number := by
  refine (session.silent_log _).bind fun _ => (session.silent_logAll _).bind fun _ => ?_
  split
  · rename_i failure halted
    have refused : compile source = .error failure := by
      rw [compile, halted]
      rfl
    exact (session.silent_log _).bind fun _ => (Silent.complain _).bind fun _ => .pure (.refused refused)
  · rename_i emitter completed
    exact session.brings_deliver (by rw [compile, completed]; rfl)

theorem brings_process (session : Session) :
    Brings (session.process : Recorded oracle ExitCode) fun done code =>
      Course session.options session.compiler done code.number := by
  refine (Brings.call fun _ => rfl).bind fun done answer called => ?_
  subst called
  cases answer with
  | error reason => exact (Silent.complain _).bind fun _ => .pure .unreadable
  | ok source => exact session.brings_compileText source

end Session

section Command

variable {oracle : Oracle}

/-- The call asks where a path leads. -/
def Event.IsResolution (event : Event) : Prop :=
  ∃ path answer, event = .resolved path answer

theorem brings_resolve (paths : List Path) :
    Brings (Watch.resolve paths : Recorded oracle (Except BuildError Watch))
      fun done _ => ∀ event ∈ done, event.IsResolution := by
  induction paths with
  | nil => exact .pure (by simp)
  | cons path paths ih =>
    refine (Brings.call fun _ => rfl).bind fun done answer called => ?_
    subst called
    have first : (Event.resolved path answer).IsResolution := ⟨path, answer, rfl⟩
    cases answer with
    | error reason => exact .pure (by simpa using first)
    | ok found =>
      refine ih.bind fun done result resolutions => ?_
      cases result <;> exact .pure (by simpa using ⟨first, resolutions⟩)

theorem brings_startWatch (session : Session) :
    Brings (startWatch session : Recorded oracle Next)
      fun done _ => ∀ event ∈ done, event.IsResolution := by
  have watches : Brings (Watch.start session.log [session.options.source] : Recorded oracle _)
      fun done _ => ∀ event ∈ done, event.IsResolution :=
    (session.silent_log _).bind fun _ => brings_resolve _
  refine watches.bind fun done result resolutions => ?_
  cases result with
  | error error => exact (Silent.complain _).bind fun _ => .pure (by simpa using resolutions)
  | ok watch => exact (Silent.print _).bind fun _ => .pure (by simpa using resolutions)

/-- Everything is done as the course says, and then the source may be watched. -/
def Passes (options : Options) (course : List Event → Nat → Prop) (done : List Event) (next : Next) :
    Prop :=
  ∃ work watching code, done = work ++ watching ∧ course work code.number ∧
    (∀ event ∈ watching, event.IsResolution) ∧
    (options.watch = false → watching = [] ∧ next = .exit code)

theorem brings_processAndWatch (session : Session) :
    Brings (processAndWatch session : Recorded oracle Next)
      (Passes session.options (Course session.options session.compiler)) := by
  refine session.brings_process.bind fun work code course => ?_
  split
  · rename_i watch
    refine (brings_startWatch session).mono fun watching next resolutions => ?_
    exact ⟨work, watching, code, rfl, course, resolutions, fun unwatched => by simp [watch] at unwatched⟩
  · exact .pure ⟨work, [], code, rfl, course, by simp, fun _ => ⟨rfl, rfl⟩⟩

theorem brings_compileSource (options : Options) :
    Brings (compileSource options : Recorded oracle Next)
      fun done next => ∃ lookups work found, done = lookups ++ work ∧
        Passes options (CommandCourse options lookups found) work next := by
  refine (silent_logFilter _).bind fun filter => silent_paintsLog.bind fun painted => ?_
  refine (Session.silent_mention _ _).bind fun _ => (Session.silent_mention _ _).bind fun _ => ?_
  refine (Session.silent_mention _ _).bind fun _ => (Session.silent_mention _ _).bind fun _ => ?_
  split
  · rename_i build
    refine (brings_findCompiler options.compiler).bind fun lookups result looksUp => ?_
    cases result with
    | error error =>
      exact (Silent.complain _).bind fun _ => .pure
        ⟨lookups, [], none, rfl, [], [], .noCompiler, rfl, .noCompiler build looksUp, by simp,
          fun _ => ⟨rfl, rfl⟩⟩
    | ok compiler =>
      refine (Session.silent_mention _ _).bind fun _ => ?_
      refine (brings_processAndWatch _).mono fun done next passes => ?_
      obtain ⟨work, watching, code, rfl, course, watched⟩ := passes
      exact ⟨lookups, _, some compiler, rfl, work, watching, code, rfl,
        .compiler build looksUp course, watched⟩
  · rename_i noBuild
    refine (brings_processAndWatch _).mono fun done next passes => ?_
    obtain ⟨work, watching, code, rfl, course, watched⟩ := passes
    exact ⟨[], _, none, rfl, work, watching, code, rfl, .plain (by simpa using noBuild) course, watched⟩

end Command

/-! ## Order -/

/-- Whether a call starts a program. -/
def Event.starts : Event → Bool
  | compiled _ _ _ _ | ran _ _ => true
  | _ => false

/-- One call comes before the other. -/
def Precedes (first second : Event) (work : List Event) : Prop :=
  ∃ front middle back, work = front ++ first :: (middle ++ second :: back)

/-- Nothing is written and nothing is started. -/
def Untouched (work : List Event) : Prop :=
  (∀ path text answer, .wrote path text answer ∉ work) ∧ ∀ event ∈ work, event.starts = false

/-- Each step is taken only after the one before it, and a failure ends the command with its own exit
code. -/
structure Orderly (options : Options) (compiler : Option Path) (work : List Event) (code : Nat) :
    Prop where
  noCompiler : options.wantsBuild = true → compiler = none → code = 4 ∧ work = []
  unreadable : ∀ reason, .read options.source (.error reason) ∈ work → code = 3 ∧ Untouched work
  refused : ∀ text failure, .read options.source (.ok text) ∈ work →
    compile text = .error failure → code = 1 ∧ Untouched work
  writes : ∀ path text answer, .wrote path text answer ∈ work → path = options.outputPath ∧
    ∃ source, compile source = .ok text ∧
      Precedes (.read options.source (.ok source)) (.wrote path text answer) work
  builds : ∀ path source target answer, .compiled path source target answer ∈ work →
    options.wantsBuild = true ∧ compiler = some path ∧ source = options.outputPath ∧
      target = options.outputPath.executable ∧ Fits options.outputPath ∧
      ∃ text, Precedes (.wrote options.outputPath text (.ok ()))
        (.compiled path source target answer) work
  unfit : ∀ text, .wrote options.outputPath text (.ok ()) ∈ work → options.wantsBuild = true →
    ¬ Fits options.outputPath → code = 5 ∧ ∀ event ∈ work, event.starts = false
  runs : ∀ program ending, .ran program ending ∈ work → options.run = true ∧
    program = Build.programPath options.outputPath.executable ∧ code = codeAfter ending ∧
      ∃ path answer, Succeeded answer ∧
        Precedes (.compiled path options.outputPath options.outputPath.executable answer)
          (.ran program ending) work

namespace BuildCourse

variable {options : Options} {compiler : Path} {done : List Event} {code : Nat}
  (course : BuildCourse options compiler done code)

include course

theorem starts {event : Event} (member : event ∈ done) : event.starts = true := by
  cases course with
  | unfit => cases member
  | failed | built =>
    obtain rfl := List.mem_singleton.mp member
    rfl
  | ran => rcases List.mem_pair.mp member with rfl | rfl <;> rfl

theorem of_compiled {path source target : Path} {answer : Except SystemError Completion}
    (member : .compiled path source target answer ∈ done) :
    path = compiler ∧ source = options.outputPath ∧ target = options.outputPath.executable ∧
      Fits options.outputPath ∧ ∃ back, done = .compiled path source target answer :: back := by
  cases course with
  | unfit => cases member
  | failed fits | built fits =>
    cases List.mem_singleton.mp member
    exact ⟨rfl, rfl, rfl, fits, [], rfl⟩
  | ran fits =>
    rcases List.mem_pair.mp member with same | same
    · cases same
      exact ⟨rfl, rfl, rfl, fits, _, rfl⟩
    · cases same

private theorem of_ran {program : Path} {ending : Except SystemError ExitStatus}
    (member : .ran program ending ∈ done) :
    options.run = true ∧ program = Build.programPath options.outputPath.executable ∧
      code = codeAfter ending ∧ ∃ answer, Succeeded answer ∧
        done = [.compiled compiler options.outputPath options.outputPath.executable answer,
          .ran program ending] := by
  cases course with
  | unfit => cases member
  | failed | built => cases List.mem_singleton.mp member
  | ran fits succeeded run =>
    rcases List.mem_pair.mp member with same | same
    · cases same
    · cases same
      exact ⟨run, rfl, rfl, _, succeeded, rfl⟩

private theorem of_unfit (misfit : ¬ Fits options.outputPath) : done = [] ∧ code = 5 := by
  cases course with
  | unfit => exact ⟨rfl, rfl⟩
  | failed fits | built fits | ran fits => exact absurd fits misfit

end BuildCourse

namespace Course

variable {options : Options} {compiler : Option Path} {work : List Event} {code : Nat}
  (course : Course options compiler work code)

include course

theorem of_unreadable {reason : SystemError} (member : .read options.source (.error reason) ∈ work) :
    code = 3 ∧ Untouched work := by
  cases course with
  | unreadable => exact ⟨rfl, by simp [Untouched, Event.starts]⟩
  | refused | unwritten | written => simp at member
  | built _ _ build =>
    have later := by simpa using member
    cases build.starts later

theorem of_refused {text : String} {failure : Failure} (member : .read options.source (.ok text) ∈ work)
    (failed : compile text = .error failure) : code = 1 ∧ Untouched work := by
  cases course with
  | unreadable => simp at member
  | refused => exact ⟨rfl, by simp [Untouched, Event.starts]⟩
  | unwritten compiled | written compiled => simp_all
  | built compiled _ build =>
    rcases List.mem_cons.mp member with same | later
    · cases same
      simp_all
    · have later := by simpa using later
      cases build.starts later

theorem of_wrote {path : Path} {text : String} {answer : Except SystemError Unit}
    (member : .wrote path text answer ∈ work) :
    path = options.outputPath ∧ ∃ source back, compile source = .ok text ∧
      work = .read options.source (.ok source) :: .wrote path text answer :: back := by
  cases course with
  | unreadable | refused => simp at member
  | unwritten compiled | written compiled =>
    rcases List.mem_pair.mp member with same | same
    · cases same
    · cases same
      exact ⟨rfl, _, _, compiled, rfl⟩
  | built compiled _ build =>
    rcases List.mem_cons.mp (List.mem_of_ne_of_mem (by simp) member) with same | later
    · cases same
      exact ⟨rfl, _, _, compiled, rfl⟩
    · cases build.starts later

theorem of_started {event : Event} (starts : event.starts = true) (member : event ∈ work) :
    ∃ path source text done, compiler = some path ∧ BuildCourse options path done code ∧ event ∈ done ∧
      work = .read options.source (.ok source) ::
        .wrote options.outputPath text (.ok ()) :: done := by
  cases course with
  | unreadable | refused =>
    cases List.mem_singleton.mp member
    cases starts
  | unwritten | written =>
    rcases List.mem_pair.mp member with rfl | rfl <;> cases starts
  | built _ isSome build =>
    rcases List.mem_cons.mp member with rfl | member
    · cases starts
    rcases List.mem_cons.mp member with rfl | member
    · cases starts
    exact ⟨_, _, _, _, isSome, build, member, rfl⟩

theorem of_unfit {text : String} (member : .wrote options.outputPath text (.ok ()) ∈ work)
    (isSome : compiler ≠ none) (misfit : ¬ Fits options.outputPath) :
    code = 5 ∧ ∀ event ∈ work, event.starts = false := by
  cases course with
  | unreadable | refused | unwritten => simp at member
  | written _ isNone => exact absurd isNone isSome
  | built _ _ build =>
    obtain ⟨rfl, rfl⟩ := build.of_unfit misfit
    exact ⟨rfl, by simp [Event.starts]⟩

end Course

theorem Course.orderly {options : Options} {compiler : Option Path} {work : List Event} {code : Nat}
    (course : Course options compiler work code) (wanted : options.wantsBuild = compiler.isSome) :
    Orderly options compiler work code where
  noCompiler build isNone := by
    rw [wanted, isNone] at build
    cases build
  unreadable reason member := course.of_unreadable member
  refused text failure member failed := course.of_refused member failed
  writes path text answer member := by
    obtain ⟨same, source, back, compiled, rfl⟩ := course.of_wrote member
    exact ⟨same, source, compiled, [], [], back, rfl⟩
  builds path source target answer member := by
    obtain ⟨found, text, cText, done, isSome, build, inside, rfl⟩ := course.of_started rfl member
    obtain ⟨rfl, isSource, isTarget, fits, back, rfl⟩ := build.of_compiled inside
    refine ⟨by rw [wanted, isSome]; rfl, isSome, isSource, isTarget, fits, cText, ?_⟩
    exact ⟨[_], [], back, rfl⟩
  unfit text member build misfit := by
    refine course.of_unfit member (fun isNone => ?_) misfit
    rw [wanted, isNone] at build
    cases build
  runs program ending member := by
    obtain ⟨found, text, cText, done, isSome, build, inside, rfl⟩ := course.of_started rfl member
    obtain ⟨run, isProgram, isCode, answer, succeeded, rfl⟩ := build.of_ran inside
    exact ⟨run, isProgram, isCode, found, answer, succeeded, [_, _], [], [], rfl⟩

theorem CommandCourse.orderly {options : Options} {lookups work : List Event} {compiler : Option Path}
    {code : Nat} (course : CommandCourse options lookups compiler work code) :
    Orderly options compiler work code := by
  cases course with
  | plain unwanted course => exact course.orderly unwanted
  | noCompiler => constructor <;> simp
  | compiler wanted _ course => exact course.orderly wanted

theorem start_eq (oracle : Oracle) {arguments : List String} {options : Options}
    (asked : Invocation.ofArguments arguments (oracle.environmentValue [] "CC") =
      .ok (.compile options)) :
    (start arguments : Recorded oracle Next) [] =
      (compileSource options : Recorded oracle Next)
        [.asked "CC" (oracle.environmentValue [] "CC")] := by
  simp only [start, bind, Host.environmentValue, Recorded.call, asked]
  rfl

/-- Whatever the answers to its calls are, the command looks for a C compiler if it needs one, then reads,
writes, builds and runs in this order as far as it comes, and ends with the exit code that belongs to
where it stopped. -/
theorem command_in_order (oracle : Oracle) {arguments : List String} {options : Options}
    (asked : Invocation.ofArguments arguments (oracle.environmentValue [] "CC") =
      .ok (.compile options))
    (unwatched : options.watch = false) :
    ∃ code events lookups compiler work,
      (start arguments : Recorded oracle Next) [] = (.exit code, events) ∧
      deeds events = lookups ++ work ∧
      CommandCourse options lookups compiler work code.number ∧
      Orderly options compiler work code.number := by
  have brings : Brings (compileSource options : Recorded oracle Next) _ := brings_compileSource options
  obtain ⟨events, next, same, lookups, done, compiler, split, work, watching, code, rfl, course, -,
    ended⟩ := brings [.asked "CC" (oracle.environmentValue [] "CC")]
  obtain ⟨rfl, rfl⟩ := ended unwatched
  refine ⟨code, _, lookups, compiler, work, (start_eq oracle asked).trans same, ?_, course,
    course.orderly⟩
  rw [List.append_nil] at split
  rw [← split]
  rfl

/-- Answers under which everything goes well and the program ends with the code 7. -/
def sevenOracle : Oracle where
  environmentValue _ _ := none
  readText _ _ := .ok "PRINT 1\n"
  writeText _ _ _ := .ok ()
  isFile _ _ := false
  search _ name := if name.text = "gcc" then some ⟨"/usr/bin/gcc"⟩ else none
  startCompiler _ _ _ _ := .ok { status := .exited 0, errors := "" }
  startProgram _ _ := .ok (.exited 7)
  canonical _ path := .ok path

theorem command_in_order_seven :
    Invocation.ofArguments ["one.teeny", "--run"] none =
      .ok (.compile { source := ⟨"one.teeny"⟩, run := true }) ∧
    ((start ["one.teeny", "--run"] : Recorded sevenOracle Next) []).1 = .exit (.program 7) ∧
    ∃ code events lookups compiler work,
      (start ["one.teeny", "--run"] : Recorded sevenOracle Next) [] = (.exit code, events) ∧
      deeds events = lookups ++ work ∧
      CommandCourse { source := ⟨"one.teeny"⟩, run := true } lookups compiler work code.number ∧
      Orderly { source := ⟨"one.teeny"⟩, run := true } compiler work code.number := by
  have asked : Invocation.ofArguments ["one.teeny", "--run"] none =
      .ok (.compile { source := ⟨"one.teeny"⟩, run := true }) := by decide +kernel
  exact ⟨asked, by decide +kernel, command_in_order sevenOracle asked rfl⟩

end TeenyBasic.Command
