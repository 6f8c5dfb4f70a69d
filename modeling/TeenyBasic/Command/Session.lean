import TeenyBasic.Command.Build
import TeenyBasic.Command.Options
import TeenyBasic.Compile
import TeenyBasic.Report.Drawn

/-!
The command: reads a source file, compiles it, writes the C file and, if asked to, builds and runs
it. Each step happens only if the one before it succeeded; the exit code tells which one failed.
-/

set_option autoImplicit false

namespace TeenyBasic.Command

structure Session where
  options : Options
  filter : Log.Filter
  painted : Bool := false
  compiler : Option Path := none
  deriving DecidableEq, Repr

inductive ExitCode where
  | success
  | refused
  | usage
  | unreadable
  | noCompiler
  | buildFailed
  | watchFailed
  /-- The code of the program that was run. -/
  | program (code : Nat)
  deriving DecidableEq, Repr

def ExitCode.number : ExitCode → Nat
  | success => 0
  | refused => 1
  | usage => 2
  | unreadable => 3
  | noCompiler => 4
  | buildFailed => 5
  | watchFailed => 6
  | program code => code

/-- The exit code after a program has been run: its own, if there is one and it fits a byte. -/
def ExitCode.ofStatus (status : ExitStatus) : ExitCode :=
  match status.code? with
  | some code => if code < 256 then .program code else .refused
  | none => .refused

def logPart : String := "teenytiny"

namespace Session

def output (session : Session) : Path :=
  session.options.outputPath

def fileName (session : Session) : String :=
  session.options.source.fileName?.getD unnamedFile

def report (session : Session) (source : String) (failure : Failure) : String :=
  if session.options.plain then Report.plain failure.diagnostic source (some session.fileName)
  else Report.drawn failure.diagnostic source (some session.fileName) false

section Actions

variable {m : Type → Type} [Monad m] [Host m]

def log (session : Session) (entry : Log.Entry) : m Unit :=
  if session.filter.shows entry then Host.complain (entry.line session.painted) else pure ()

def logAll (session : Session) (entries : List Log.Entry) : m Unit :=
  entries.forM session.log

/-- Prints a line that only a verbose session shows. -/
def mention (session : Session) (line : String) : m Unit :=
  if session.options.verbose then Host.print (line ++ "\n") else pure ()

def complain (message : String) : m Unit :=
  Host.complain ("Error: " ++ message ++ "\n")

def writeOutput (session : Session) (text : String) : m (Except SystemError Unit) := do
  match ← Host.writeText session.output text with
  | .error reason => return .error reason
  | .ok () =>
    session.log
      { level := .debug
        part := "teenytiny::output::c"
        message :=
          "wrote " ++ toString text.utf8ByteSize ++ " bytes to " ++ session.output.text }
    return .ok ()

def runExecutable (session : Session) (executable : Path) : m ExitCode := do
  match ← Build.execute session.log executable with
  | .error error =>
    complain error.message
    return .buildFailed
  | .ok status =>
    session.log
      { level := .info, part := logPart, message := "program exited with " ++ status.describe }
    return .ofStatus status

def buildExecutable (session : Session) (compiler : Path) : m ExitCode := do
  let executable := session.output.executable
  match ← Build.build session.log compiler session.output executable with
  | .error error =>
    complain error.message
    return .buildFailed
  | .ok () =>
    Host.print ("Built " ++ executable.text ++ "\n")
    if session.options.run then session.runExecutable executable else return .success

def deliver (session : Session) (text : String) : m ExitCode := do
  session.mention ("Generated " ++ toString text.utf8ByteSize ++ " bytes of C")
  session.mention ("Writing " ++ session.output.text ++ "...")
  match ← session.writeOutput text with
  | .error reason =>
    complain ("Cannot write " ++ session.output.text ++ ": " ++ reason.message)
    return .refused
  | .ok () =>
    Host.print ("Translated " ++ session.fileName ++ " -> " ++ session.output.text ++ "\n")
    match session.compiler with
    | none => return .success
    | some compiler => session.buildExecutable compiler

def compileText (session : Session) (source : String) : m ExitCode := do
  session.log
    { level := .info
      part := logPart
      message := "translating " ++ session.options.source.text }
  let emission := emission source
  session.logAll (emission.notes.toList.map Log.Entry.ofNote)
  match emission.outcome with
  | .error failure =>
    session.log
      { level := .debug
        part := logPart
        message := "translation failed: " ++ failure.diagnostic.summary }
    Host.complain (session.report source failure)
    return .refused
  | .ok emitter => session.deliver emitter.finish

def process (session : Session) : m ExitCode := do
  match ← Host.readText session.options.source with
  | .error reason =>
    complain ("Cannot read " ++ session.options.source.text ++ ": " ++ reason.message)
    return .unreadable
  | .ok source => session.compileText source

def processAgain (session : Session) : m Unit := do
  Host.print "\n"
  if session.options.verbose then
    Host.print "Change detected, translating...\n"
  else
    Host.print "Translating...\n"
  let code ← session.process
  if code.number ≠ 0 then
    Host.print "Fix errors and save to retry.\n"

end Actions

end Session

inductive Next where
  | exit (code : ExitCode)
  | await (session : Session) (watch : Watch)
  deriving DecidableEq, Repr

section Actions

variable {m : Type → Type} [Monad m] [Host m]

/-- Whether messages are painted where nothing else is said. None of them goes to a terminal, so that
they are only if the environment insists. -/
def paints : m Bool := do
  let refused := (← Host.environmentValue "NO_COLOR").getD ""
  let forced := (← Host.environmentValue "CLICOLOR_FORCE").getD "0"
  return refused == "" && forced != "0"

def paintsLog : m Bool := do
  match ← Host.environmentValue "RUST_LOG_STYLE" with
  | some "always" => return true
  | some "never" => return false
  | _ => paints

/-- The filter for the log. The environment decides if it asks for one. -/
def logFilter (verbose : Bool) : m Log.Filter := do
  let wanted := (← Host.environmentValue "RUST_LOG").getD (if verbose then "debug" else "warn")
  let (filter, complaints) := Log.Filter.ofText wanted
  complaints.forM fun complaint => Host.complain complaint.line
  return filter

def startWatch (session : Session) : m Next := do
  match ← Watch.start session.log [session.options.source] with
  | .error error =>
    Session.complain ("Failed to create file watcher: " ++ error.message)
    return .exit .watchFailed
  | .ok watch =>
    Host.print "\nWatching for changes... (Press Ctrl+C to stop)\n"
    return .await session watch

/-- Goes through all steps, and watches the source file afterwards if asked to. -/
def processAndWatch (session : Session) : m Next := do
  let code ← session.process
  if session.options.watch then startWatch session else return .exit code

/-- Finds the C compiler if one is needed, before anything else is done. -/
def compileSource (options : Options) : m Next := do
  let filter ← logFilter options.verbose
  let session : Session := { options := options, filter := filter, painted := ← paintsLog }
  session.mention (languageName ++ " Compiler v" ++ version)
  session.mention ("Source: " ++ options.source.text)
  session.mention ("Output: " ++ session.output.text)
  session.mention ""
  if options.wantsBuild then
    match ← Build.findCompiler options.compiler with
    | .error error =>
      Session.complain error.message
      return .exit .noCompiler
    | .ok compiler =>
      session.mention ("C compiler: " ++ compiler.text)
      processAndWatch { session with compiler := some compiler }
  else
    processAndWatch session

def start (arguments : List String) : m Next := do
  match Invocation.ofArguments arguments (← Host.environmentValue "CC") with
  | .error error =>
    Host.complain (error.text (← paints))
    return .exit .usage
  | .ok .showVersion =>
    Host.print (commandName ++ " " ++ version ++ "\n")
    return .exit .success
  | .ok .showHelp =>
    Host.print (Terminal.render false generalUsage ++ "\n")
    return .exit .success
  | .ok (.compile options) => compileSource options

end Actions

end TeenyBasic.Command
