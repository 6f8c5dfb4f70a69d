import TeenyBasic.Path

/-!
What the command line needs from the machine it runs on. The command itself is written over any
`Host`, so it can be run on a disk, on a machine in memory, or against answers fixed beforehand.
-/

set_option autoImplicit false

namespace TeenyBasic

inductive SystemError where
  | notFound
  | notExecutable
  | permissionDenied
  | notDirectory
  | isDirectory
  | noSpace
  | nameTooLong
  | tooManySteps
  | notText
  /-- A path holds the character that ends texts inside the machine. -/
  | endInPath
  /-- An argument of a program does. -/
  | endInArgument
  /-- Anything else, in the machine's own words. -/
  | other (description : String)
  deriving DecidableEq, Repr

namespace SystemError

def description : SystemError → String
  | notFound => "No such file or directory"
  | notExecutable => "Exec format error"
  | permissionDenied => "Permission denied"
  | notDirectory => "Not a directory"
  | isDirectory => "Is a directory"
  | noSpace => "No space left on device"
  | nameTooLong => "File name too long"
  | tooManySteps => "Too many levels of symbolic links"
  | notText => "stream did not contain valid UTF-8"
  | endInPath => "file name contained an unexpected NUL byte"
  | endInArgument => "nul byte found in provided data"
  | other description => description

/-- The number the machine has for a refusal. -/
def number? : SystemError → Option Nat
  | notFound => some 2
  | notExecutable => some 8
  | permissionDenied => some 13
  | notDirectory => some 20
  | isDirectory => some 21
  | noSpace => some 28
  | nameTooLong => some 36
  | tooManySteps => some 40
  | _ => none

def message (error : SystemError) : String :=
  match error.number? with
  | some number => error.description ++ " (os error " ++ toString number ++ ")"
  | none => error.description

end SystemError

inductive ExitStatus where
  | exited (code : Nat)
  | killed (signal : Nat)
  deriving DecidableEq, Repr

namespace ExitStatus

/-- The names of the signals, from the first on. -/
def signalNames : List String :=
  ["SIGHUP", "SIGINT", "SIGQUIT", "SIGILL", "SIGTRAP", "SIGABRT", "SIGBUS", "SIGFPE", "SIGKILL",
   "SIGUSR1", "SIGSEGV", "SIGUSR2", "SIGPIPE", "SIGALRM", "SIGTERM", "SIGSTKFLT", "SIGCHLD",
   "SIGCONT", "SIGSTOP", "SIGTSTP", "SIGTTIN", "SIGTTOU", "SIGURG", "SIGXCPU", "SIGXFSZ",
   "SIGVTALRM", "SIGPROF", "SIGWINCH", "SIGIO", "SIGPWR", "SIGSYS"]

def describe : ExitStatus → String
  | exited code => "exit status: " ++ toString code
  | killed signal =>
    "signal: " ++ toString signal ++
      match signal, signalNames[signal - 1]? with
      | 0, _ => ""
      | _, some name => " (" ++ name ++ ")"
      | _, none => ""

/-- The code the program ended with, if it ended by itself. -/
def code? : ExitStatus → Option Nat
  | exited code => some code
  | killed _ => none

def isSuccess (status : ExitStatus) : Bool :=
  status == .exited 0

end ExitStatus

/-- How a C compiler ended, and what it wrote to its error output. -/
structure Completion where
  status : ExitStatus
  errors : String
  deriving DecidableEq, Repr

/-- A machine that the command line can run on. -/
class Host (m : Type → Type) where
  print : String → m Unit
  complain : String → m Unit
  environmentValue : String → m (Option String)
  readText : Path → m (Except SystemError String)
  /-- Makes a file hold a text and nothing else. -/
  writeText : Path → String → m (Except SystemError Unit)
  isFile : Path → m Bool
  /-- Looks for a program by name where programs are kept. -/
  search : Path → m (Option Path)
  startCompiler : (compiler source target : Path) → m (Except SystemError Completion)
  /-- Runs a program on the inputs and outputs of the command. -/
  startProgram : Path → m (Except SystemError ExitStatus)
  /-- The path from the root to a file, without detours. -/
  canonical : Path → m (Except SystemError Path)

end TeenyBasic
