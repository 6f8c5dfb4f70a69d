import TeenyBasic.Command.Host
import TeenyBasic.Command.Log

/-!
Building and running the C text, and watching its source.
-/

set_option autoImplicit false

namespace TeenyBasic

inductive BuildError where
  | compilerNotFound
  | invalidCompiler (path : Path)
  | notCFile (path : Path)
  | startFailed (program : Path) (reason : SystemError)
  | buildFailed (completion : Completion)
  | unresolvedPath (path : Path) (reason : SystemError)
  deriving DecidableEq, Repr

def BuildError.message : BuildError → String
  | compilerNotFound =>
    "No C compiler found. Install cc, gcc or clang, or specify one with --cc or CC"
  | invalidCompiler path => "C compiler path does not exist: " ++ path.text
  | notCFile path =>
    "Cannot build " ++ path.text ++ ": the generated C file must have a .c extension"
  | startFailed program reason =>
    "Failed to start " ++ program.text ++ ": " ++ reason.message
  | buildFailed completion =>
    "C compiler failed with " ++ completion.status.describe ++ ":\n" ++ completion.errors
  | unresolvedPath path reason =>
    "File watch error: Cannot resolve path " ++ path.text ++ ": " ++ reason.message

namespace Build

def compilerNames : List String := ["cc", "gcc", "clang"]

/-- Whether a C compiler can make `target` from `source`: the C file has to be named as one, or it
would be taken for something else, and must not be overwritten. -/
def isBuildable (source target : Path) : Bool :=
  source.extension? == some "c" && !source.equivalent target

/-- What has to be started to run an executable. A lone name would be searched for elsewhere, so it is
looked up in the current directory. -/
def programPath (executable : Path) : Path :=
  if executable.components.length = 1 ∧ executable.isAbsolute = false then
    Path.join { text := "." } executable
  else
    executable

def logPart : String := "teenytiny::runner::cc"

def buildEntry (compiler source target : Path) : Log.Entry :=
  { level := .info
    part := logPart
    message := "building " ++ source.text ++ " -> " ++ target.text ++ " with " ++ compiler.text }

def runEntry (program : Path) : Log.Entry :=
  { level := .info, part := logPart, message := "running " ++ program.text }

section Actions

variable {m : Type → Type} [Monad m] [Host m]

def searchFirst : List String → m (Option Path)
  | [] => return none
  | name :: others => do
    match ← Host.search { text := name } with
    | some path => return some path
    | none => searchFirst others

/-- Finds the C compiler. One that is asked for may be a file or the name of a program. -/
def findCompiler (wanted : Option Path) : m (Except BuildError Path) := do
  match wanted with
  | some path =>
    if ← Host.isFile path then
      return .ok path
    match ← Host.search path with
    | some found => return .ok found
    | none => return .error (.invalidCompiler path)
  | none =>
    match ← searchFirst compilerNames with
    | some found => return .ok found
    | none => return .error .compilerNotFound

def build (log : Log.Entry → m Unit) (compiler source target : Path) :
    m (Except BuildError Unit) := do
  if isBuildable source target then
    log (buildEntry compiler source target)
    match ← Host.startCompiler compiler source target with
    | .error reason => return .error (.startFailed compiler reason)
    | .ok completion =>
      if completion.status.isSuccess then
        return .ok ()
      else
        return .error (.buildFailed completion)
  else
    return .error (.notCFile source)

def execute (log : Log.Entry → m Unit) (executable : Path) : m (Except BuildError ExitStatus) := do
  let program := programPath executable
  log (runEntry program)
  match ← Host.startProgram program with
  | .error reason => return .error (.startFailed program reason)
  | .ok status => return .ok status

end Actions

end Build

/-- The files that are watched, by their paths from the root. -/
structure Watch where
  paths : List Path
  deriving DecidableEq, Repr

namespace Watch

/-- The steps to the directory of a path, if the path does not end at the root. -/
def directory? (path : Path) : Option (List Component) :=
  match path.components.getLast? with
  | none => none
  | some .root => none
  | some _ => some path.components.dropLast

def registrationEntry : Log.Entry :=
  { level := .trace
    part := "mio::poll"
    message := "registering event source with poller: token=Token(0), interests=READABLE" }

/-- Whether a path is one of those watched: the same steps, or the same name in the same directory. -/
def holds (watch : Watch) (path : Path) : Bool :=
  watch.paths.any fun watched =>
    path.equivalent watched ||
      (path.fileName? == watched.fileName? && directory? path == directory? watched)

section Actions

variable {m : Type → Type} [Monad m] [Host m]

/-- Finds the files to be watched. Each has to exist. -/
def resolve : List Path → m (Except BuildError Watch)
  | [] => return .ok { paths := [] }
  | path :: others => do
    match ← Host.canonical path with
    | .error reason => return .error (.unresolvedPath path reason)
    | .ok found =>
      match ← resolve others with
      | .error error => return .error error
      | .ok watch => return .ok { paths := found :: watch.paths }

def start (log : Log.Entry → m Unit) (paths : List Path) : m (Except BuildError Watch) := do
  log registrationEntry
  resolve paths

/-- Whether a path leads to one of the files watched. A path that leads nowhere is compared as it
stands. -/
def leadsTo (watch : Watch) (path : Path) : m Bool := do
  match ← Host.canonical path with
  | .ok found => return watch.holds found
  | .error _ => return watch.holds path

end Actions

end Watch

end TeenyBasic
