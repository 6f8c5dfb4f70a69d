import TeenyBasic.Command.Search
import TeenyBasic.Command.Session

/-!
The command on the machine it is started on. This layer only carries requests to the disk, the
environment and the two outputs. It cannot start other programs and reports that as a refusal of the
machine.
-/

set_option autoImplicit false

namespace TeenyBasic.Disk

def systemError : IO.Error → SystemError
  | .noFileOrDirectory _ _ _ => .notFound
  | .permissionDenied _ _ _ => .permissionDenied
  | .inappropriateType _ code _ => if code = 20 then .notDirectory else .isDirectory
  | .resourceExhausted _ 28 _ => .noSpace
  | .invalidArgument _ 36 _ => .nameTooLong
  | error => .other (toString error)

/-- Carries out an action and gives a refusal as a value. -/
def attempt {α : Type} (action : IO α) : IO (Except SystemError α) := do
  try
    return .ok (← action)
  catch error =>
    return .error (systemError error)

def attemptOn {α : Type} (path : Path) (action : IO α) : IO (Except SystemError α) :=
  if path.text.toList.contains '\x00' then return .error .endInPath else attempt action

def readBytes (path : Path) : IO (Except SystemError ByteArray) :=
  attemptOn path (IO.FS.readBinFile path.text)

def readText (path : Path) : IO (Except SystemError String) := do
  match ← readBytes path with
  | .error reason => return .error reason
  | .ok bytes =>
    match String.fromUTF8? bytes with
    | some text => return .ok text
    | none => return .error .notText

def isFile (path : Path) : IO Bool := do
  return (← readBytes path).isOk

def firstFile : List Path → IO (Option Path)
  | [] => return none
  | path :: others => do
    if ← isFile path then return some path else firstFile others

def search (name : Path) : IO (Option Path) := do
  let places : SearchPlaces :=
    { directory := { text := (← IO.currentDir).toString }
      home := { text := (← IO.getEnv "HOME").getD "" }
      entries := SearchPlaces.entriesOf ((← IO.getEnv "PATH").getD "") }
  firstFile (places.candidates name)

def cannotStart : SystemError :=
  .other "Operation not supported (os error 95)"

instance : Host IO where
  print text := do
    let output ← IO.getStdout
    output.putStr text
    output.flush
  complain text := do (← IO.getStderr).putStr text
  environmentValue name := IO.getEnv name
  readText := readText
  writeText path text := attemptOn path (IO.FS.writeFile path.text text)
  isFile := isFile
  search := search
  startCompiler _ _ _ := return .error cannotStart
  startProgram _ := return .error cannotStart
  canonical path := attemptOn path do
    let found ← IO.FS.realPath path.text
    return { text := found.toString }

/-- Waits until one of the files holds something else than before. -/
partial def awaitChange (paths : List Path) (before : List (Except SystemError ByteArray)) :
    IO Unit := do
  IO.sleep 200
  let now ← paths.mapM readBytes
  let same := (now.zip before).all fun
    | (.ok new, .ok old) => new == old
    | (.error _, _) => true
    | (.ok _, .error _) => false
  if same then awaitChange paths before

/-- Goes through all steps after every change, without end. -/
partial def watchLoop (session : Command.Session) (watch : Watch) : IO UInt32 := do
  awaitChange watch.paths (← watch.paths.mapM readBytes)
  session.processAgain
  watchLoop session watch

end TeenyBasic.Disk

open TeenyBasic in
def main (arguments : List String) : IO UInt32 := do
  let next : Command.Next ← Command.start arguments
  match next with
  | .exit code => return UInt32.ofNat code.number
  | .await session watch => Disk.watchLoop session watch
