import TeenyBasic.Machine.Shell.Format
import TeenyBasic.Text.Decode

/-!
The commands that the shell itself knows.
-/

set_option autoImplicit false

namespace TeenyBasic.Machine.Shell

def echo (process : Process) (arguments : List String) : Outcome :=
  match arguments with
  | "-n" :: others => { process := process, output := unescape (" ".intercalate others).toList }
  | others =>
    { process := process, output := unescape (" ".intercalate others).toList ++ bytesOf ['\n'] }

def formatted (process : Process) (arguments : List String) : Outcome :=
  match arguments with
  | [] => { process := process, status := 2 }
  | format :: others =>
    { process := process
      output := fillAll (formatParts [] format.toList) others others.length }

def exit (process : Process) (arguments : List String) : Outcome :=
  let code := match arguments with
    | [] => process.status
    | code :: _ => (number? code).getD 2
  { process := { process with ended := some (.exited (code % 256)) }, status := code % 256 }

def trimFields (text : List Char) : List Char :=
  ((text.dropWhile isSeparator).reverse.dropWhile isSeparator).reverse

/-- Gives a line to variables: a field to each, and the last takes all that is left. -/
def assignFields (process : Process) (line : List Char) : List String → Process
  | [] => process
  | [name] => process.set name (String.ofList (trimFields line))
  | name :: others =>
    let rest := line.dropWhile isSeparator
    assignFields (process.set name (String.ofList (rest.takeWhile (!isSeparator ·))))
      (rest.dropWhile (!isSeparator ·)) others

def readLine (process : Process) (names : List String) : Outcome :=
  let bytes := process.input.toList
  let line := bytes.takeWhile (· != 10)
  let rest := bytes.drop (line.length + 1)
  let text := (Text.ofBytes (ByteArray.mk line.toArray)).toList.filter (· != '\\')
  let process := assignFields process text names
  { process := { process with input := ByteArray.mk rest.toArray }
    status := if line.length < bytes.length then 0 else 1 }

/-- The number of a signal, by number or by name. -/
def signalNumber? (text : String) : Option Nat :=
  match number? text with
  | some number => some number
  | none =>
    let index := ExitStatus.signalNames.findIdx fun name => name == text || name == "SIG" ++ text
    if index < ExitStatus.signalNames.length then some (index + 1) else none

/-- Sends a signal. Only the script itself can be reached. -/
def kill (process : Process) (arguments : List String) : Outcome :=
  let (signal, targets) := match arguments with
    | "-s" :: name :: others => (signalNumber? name, others)
    | first :: others =>
      match first.toList with
      | '-' :: name => (signalNumber? (String.ofList name), others)
      | _ => (some 15, arguments)
    | [] => (some 15, [])
  match signal, targets.contains processNumber with
  | some 0, true => { process := process }
  | some signal, true => { process := { process with ended := some (.killed signal) } }
  | _, _ => { process := process, status := 1 }

def shift (process : Process) (arguments : List String) : Outcome :=
  let count := (arguments.head?.bind number?).getD 1
  { process :=
      { process with
        arguments := process.arguments.take 1 ++ process.parameters.drop count } }

def holds (process : Process) (arguments : List String) : Bool :=
  match arguments with
  | ["-f", path] =>
    (process.tree.read process.directory { text := path }).isOk
  | ["-e", path] => (process.tree.lookUp process.directory { text := path }).isOk
  | ["-x", path] => (process.tree.program process.directory { text := path }).isOk
  | ["-d", path] =>
    match process.tree.lookUp process.directory { text := path } with
    | .ok (_, .directory) => true
    | _ => false
  | ["-n", text] => !text.isEmpty
  | ["-z", text] => text.isEmpty
  | ["!", text] => text.isEmpty
  | [text] => !text.isEmpty
  | [left, "=", right] => left == right
  | [left, "!=", right] => left != right
  | [left, "-eq", right] => number? left == number? right
  | [left, "-ne", right] => number? left != number? right
  | _ => false

def test (process : Process) (arguments : List String) : Outcome :=
  { process := process, status := if holds process arguments then 0 else 1 }

def builtin? (name : String) : Option (Process → List String → Outcome) :=
  match name with
  | "echo" => some echo
  | "printf" => some formatted
  | "exit" => some exit
  | "read" => some fun process arguments => readLine process (arguments.filter (· != "-r"))
  | "kill" => some kill
  | "shift" => some shift
  | "test" => some test
  | "[" => some fun process arguments => test process arguments.dropLast
  | ":" => some fun process _ => { process := process }
  | "true" => some fun process _ => { process := process }
  | "false" => some fun process _ => { process := process, status := 1 }
  | _ => none

end TeenyBasic.Machine.Shell
