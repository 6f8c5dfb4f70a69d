import TeenyBasic.Machine.Shell

/-!
Starting programs: the tools that come with the machine, and files that are scripts of the shell.
-/

set_option autoImplicit false

namespace TeenyBasic.Machine

def Start.done (start : Start) (output : ByteArray) : Finish :=
  { tree := start.tree
    status := .exited 0
    output := output
    errors := ByteArray.empty
    input := start.input }

def Start.fail (start : Start) (message : String) : Finish :=
  { tree := start.tree
    status := .exited 1
    output := ByteArray.empty
    errors := (message ++ "\n").toUTF8
    input := start.input }

def concatenate (start : Start) : Finish :=
  match start.arguments.drop 1 with
  | [] => { start.done start.input with input := ByteArray.empty }
  | names =>
    names.foldl
      (fun finish name =>
        match start.tree.read start.directory { text := name } with
        | .ok bytes => { finish with output := finish.output ++ bytes }
        | .error reason =>
          { finish with
            status := .exited 1
            errors := finish.errors ++ ("cat: " ++ name ++ ": " ++ reason.description ++ "\n").toUTF8 })
      (start.done ByteArray.empty)

/-- Whether a mode makes files executable: letters after a plus sign, or octal digits. Other modes
leave that alone. -/
def executableMode? (mode : String) : Option Bool :=
  let letters := mode.toList
  if letters.contains '+' then if letters.contains 'x' then some true else none
  else if letters.contains '-' then if letters.contains 'x' then some false else none
  else if letters.all Char.isDigit then some (letters.any fun digit => digit.toNat % 2 = 1)
  else none

def changeMode (start : Start) : Finish :=
  match start.arguments.drop 1 with
  | [] => start.fail "chmod: missing operand"
  | mode :: names =>
    match executableMode? mode with
    | none => start.done ByteArray.empty
    | some executable =>
      names.foldl
        (fun finish name =>
          match finish.tree.setExecutable start.directory { text := name } executable with
          | .ok tree => { finish with tree := tree }
          | .error reason =>
            { finish with
              status := .exited 1
              errors := finish.errors ++
                ("chmod: cannot access '" ++ name ++ "': " ++ reason.description ++ "\n").toUTF8 })
        (start.done ByteArray.empty)

def isLineBlank (c : Char) : Bool :=
  c == ' ' || c == '\t'

/-- The interpreter a script names in its first line, and the argument that stands after it. -/
def interpreter? (text : String) : Option (Path × Option String) :=
  match text.toList with
  | '#' :: '!' :: rest =>
    let line := (rest.takeWhile (· != '\n')).dropWhile isLineBlank
    let trimmed := (line.reverse.dropWhile isLineBlank).reverse
    let name := trimmed.takeWhile fun c => !isLineBlank c
    let argument := (trimmed.drop name.length).dropWhile isLineBlank
    if name.isEmpty then none
    else
      some ({ text := String.ofList name },
        if argument.isEmpty then none else some (String.ofList argument))
  | _ => none

/-- Starts the shell with a script file as its argument, or with nothing to do. -/
def startShell (launch : Launch) (start : Start) : List String → Finish
  | [] => start.done ByteArray.empty
  | "-c" :: text :: others =>
    Shell.runScript launch { start with arguments := if others.isEmpty then ["sh"] else others } text
  | name :: others =>
    if name.startsWith "-" then startShell launch start others
    else
      match start.tree.read start.directory { text := name } with
      | .ok bytes =>
        Shell.runScript launch { start with arguments := name :: others } (Text.ofBytes bytes)
      | .error reason => start.fail ("sh: " ++ name ++ ": " ++ reason.description)

def runCommand (launch : Launch) (start : Start) : Finish :=
  match launch { start with arguments := start.arguments.drop 1 } with
  | .ok finish => finish
  | .error reason =>
    let name := (start.arguments[1]?).getD ""
    { start.fail ("env: '" ++ name ++ "': " ++ reason.description) with
      status := .exited (if reason = .notFound then 127 else 126) }

def interpreterDepth : Nat := 5

/-- Starts what was found at a path. A script starts the interpreter it names, with the script as an
argument. -/
def startNode (launch : Launch) : Nat → Start → Path → Node → Except SystemError Finish
  | 0, _, _, _ => .error .tooManySteps
  | depth + 1, start, path, node =>
    match node with
    | .tool .shell => .ok (startShell launch start (start.arguments.drop 1))
    | .tool .concatenate => .ok (concatenate start)
    | .tool .changeMode => .ok (changeMode start)
    | .tool .runCommand => .ok (runCommand launch start)
    | .file bytes _ =>
      match interpreter? (Text.ofBytes bytes) with
      | none => .error .notExecutable
      | some (interpreter, argument) => do
        let found ← start.tree.program start.directory interpreter
        let arguments :=
          interpreter.text :: argument.toList ++ path.text :: start.arguments.drop 1
        startNode launch depth { start with arguments := arguments } interpreter found
    | _ => .error .permissionDenied

/-- Starts a program by its name, which may start others, down to the given depth. -/
def launch : Nat → Launch
  | 0, _ => .error (.other "Too many programs are running")
  | depth + 1, start =>
    if start.arguments.any fun argument => argument.toList.contains '\x00' then
      .error .endInArgument
    else do
      let name : Path := { text := start.arguments.head?.getD "" }
      let (path, node) ← findStartable start.tree start.directory start.environment name
      startNode (launch depth) interpreterDepth start path node

end TeenyBasic.Machine
