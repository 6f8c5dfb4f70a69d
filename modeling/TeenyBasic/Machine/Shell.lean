import TeenyBasic.Machine.Shell.Builtin

/-!
Running a script, command by command.
-/

set_option autoImplicit false

namespace TeenyBasic.Machine.Shell

def codeOf : ExitStatus → Nat
  | .exited code => code
  | .killed signal => 128 + signal

/-- Runs a program other than the shell itself. -/
def external (launch : Launch) (process : Process) (name : String) (arguments : List String) :
    Outcome :=
  let started := launch
    { tree := process.tree
      directory := process.directory
      environment := process.environment
      arguments := name :: arguments
      input := process.input }
  match started with
  | .ok finish =>
    { process := { process with tree := finish.tree, input := finish.input }
      output := finish.output
      errors := finish.errors
      status := codeOf finish.status }
  | .error reason =>
    let (text, status) := match reason with
      | .permissionDenied => ("Permission denied", 126)
      | _ => ("not found", 127)
    { process := process
      errors := bytesOf
        ((process.arguments.head?.getD "sh") ++ ": " ++ name ++ ": " ++ text ++ "\n").toList
      status := status }

structure Streams where
  output : Channel := .output
  errors : Channel := .errors
  /-- What is read instead of the input of the script. -/
  input : Option ByteArray := none

namespace Streams

def channel (streams : Streams) (descriptor : Nat) : Channel :=
  if descriptor = 2 then streams.errors else streams.output

def redirect (streams : Streams) (descriptor : Nat) (channel : Channel) : Streams :=
  if descriptor = 2 then { streams with errors := channel }
  else if descriptor = 1 then { streams with output := channel }
  else streams

end Streams

def channelOf (process : Process) (streams : Streams) (path : Path) : Channel :=
  match process.tree.stream? process.directory path with
  | some number => streams.channel number
  | none => .file path

/-- Opens what the redirections of a command name, in order. -/
def openStreams (process : Process) (streams : Streams) :
    List Script.Redirection → Except String (Process × Streams)
  | [] => .ok (process, streams)
  | .overwrite descriptor file :: rest =>
    let path : Path := { text := expandWhole process file }
    match process.tree.write process.directory path ByteArray.empty with
    | .ok tree =>
      let channel := channelOf process streams path
      openStreams { process with tree := tree } (streams.redirect descriptor channel) rest
    | .error reason => .error ("cannot create " ++ path.text ++ ": " ++ reason.description)
  | .extend descriptor file :: rest =>
    let path : Path := { text := expandWhole process file }
    match process.tree.extend process.directory path ByteArray.empty with
    | .ok tree =>
      let channel := channelOf process streams path
      openStreams { process with tree := tree } (streams.redirect descriptor channel) rest
    | .error reason => .error ("cannot create " ++ path.text ++ ": " ++ reason.description)
  | .input file :: rest =>
    let path : Path := { text := expandWhole process file }
    match process.tree.read process.directory path with
    | .ok bytes =>
      let isOwn := process.tree.stream? process.directory path == some 0
      openStreams process (if isOwn then streams else { streams with input := some bytes }) rest
    | .error reason => .error ("cannot open " ++ path.text ++ ": " ++ reason.description)
  | .same descriptor source :: rest =>
    openStreams process (streams.redirect descriptor (streams.channel source)) rest

/-- An assignment to a variable: a name, an equals sign, and the value. -/
def assignment? (text : String) : Option (String × String) :=
  let name := text.toList.takeWhile Script.Reading.isNameChar
  match text.toList.dropWhile Script.Reading.isNameChar with
  | '=' :: value =>
    if name.isEmpty then none else some (String.ofList name, String.ofList value)
  | _ => none

def perform (launch : Launch) (process : Process) (words : List Script.Word) : Outcome :=
  match words.flatMap (expand process) with
  | [] => { process := process }
  | name :: arguments =>
    match builtin? name, assignment? name, arguments with
    | some run, _, _ => run process arguments
    | none, some (target, _), [] =>
      let whole := String.join (words.map (expandWhole process))
      { process := process.set target (String.ofList (whole.toList.drop (target.length + 1))) }
    | none, _, _ => external launch process name arguments

def runCommand (launch : Launch) (process : Process) (command : Script.Command) : Process :=
  match openStreams process {} command.redirections with
  | .error message =>
    let line := (process.arguments.head?.getD "sh") ++ ": " ++ message ++ "\n"
    { process.write .errors (bytesOf line.toList) with status := 2 }
  | .ok (opened, streams) =>
    let outcome :=
      perform launch { opened with input := streams.input.getD opened.input } command.words
    let after := (outcome.process.write streams.output outcome.output).write streams.errors
      outcome.errors
    { after with
      status := outcome.status
      input := if streams.input.isSome then opened.input else after.input }

def isDue (process : Process) (link : Script.Link) : Bool :=
  process.ended.isNone &&
    match link with
    | .always => true
    | .onSuccess => process.status == 0
    | .onFailure => process.status != 0

def runScript (launch : Launch) (start : Start) (text : String) : Finish :=
  let process := (Script.commands text.toList).foldl
    (fun process command =>
      if isDue process command.link then runCommand launch process command else process)
    { tree := start.tree
      directory := start.directory
      environment := start.environment
      arguments := start.arguments
      input := start.input }
  { tree := process.tree
    status := process.ended.getD (.exited process.status)
    output := process.output
    errors := process.errors
    input := process.input }

end TeenyBasic.Machine.Shell
