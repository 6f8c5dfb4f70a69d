import TeenyBasic.Command.Build
import TeenyBasic.Machine.Launch

/-!
A machine in memory as a host for the command line: a file tree, an environment, an input, and what
has been written to the two outputs.
-/

set_option autoImplicit false

namespace TeenyBasic

structure Machine where
  tree : Machine.FileTree
  directory : Machine.Place
  environment : List (String × String) := []
  input : ByteArray := ByteArray.empty
  output : ByteArray := ByteArray.empty
  errors : ByteArray := ByteArray.empty

namespace Machine

/-- How many programs may start each other. -/
def launchDepth : Nat := 16

def tools : List (String × Tool) :=
  [("sh", .shell), ("cat", .concatenate), ("chmod", .changeMode), ("env", .runCommand)]

/-- The directories of every machine where there is nothing to find. -/
def plainDirectories : List Place :=
  [["etc"], ["home"], ["lib"], ["mnt"], ["opt"], ["proc"], ["root"], ["run"], ["sbin"], ["sys"],
   ["tmp"], ["usr", "lib"], ["usr", "local", "bin"], ["var"]]

def devices : List (String × Node) :=
  [("null", .sink), ("full", .full), ("stdin", .stream 0), ("stdout", .stream 1),
   ("stderr", .stream 2)]

def systemNodes : List (Place × Node) :=
  plainDirectories.map (fun place => (place, Node.directory)) ++
    tools.flatMap (fun (name, tool) =>
      [(["bin", name], Node.tool tool), (["usr", "bin", name], Node.tool tool)]) ++
    devices.map (fun (name, device) => (["dev", name], device))

def systemTree : FileTree :=
  systemNodes.foldl (fun tree entry => tree.putDeep entry.1 entry.2) {}

def start (machine : Machine) (arguments : List String) (input : ByteArray) :
    Except SystemError Finish :=
  launch launchDepth
    { tree := machine.tree
      directory := machine.directory
      environment := machine.environment
      arguments := arguments
      input := input }

def textOf (bytes : ByteArray) : Except SystemError String :=
  match String.fromUTF8? bytes with
  | some text => .ok text
  | none => .error .notText

/-- The text of a file. Reading the input uses it up. -/
def readText (machine : Machine) (path : Path) : Except SystemError String × Machine :=
  match machine.tree.stream? machine.directory path with
  | some 0 => (textOf machine.input, { machine with input := ByteArray.empty })
  | _ => ((machine.tree.read machine.directory path).bind textOf, machine)

def isFile (machine : Machine) (path : Path) : Bool :=
  match machine.tree.lookUp machine.directory path with
  | .ok (_, .file _ _) => true
  | .ok (_, .tool _) => true
  | _ => false

def canonical (machine : Machine) (path : Path) : Except SystemError Path := do
  let (place, _) ← machine.tree.trace machine.directory path
  .ok (FileTree.pathOf place)

def print (machine : Machine) (text : String) : Machine :=
  { machine with output := machine.output ++ text.toUTF8 }

def complain (machine : Machine) (text : String) : Machine :=
  { machine with errors := machine.errors ++ text.toUTF8 }

def writeText (machine : Machine) (path : Path) (text : String) :
    Except SystemError Unit × Machine :=
  match machine.tree.write machine.directory path text.toUTF8 with
  | .error reason => (.error reason, machine)
  | .ok tree =>
    match machine.tree.stream? machine.directory path with
    | some 1 => (.ok (), machine.print text)
    | some 2 => (.ok (), machine.complain text)
    | _ => (.ok (), { machine with tree := tree })

/-- Has a C compiler make an executable. The compiler gets no input, and what it prints is lost. -/
def startCompiler (machine : Machine) (compiler source target : Path) :
    Except SystemError Completion × Machine :=
  match machine.start [compiler.text, source.text, "-o", target.text] ByteArray.empty with
  | .ok finish =>
    (.ok { status := finish.status, errors := Text.ofBytes finish.errors },
      { machine with tree := finish.tree })
  | .error reason => (.error reason, machine)

def startProgram (machine : Machine) (program : Path) :
    Except SystemError ExitStatus × Machine :=
  match machine.start [program.text] machine.input with
  | .ok finish =>
    (.ok finish.status,
      { machine with
        tree := finish.tree
        input := finish.input
        output := machine.output ++ finish.output
        errors := machine.errors ++ finish.errors })
  | .error reason => (.error reason, machine)

instance : Host (StateM Machine) where
  print text := modify fun machine => machine.print text
  complain text := modify fun machine => machine.complain text
  environmentValue name := do return valueOf? (← get).environment name
  readText path := modifyGet fun machine => machine.readText path
  writeText path text := modifyGet fun machine => machine.writeText path text
  isFile path := do return (← get).isFile path
  search path := do
    let machine ← get
    return findProgram machine.tree machine.directory machine.environment path
  startCompiler compiler source target :=
    modifyGet fun machine => machine.startCompiler compiler source target
  startProgram program := modifyGet fun machine => machine.startProgram program
  canonical path := do return (← get).canonical path

inductive Edit where
  | write (path : Path)
  | remove (path : Path)
  | rename (source target : Path)
  deriving DecidableEq, Repr

namespace Edit

def apply (edit : Edit) (machine : Machine) : Machine :=
  match edit with
  | write path => (machine.writeText path "").2
  | remove path =>
    match machine.tree.resolve machine.directory path with
    | .ok place => { machine with tree := machine.tree.erase place }
    | .error _ => machine
  | rename source target =>
    match machine.tree.lookUp machine.directory source,
        machine.tree.resolve machine.directory target with
    | .ok (old, node), .ok new =>
      { machine with tree := (machine.tree.erase old).put new node }
    | _, _ => machine

/-- The paths whose contents change. Taking a file away is no change of contents. -/
def touched : Edit → List Path
  | write path => [path]
  | remove _ => []
  | rename source target => [source, target]

/-- Makes the changes in order, and tells whether one of them changed a file that is watched. -/
def noticed (watch : Watch) : List Edit → StateM Machine Bool
  | [] => return false
  | edit :: others => do
    modify edit.apply
    let here ← edit.touched.anyM fun path => watch.leadsTo path
    let later ← noticed watch others
    return here || later

end Edit

end Machine

end TeenyBasic
