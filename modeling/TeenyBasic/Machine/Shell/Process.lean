import TeenyBasic.Machine.Program
import TeenyBasic.Machine.Script

/-!
A running script: its parameters, its streams, and what its words expand to.
-/

set_option autoImplicit false

namespace TeenyBasic.Machine.Shell

/-- The number of the running script, which it can send signals to. -/
def processNumber : String := "1000"

inductive Channel where
  | output
  | errors
  | file (path : Path)
  deriving DecidableEq

structure Process where
  tree : FileTree
  directory : Place
  environment : List (String × String)
  /-- The arguments, the name of the script first. -/
  arguments : List String
  input : ByteArray
  output : ByteArray := ByteArray.empty
  errors : ByteArray := ByteArray.empty
  assigned : List (String × String) := []
  status : Nat := 0
  /-- How the script ended, once it has. -/
  ended : Option ExitStatus := none

structure Outcome where
  process : Process
  output : ByteArray := ByteArray.empty
  errors : ByteArray := ByteArray.empty
  status : Nat := 0

def isSeparator (c : Char) : Bool :=
  c = ' ' || c = '\t' || c = '\n'

def number? (text : String) : Option Nat :=
  if text.toList.isEmpty || !text.toList.all Char.isDigit then none
  else some (text.toList.foldl (fun value digit => value * 10 + (digit.toNat - '0'.toNat)) 0)

namespace Process

def parameters (process : Process) : List String :=
  process.arguments.drop 1

def value (process : Process) (name : String) : String :=
  match name with
  | "$" => processNumber
  | "?" => toString process.status
  | "#" => toString process.parameters.length
  | "@" => " ".intercalate process.parameters
  | "*" => " ".intercalate process.parameters
  | name =>
    match number? name with
    | some index => (process.arguments[index]?).getD ""
    | none =>
      match valueOf? process.assigned name with
      | some value => value
      | none => (valueOf? process.environment name).getD ""

def set (process : Process) (name value : String) : Process :=
  { process with assigned := (name, value) :: process.assigned }

def write (process : Process) (channel : Channel) (bytes : ByteArray) : Process :=
  match channel with
  | .output => { process with output := process.output ++ bytes }
  | .errors => { process with errors := process.errors ++ bytes }
  | .file path =>
    match process.tree.extend process.directory path bytes with
    | .ok tree => { process with tree := tree }
    | .error _ => process

end Process

/-- Fields while a word is being expanded: the finished ones, backwards, and the open one. -/
structure Fields where
  finished : List String := []
  opened : Option String := none

namespace Fields

def add (fields : Fields) (text : String) : Fields :=
  { fields with opened := some (fields.opened.getD "" ++ text) }

def cut (fields : Fields) : Fields :=
  match fields.opened with
  | some text => { finished := text :: fields.finished, opened := none }
  | none => fields

def addSplit (fields : Fields) (text : List Char) : Fields :=
  text.foldl
    (fun fields c => if isSeparator c then fields.cut else fields.add c.toString) fields

/-- Adds several fields; the first goes on with the open one. -/
def addAll (fields : Fields) : List String → Fields
  | [] => fields
  | [text] => fields.add text
  | text :: rest => (fields.add text).cut.addAll rest

end Fields

/-- The fields a word expands to. A quoted word is a field even if it is empty, unless it stands for
all arguments and there are none. -/
def expand (process : Process) (word : Script.Word) : List String :=
  let fields := word.foldl
    (fun (fields : Fields) piece =>
      match piece with
      | .text [] true =>
        if word.contains (.parameter "@" true) then fields else fields.add ""
      | .text chars _ => fields.add (String.ofList chars)
      | .parameter "@" true => fields.addAll process.parameters
      | .parameter name true => fields.add (process.value name)
      | .parameter name false => fields.addSplit (process.value name).toList)
    {}
  fields.cut.finished.reverse

/-- The one field a word expands to where it is not split. -/
def expandWhole (process : Process) (word : Script.Word) : String :=
  String.join (word.map fun piece =>
    match piece with
    | .text chars _ => String.ofList chars
    | .parameter name _ => process.value name)

end TeenyBasic.Machine.Shell
