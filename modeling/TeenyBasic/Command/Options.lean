import TeenyBasic.Command.Usage
import TeenyBasic.Path

/-!
The arguments of the command line. They are read from left to right, and the first thing wrong with
them is what is reported.
-/

set_option autoImplicit false

namespace TeenyBasic.Command

structure Options where
  source : Path
  output : Option Path := none
  verbose : Bool := false
  build : Bool := false
  run : Bool := false
  compiler : Option Path := none
  watch : Bool := false
  plain : Bool := false
  deriving DecidableEq, Repr

namespace Options

/-- Whether an executable is wanted. Running one means building it first. -/
def wantsBuild (options : Options) : Bool :=
  options.build || options.run

def outputPath (options : Options) : Path :=
  options.output.getD options.source.cFile

end Options

inductive Invocation where
  | compile (options : Options)
  | showVersion
  | showHelp
  deriving DecidableEq, Repr

structure Reading where
  taken : List (Item × Option String) := []
  /-- Whether an item has ever been taken. -/
  started : Bool := false
  /-- An item that is taken only when the next one is met, with its value if that has come. -/
  pending : Option (Item × Option String) := none
  deriving DecidableEq, Repr

namespace Reading

def given (reading : Reading) : List Item :=
  reading.taken.map Prod.fst

def has (reading : Reading) (item : Item) : Bool :=
  reading.given.contains item

def value? (reading : Reading) (item : Item) : Option String :=
  (reading.taken.find? fun entry => entry.1 == item).bind Prod.snd

def hasSource (reading : Reading) : Bool :=
  reading.has .source || (reading.pending.map Prod.fst) == some .source

/-- Takes an item, with its value if it has one. An item that stands twice is taken back. -/
def take (reading : Reading) (item : Item) (value : Option String) :
    Reading × Option UsageError :=
  if reading.has item then
    ({ reading with taken := reading.taken.filter fun entry => entry.1 != item },
      some (.repeated item))
  else
    ({ reading with taken := reading.taken ++ [(item, value)], started := true },
      if value = some "" then some (.missingValue item) else none)

/-- Takes the pending item. One that still waits for its value is given up. -/
def settle (reading : Reading) : Reading × Option UsageError :=
  let settled := { reading with pending := none }
  match reading.pending with
  | none => (reading, none)
  | some (item, none) => (settled, some (.missingValue item))
  | some (item, some value) => settled.take item (some value)

inductive Stop where
  | wrong (error : UsageError)
  | showVersion
  | showHelp
  deriving DecidableEq, Repr

def orStop : Reading × Option UsageError → Except Stop Reading
  | (reading, none) => .ok reading
  | (_, some error) => .error (.wrong error)

/-- Takes an argument that is no flag where no flag waits for it: the source file, unless that is
known. -/
def addFile (reading : Reading) (argument : String) : Except Stop Reading :=
  if reading.hasSource then .error (.wrong (.extraFile argument))
  else
    (orStop reading.settle).map fun reading =>
      { reading with pending := some (.source, some argument) }

/-- Takes an argument that is no flag: the value of a flag that waits for one, or a file. -/
def addPlain (reading : Reading) (argument : String) : Except Stop Reading :=
  match reading.pending with
  | some (item, none) => .ok { reading with pending := some (item, some argument) }
  | _ => reading.addFile argument

/-- Takes a flag that needs no value, or a flag whose value is attached or still to come. -/
def meetFlag (reading : Reading) (flag : Flag) (attached : Option String) : Except Stop Reading :=
  (orStop reading.settle).bind fun reading =>
    match flag, flag.valueName?, attached with
    | .version, _, _ => .error .showVersion
    | .help, _, _ => .error .showHelp
    | _, some _, none => .ok { reading with pending := some (.flag flag, none) }
    | _, _, _ => orStop (reading.take (.flag flag) attached)

/-- Takes `--name` or `--name=value`; `body` is the text after the dashes. -/
def addLong (reading : Reading) (body : List Char) : Except Stop Reading :=
  let name := String.ofList (body.takeWhile (· != '='))
  let attached := match body.dropWhile (· != '=') with
    | [] => none
    | _ :: value => some (String.ofList value)
  match Flag.ofLongName? name with
  | none => .error (.wrong (.unknownName name reading.settle.1.given))
  | some flag =>
    match flag.valueName?, attached with
    | none, some value => .error (.wrong (.extraValue value flag reading.started))
    | _, _ => reading.meetFlag flag attached

/-- Takes flags given by their letters. The first that takes a value takes what is left, with or
without an equals sign before it. -/
def addLetters (reading : Reading) : List Char → Except Stop Reading
  | [] => .ok reading
  | letter :: rest =>
    match Flag.ofLetter? letter with
    | none => .error (.wrong (.unknownLetter letter))
    | some flag =>
      match flag.valueName?, rest with
      | some _, [] => reading.meetFlag flag none
      | some _, '=' :: value => reading.meetFlag flag (some (String.ofList value))
      | some _, value => reading.meetFlag flag (some (String.ofList value))
      | none, _ => (reading.meetFlag flag none).bind fun reading => reading.addLetters rest

def add (reading : Reading) (argument : String) : Except Stop Reading :=
  match argument.toList with
  | '-' :: '-' :: body => reading.addLong body
  | '-' :: letter :: rest => reading.addLetters (letter :: rest)
  | _ => reading.addPlain argument

/-- Takes all arguments. After a lone `--` none is a flag or the value of one. -/
def addAll (reading : Reading) : List String → Except Stop Reading
  | [] => .ok reading
  | "--" :: rest => rest.foldlM addFile reading
  | argument :: rest => (reading.add argument).bind fun reading => reading.addAll rest

/-- Takes the C compiler that the environment names, unless an argument does. -/
def addCompiler (reading : Reading) (fallback : Option String) : Except Stop Reading :=
  match reading.has (.flag .compiler), fallback with
  | false, some name => orStop (reading.take (.flag .compiler) (some name))
  | _, _ => .ok reading

def options (reading : Reading) : Except Stop Options :=
  match reading.value? .source with
  | none => .error (.wrong (.missingSource (UsageError.flagsOf reading.given)))
  | some source =>
    .ok
      { source := { text := source }
        output := (reading.value? (.flag .output)).map Path.mk
        verbose := reading.has (.flag .verbose)
        build := reading.has (.flag .build)
        run := reading.has (.flag .run)
        compiler := (reading.value? (.flag .compiler)).map Path.mk
        watch := reading.has (.flag .watch)
        plain := reading.has (.flag .plain) }

def finish (reading : Reading) (fallback : Option String) : Except Stop Options := do
  let settled ← orStop reading.settle
  let complete ← settled.addCompiler fallback
  complete.options

end Reading

/-- Reads the arguments of the command line. `fallback` names the C compiler if no argument does. -/
def Invocation.ofArguments (arguments : List String) (fallback : Option String) :
    Except UsageError Invocation :=
  match (({} : Reading).addAll arguments).bind fun reading => reading.finish fallback with
  | .ok options => .ok (.compile options)
  | .error .showVersion => .ok .showVersion
  | .error .showHelp => .ok .showHelp
  | .error (.wrong error) => .error error

end TeenyBasic.Command
