/-!
The flags of the command line and how they are named.
-/

set_option autoImplicit false

namespace TeenyBasic

def languageName : String := "Teeny Tiny"

def commandName : String := "teenytiny"

def version : String := "0.1.0"

namespace Command

inductive Flag where
  | output | verbose | build | run | compiler | watch | plain | help | version
  deriving DecidableEq, Repr

namespace Flag

def all : List Flag :=
  [output, verbose, build, run, compiler, watch, plain, help, version]

def longName : Flag → String
  | output => "output"
  | verbose => "verbose"
  | build => "build"
  | run => "run"
  | compiler => "cc"
  | watch => "watch"
  | plain => "plain"
  | help => "help"
  | version => "version"

def letter? : Flag → Option Char
  | output => some 'o'
  | verbose => some 'v'
  | build => some 'b'
  | run => some 'r'
  | compiler => none
  | watch => some 'w'
  | plain => none
  | help => some 'h'
  | version => some 'V'

def valueName? : Flag → Option String
  | output => some "OUTPUT"
  | compiler => some "CC"
  | _ => none

/-- Whether the flag only asks about the command, so that nothing is compiled. -/
def asks (flag : Flag) : Bool :=
  flag = help || flag = version

def ofLongName? (name : String) : Option Flag :=
  all.find? fun flag => flag.longName == name

def ofLetter? (letter : Char) : Option Flag :=
  all.find? fun flag => flag.letter? == some letter

def dashed (flag : Flag) : String :=
  "--" ++ flag.longName

def valueDisplay (flag : Flag) : String :=
  match flag.valueName? with
  | some name => " <" ++ name ++ ">"
  | none => ""

def display (flag : Flag) : String :=
  flag.dashed ++ flag.valueDisplay

end Flag

/-- What an argument can give: the source file or a flag. -/
inductive Item where
  | source
  | flag (flag : Flag)
  deriving DecidableEq, Repr

def Item.display : Item → String
  | .source => "<SOURCE>"
  | .flag named => named.display

/-- The items that say what to compile and how. -/
def Item.working : List Item :=
  .source :: (Flag.all.filter fun flag => !flag.asks).map .flag

end Command

end TeenyBasic
