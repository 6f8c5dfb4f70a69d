import TeenyBasic.Span

/-!
The names a program has introduced so far: its variables, its labels, and the jumps whose labels
are looked up once the whole program is known.
-/

set_option autoImplicit false

namespace TeenyBasic

/-- Names that mean something else in the C text: keywords of C, names its library declares, and
`main`. -/
def reservedNames : List String :=
  ["auto", "bool", "break", "case", "char", "const", "constexpr", "continue", "default", "do",
   "double", "else", "enum", "extern", "false", "float", "for", "goto", "if", "inline", "int",
   "long", "nullptr", "register", "restrict", "return", "short", "signed", "sizeof", "static",
   "struct", "switch", "true", "typedef", "typeof", "union", "unsigned", "void", "volatile",
   "while", "main", "printf", "rand", "scanf", "srand", "time", "EOF", "FILE", "NULL", "stderr",
   "stdin", "stdout"]

def isReserved (name : String) : Bool :=
  reservedNames.contains name

theorem isReserved_iff {name : String} : isReserved name = true ↔ name ∈ reservedNames :=
  List.contains_iff_mem

/-- The variables that have been given a value, the newest first. -/
structure Variables where
  names : List String := []
  deriving DecidableEq, Repr

namespace Variables

def contains (table : Variables) (name : String) : Bool :=
  table.names.contains name

def size (table : Variables) : Nat :=
  table.names.length

def isEmpty (table : Variables) : Bool :=
  table.names.isEmpty

/-- Enters a variable, unless it is there already. -/
def insert (table : Variables) (name : String) : Variables :=
  if table.contains name then table else { names := name :: table.names }

end Variables

/-- A jump: the label it leads to, where that label is named, and on which line. -/
structure Jump where
  label : String
  span : Span
  line : Nat
  deriving DecidableEq, Repr

/-- The labels and the jumps of a program, the newest first. -/
structure Labels where
  names : List String := []
  jumps : List Jump := []
  deriving DecidableEq, Repr

namespace Labels

def contains (labels : Labels) (name : String) : Bool :=
  labels.names.contains name

def insert (labels : Labels) (name : String) : Labels :=
  if labels.contains name then labels else { labels with names := name :: labels.names }

def addJump (labels : Labels) (jump : Jump) : Labels :=
  { labels with jumps := jump :: labels.jumps }

/-- The first jump, in the order of the program, whose label has not been placed. -/
def firstUnresolved (labels : Labels) : Option Jump :=
  labels.jumps.reverse.find? fun jump => !labels.contains jump.label

end Labels

end TeenyBasic
