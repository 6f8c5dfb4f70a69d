/-!
The lines of C that statements become.
-/

set_option autoImplicit false

namespace TeenyBasic.CLines

def includes : List String :=
  ["#include <stdio.h>", "#include <stdlib.h>", "#include <time.h>"]

def prologue : List String :=
  includes ++ ["int main(void)\x7b"]

def epilogue : List String :=
  ["return 0;", "\x7d"]

def printString (text : String) : String :=
  "printf(\"" ++ text ++ "\\n\");"

def printOpening : String := "printf(\"%.2f\\n\", (float)("

def printClosing : String := "));"

def declaration (name : String) : String :=
  "float " ++ name ++ ";"

def assignmentOpening (name : String) : String :=
  name ++ " = "

def assignmentClosing : String := ";"

def label (name : String) : String :=
  name ++ ":"

def jump (name : String) : String :=
  "goto " ++ name ++ ";"

/-- Reads a number into a variable; anything else is passed over and counts as zero. -/
def inputRead (name : String) : List String :=
  ["if(0 == scanf(\"%f\", &" ++ name ++ ")) \x7b", name ++ " = 0;", "scanf(\"%*s\");", "\x7d"]

def randomMax : Nat := 100

def randomSeed : String := "srand(time(0));"

def randomBinding (name : String) : String :=
  "float " ++ name ++ " = rand() % " ++ toString randomMax ++ " + 1;"

def blockOpening : String := ")\x7b"

def blockClosing : String := "\x7d"

end TeenyBasic.CLines
