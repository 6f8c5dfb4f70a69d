import TeenyBasic.Text.Offset
import TeenyBasic.Text.Pieces

/-!
File names. A path is plain text; its parts are found by rules on the text, without looking at any
disk. The C file and the executable lie beside the source and have its name with another extension.
Paths and executables are those of systems other than Windows, where an executable has no extension.
-/

set_option autoImplicit false

namespace TeenyBasic

structure Path where
  text : String
  deriving DecidableEq, Repr, Inhabited

inductive Component where
  | root
  | here
  | up
  | name (name : String)
  deriving DecidableEq, Repr

namespace Path

def segments (text : List Char) : List (List Char) :=
  Text.pieces '/' text

/-- A segment as a step; empty ones and single dots lead nowhere. -/
def component? (segment : List Char) : Option Component :=
  if segment.isEmpty then none
  else if segment = ['.'] then none
  else if segment = ['.', '.'] then some .up
  else some (.name (String.ofList segment))

/-- The steps of a path. A single dot counts only at the very start. -/
def components (path : Path) : List Component :=
  let parts := segments path.text.toList
  let steps := parts.filterMap component?
  match parts with
  | [] :: _ :: _ => .root :: steps
  | ['.'] :: _ => .here :: steps
  | _ => steps

def equivalent (first second : Path) : Bool :=
  first.components == second.components

def isAbsolute (path : Path) : Bool :=
  path.text.toList.head? == some '/'

/-- A text, given backwards, without the slashes and single dots at its end. -/
def dropTrail : List Char → List Char
  | '/' :: rest => dropTrail rest
  | '.' :: '/' :: rest => dropTrail ('/' :: rest)
  | text => text
termination_by text => text.length

/-- The text before the file name, and the file name: the last segment, slashes and single dots after
it not counted. There is none where that segment stands for a directory. -/
def splitName? (text : List Char) : Option (List Char × List Char) :=
  let backwards := dropTrail text.reverse
  let name := (backwards.takeWhile (· != '/')).reverse
  let before := (backwards.dropWhile (· != '/')).reverse
  if name.isEmpty ∨ name = ['.'] ∨ name = ['.', '.'] then none else some (before, name)

/-- A file name at its last dot: the stem, and the extension if there is one. A dot at the very start
begins no extension. -/
def splitExtension (name : List Char) : List Char × Option (List Char) :=
  let extension := (name.reverse.takeWhile (· != '.')).reverse
  match (name.reverse.dropWhile (· != '.')).reverse.dropLast with
  | [] => (name, none)
  | stem => (stem, some extension)

def fileName? (path : Path) : Option String :=
  (splitName? path.text.toList).map fun parts => String.ofList parts.2

def stem? (path : Path) : Option String :=
  (splitName? path.text.toList).map fun parts => String.ofList (splitExtension parts.2).1

def extensionOf? (text : List Char) : Option (List Char) :=
  (splitName? text).bind fun parts => (splitExtension parts.2).2

def extension? (path : Path) : Option String :=
  (extensionOf? path.text.toList).map String.ofList

/-- A text without as many bytes at its end as its extension has. -/
def dropExtension (text : List Char) : List Char :=
  match extensionOf? text with
  | some extension => Text.dropLastBytes text (Text.byteLength extension)
  | none => text

/-- Cuts a text after the stem of its file name and adds an extension, if one is given. A text
without a file name stays as it is. -/
def replaceExtension (text extension : List Char) : List Char :=
  match splitName? text with
  | none => text
  | some (before, name) =>
    let front := before ++ (splitExtension name).1
    if extension.isEmpty then front else front ++ '.' :: extension

/-- The path with another extension, or with none if the new one is empty. -/
def withExtension (path : Path) (extension : String) : Path :=
  { text := String.ofList
      (replaceExtension (dropExtension path.text.toList) extension.toList) }

def cFile (source : Path) : Path :=
  source.withExtension "c"

/-- The executable that belongs to a C file. On Windows it would end in `.exe`, and that is left out. -/
def executable (source : Path) : Path :=
  source.withExtension ""

def join (path next : Path) : Path :=
  if next.isAbsolute then next
  else
    match path.text.toList.getLast? with
    | none => next
    | some '/' => { text := path.text ++ next.text }
    | some _ => { text := path.text ++ "/" ++ next.text }

end Path

end TeenyBasic
