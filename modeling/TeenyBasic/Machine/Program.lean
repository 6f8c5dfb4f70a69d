import TeenyBasic.Command.Search
import TeenyBasic.Machine.FileTree

/-!
Programs of the machine: what they are started with, what they leave behind, and where they are found
by their names.
-/

set_option autoImplicit false

namespace TeenyBasic.Machine

/-- What a program is started with. The first argument is the name it is started by. -/
structure Start where
  tree : FileTree
  directory : Place
  environment : List (String × String)
  arguments : List String
  input : ByteArray

/-- What a program leaves behind: the files, what it wrote, and what it did not read. -/
structure Finish where
  tree : FileTree
  status : ExitStatus
  output : ByteArray
  errors : ByteArray
  input : ByteArray

def valueOf? (environment : List (String × String)) (name : String) : Option String :=
  (environment.find? fun entry => entry.1 == name).map Prod.snd

def usualSearchPath : String := "/usr/local/sbin:/usr/local/bin:/usr/sbin:/usr/bin:/sbin:/bin"

def searchPath (environment : List (String × String)) : List Path :=
  SearchPlaces.entriesOf ((valueOf? environment "PATH").getD usualSearchPath)

def usualHome : String := "/root"

def searchPlaces (directory : Place) (environment : List (String × String)) : SearchPlaces where
  directory := FileTree.pathOf directory
  home := { text := (valueOf? environment "HOME").getD usualHome }
  entries := searchPath environment

def findProgram (tree : FileTree) (directory : Place) (environment : List (String × String))
    (name : Path) : Option Path :=
  ((searchPlaces directory environment).candidates name).find? fun candidate =>
    (tree.program directory candidate).isOk

/-- What is started by a name, and by which path it is found, or why nothing is. Of the places
searched, one where a file must not be started counts more than one without a file. -/
def findStartable (tree : FileTree) (directory : Place) (environment : List (String × String))
    (name : Path) : Except SystemError (Path × Node) :=
  if name.text.toList.contains '/' || name.text.isEmpty then
    (tree.program directory name).map fun node => (name, node)
  else if name.text.utf8ByteSize > FileTree.longestName then .error .nameTooLong
  else
    (searchPath environment).foldl
      (fun found entry =>
        match found, tree.program directory (entry.join name) with
        | .ok known, _ => .ok known
        | .error _, .ok node => .ok (entry.join name, node)
        | .error _, .error .permissionDenied => .error .permissionDenied
        | .error reason, .error _ => .error reason)
      (.error .notFound)

abbrev Launch := Start → Except SystemError Finish

end TeenyBasic.Machine
