import TeenyBasic.Path

/-!
Where a program is looked for by its name.
-/

set_option autoImplicit false

namespace TeenyBasic

def Component.path : Component → Path
  | .root => { text := "/" }
  | .here => { text := "." }
  | .up => { text := ".." }
  | .name segment => { text := segment }

namespace Path

def joinSteps (directory : Path) (steps : List Component) : Path :=
  steps.foldl (fun path step => path.join step.path) directory

/-- A path with the directory of the user's files in place of a tilde at its start. -/
def expandTilde (home path : Path) : Path :=
  match path.components with
  | .name "~" :: steps => home.joinSteps steps
  | _ => path

/-- A path from the root on, without the steps that lead nowhere. -/
def absolute (directory path : Path) : Path :=
  if path.isAbsolute then path
  else directory.joinSteps (path.components.dropWhile (· == .here))

end Path

structure SearchPlaces where
  directory : Path
  home : Path
  entries : List Path
  deriving DecidableEq, Repr

namespace SearchPlaces

def entriesOf (text : String) : List Path :=
  (Text.pieces ':' text.toList).map fun piece => { text := String.ofList piece }

/-- The paths where a program may be, in order. A name of several steps is a path by itself. -/
def candidates (places : SearchPlaces) (name : Path) : List Path :=
  if name.components.length > 1 then [places.directory.absolute name]
  else places.entries.map fun entry => (places.home.expandTilde entry).join name

end SearchPlaces

end TeenyBasic
