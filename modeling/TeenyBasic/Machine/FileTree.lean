import TeenyBasic.Command.Host
import TeenyBasic.Path

/-!
A file tree in memory. Files are found by the steps from the root; a path is followed step by step,
and every step but the last has to be a directory.
-/

set_option autoImplicit false

namespace TeenyBasic.Machine

inductive Tool where
  | shell | concatenate | changeMode | runCommand
  deriving DecidableEq, Repr

local instance instDecidableEqBytes : DecidableEq ByteArray :=
  ByteArray.decEq

inductive Node where
  | directory
  | file (bytes : ByteArray) (executable : Bool)
  | tool (tool : Tool)
  /-- Swallows what is written to it and holds nothing. -/
  | sink
  | full
  /-- One of the streams of the program that opens it, by its number. -/
  | stream (number : Nat)
  deriving DecidableEq

/-- A place of the tree: the names on the way from the root. -/
abbrev Place := List String

structure FileTree where
  nodes : List (Place × Node) := []
  deriving DecidableEq

namespace FileTree

/-- What stands at a place. The root is always a directory. -/
def node? (tree : FileTree) (place : Place) : Option Node :=
  if place.isEmpty then some .directory
  else (tree.nodes.find? fun entry => entry.1 == place).map Prod.snd

def put (tree : FileTree) (place : Place) (node : Node) : FileTree :=
  { nodes := (place, node) :: tree.nodes.filter fun entry => entry.1 != place }

def erase (tree : FileTree) (place : Place) : FileTree :=
  { nodes := tree.nodes.filter fun entry => entry.1 != place }

/-- The places above a place, from the root on, without the root. -/
def ancestors (place : Place) : List Place :=
  ((List.range place.length).drop 1).map place.take

/-- Puts something at a place, with the directories that lead there. -/
def putDeep (tree : FileTree) (place : Place) (node : Node) : FileTree :=
  let tree := (ancestors place).foldl
    (fun tree above =>
      match tree.node? above with
      | none => tree.put above .directory
      | some _ => tree)
    tree
  tree.put place node

def enter (tree : FileTree) (place : Place) : Except SystemError Unit :=
  match tree.node? place with
  | none => .error .notFound
  | some .directory => .ok ()
  | some _ => .error .notDirectory

def longestName : Nat := 255

def longestPath : Nat := 4095

/-- Whether a segment is a name, and not a step to a directory already passed through. -/
def isName (segment : List Char) : Bool :=
  !segment.isEmpty && segment != ['.'] && segment != ['.', '.']

/-- Goes one segment from a directory. What a name stands for need not exist. -/
def step (tree : FileTree) (place : Place) (segment : List Char) : Except SystemError Place := do
  tree.enter place
  if segment = ['.', '.'] then return place.dropLast
  else if !isName segment then return place
  else if Text.byteLength segment > longestName then .error .nameTooLong
  else return place ++ [String.ofList segment]

/-- Follows segments from a place. The last name may be of something that does not exist. -/
def follow (tree : FileTree) (place : Place) (segments : List (List Char)) :
    Except SystemError Place :=
  segments.foldlM tree.step place

def checkPath (path : Path) : Except SystemError Unit :=
  if path.text.toList.contains '\x00' then .error .endInPath
  else if path.text.isEmpty then .error .notFound
  else .ok ()

def checkLength (path : Path) : Except SystemError Unit :=
  if path.text.utf8ByteSize > longestPath then .error .nameTooLong else .ok ()

def origin (directory : Place) (path : Path) : Place :=
  if path.isAbsolute then [] else directory

def resolve (tree : FileTree) (directory : Place) (path : Path) : Except SystemError Place := do
  checkPath path
  tree.follow (origin directory path) (Path.segments path.text.toList)

/-- What a path leads to from a directory, and where, followed step by step. -/
def trace (tree : FileTree) (directory : Place) (path : Path) :
    Except SystemError (Place × Node) := do
  let place ← tree.resolve directory path
  match tree.node? place with
  | some node => .ok (place, node)
  | none => .error .notFound

def lookUp (tree : FileTree) (directory : Place) (path : Path) :
    Except SystemError (Place × Node) := do
  checkPath path
  checkLength path
  tree.trace directory path

def read (tree : FileTree) (directory : Place) (path : Path) : Except SystemError ByteArray := do
  match (← tree.lookUp directory path).2 with
  | .directory => .error .isDirectory
  | .file bytes _ => .ok bytes
  | _ => .ok ByteArray.empty

/-- The segments of a path before the last one that is not empty, that segment, and whether a slash
comes after it. -/
def splitLast (path : Path) : List (List Char) × List Char × Bool :=
  let backwards := (Path.segments path.text.toList).reverse
  let last := backwards.dropWhile List.isEmpty
  ((last.drop 1).reverse, last.headD [], backwards.head? == some [])

/-- Where a file may be created or overwritten. A name with a slash after it can only be that of a
directory, whether there is one or not. -/
def target (tree : FileTree) (directory : Place) (path : Path) : Except SystemError Place := do
  checkPath path
  checkLength path
  let (before, last, slash) := splitLast path
  let place ← tree.follow (origin directory path) before
  if isName last && slash then
    tree.enter place
    .error .isDirectory
  else
    let place ← tree.step place last
    match tree.node? place with
    | some .directory => .error .isDirectory
    | _ => return place

def swallow (tree : FileTree) (node : Node) (bytes : ByteArray) : Except SystemError FileTree :=
  match node with
  | .sink => .ok tree
  | .stream _ => .ok tree
  | .full => if bytes.isEmpty then .ok tree else .error .noSpace
  | _ => .error .permissionDenied

def stream? (tree : FileTree) (directory : Place) (path : Path) : Option Nat :=
  match tree.lookUp directory path with
  | .ok (_, .stream number) => some number
  | _ => none

/-- Makes a file hold the bytes and nothing else. A new file is not executable. -/
def write (tree : FileTree) (directory : Place) (path : Path) (bytes : ByteArray) :
    Except SystemError FileTree := do
  let place ← tree.target directory path
  match tree.node? place with
  | some (.file _ executable) => .ok (tree.put place (.file bytes executable))
  | some node => tree.swallow node bytes
  | none => .ok (tree.put place (.file bytes false))

def extend (tree : FileTree) (directory : Place) (path : Path) (bytes : ByteArray) :
    Except SystemError FileTree := do
  let place ← tree.target directory path
  match tree.node? place with
  | some (.file old executable) => .ok (tree.put place (.file (old ++ bytes) executable))
  | some node => tree.swallow node bytes
  | none => .ok (tree.put place (.file bytes false))

def setExecutable (tree : FileTree) (directory : Place) (path : Path) (executable : Bool) :
    Except SystemError FileTree := do
  match ← tree.lookUp directory path with
  | (place, .file bytes _) => .ok (tree.put place (.file bytes executable))
  | _ => .ok tree

def program (tree : FileTree) (directory : Place) (path : Path) : Except SystemError Node := do
  match (← tree.lookUp directory path).2 with
  | .file bytes true => .ok (.file bytes true)
  | .tool tool => .ok (.tool tool)
  | _ => .error .permissionDenied

def pathOf (place : Place) : Path :=
  { text := "/" ++ "/".intercalate place }

/-- The files under a directory that were not there before or held something else. -/
def changedFiles (tree before : FileTree) (directory : Place) : List (String × ByteArray) :=
  tree.nodes.filterMap fun (place, node) =>
    match node with
    | .file bytes _ =>
      let same := match before.node? place with
        | some (.file old _) => old == bytes
        | _ => false
      if directory.isPrefixOf place && !same then
        some ("/".intercalate (place.drop directory.length), bytes)
      else
        none
    | _ => none

end FileTree

end TeenyBasic.Machine
