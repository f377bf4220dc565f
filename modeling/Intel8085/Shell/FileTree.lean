import Intel8085.Shell.FileName
import Intel8085.Text.Quoted

/-!
# File trees

The files below a working directory, held in memory, with the operations that the program needs and
the errors that they meet.  A place is the list of steps that lead to it, the innermost first; the
places above the working directory have a step `..` each, and the root is a place of its own.
-/

set_option autoImplicit false

namespace Intel8085.Shell

open Intel8085.Text

inductive FileError where
  | notFound
  | alreadyExists
  | notDirectory
  | isDirectory
  | nameTooLong
  | zeroInName
  deriving DecidableEq, Repr

namespace FileError

def systemReason : FileError → Option (Nat × String)
  | .notFound => some (2, "No such file or directory")
  | .alreadyExists => some (17, "File exists")
  | .notDirectory => some (20, "Not a directory")
  | .isDirectory => some (21, "Is a directory")
  | .nameTooLong => some (36, "File name too long")
  | .zeroInName => none

def message? (error : FileError) (name : String) : Option String :=
  error.systemReason.map fun (number, wording) =>
    "[Errno " ++ toString number ++ "] " ++ wording ++ ": " ++ Quoted.encode name

def system : List FileError :=
  [.notFound, .alreadyExists, .notDirectory, .isDirectory, .nameTooLong]

def ofSystemNumber? (number : Nat) : Option FileError :=
  system.find? fun error => error.systemReason.any fun reason => reason.1 == number

end FileError

/-- The steps to a place, the innermost first. -/
abbrev Place := List String

def Place.root : Place := ["/"]

def Place.above : Place → Place
  | [] => [".."]
  | step :: rest =>
      if step == ".." then step :: step :: rest else if rest.isEmpty && step == "/" then root else rest

/-- Files and directories.  The working directory, those above it and the root always exist. -/
structure FileTree where
  files : List (Place × List UInt8)
  directories : List Place
  deriving DecidableEq, Repr

namespace FileTree

def stepLimit : Nat := 255

/-- The number of bytes for which a name is too long. -/
def nameLimit : Nat := 4096

def content? (tree : FileTree) (place : Place) : Option (List UInt8) :=
  tree.files.lookup place

def hasDirectory (tree : FileTree) (place : Place) : Bool :=
  place.all (fun step => step == "..") || place == Place.root || tree.directories.contains place

def enter (tree : FileTree) (place : Place) (step : String) : Except FileError Place :=
  if !tree.hasDirectory place then
    .error (if (tree.content? place).isSome then .notDirectory else .notFound)
  else if isIdleStep step.toList then .ok place
  else if step == ".." then .ok place.above
  else if stepLimit < step.utf8ByteSize then .error .nameTooLong
  else .ok (step :: place)

/-- The place that a name leads to, whether there is anything at it or not. -/
def locate (tree : FileTree) (name : String) : Except FileError Place :=
  if name.toList.contains '\x00' then .error .zeroInName
  else if name.isEmpty then .error .notFound
  else if nameLimit ≤ name.utf8ByteSize then .error .nameTooLong
  else
    let start := if name.toList.head? == some '/' then Place.root else []
    ((nameSteps name).map String.ofList).foldlM tree.enter start

def read (tree : FileTree) (name : String) : Except FileError (List UInt8) := do
  let place ← tree.locate name
  if tree.hasDirectory place then .error .isDirectory
  else
    match tree.content? place with
    | some content => .ok content
    | none => .error .notFound

def put (tree : FileTree) (place : Place) (content : List UInt8) : FileTree :=
  { tree with files := (place, content) :: tree.files.filter fun entry => entry.1 != place }

def write (tree : FileTree) (name : String) (content : List UInt8) : Except FileError FileTree := do
  let place ← tree.locate name
  if tree.hasDirectory place then .error .isDirectory else .ok (tree.put place content)

/-- The tree with a file, which is empty unless it existed. -/
def touch (tree : FileTree) (name : String) : Except FileError FileTree := do
  let place ← tree.locate name
  if tree.hasDirectory place then .error .isDirectory
  else .ok (tree.put place ((tree.content? place).getD []))

def makeDirectory (tree : FileTree) (name : String) : Except FileError FileTree := do
  let place ← tree.locate name
  if tree.hasDirectory place || (tree.content? place).isSome then .error .alreadyExists
  else .ok { tree with directories := place :: tree.directories }

def isDirectory (tree : FileTree) (name : String) : Bool :=
  match tree.locate name with
  | .ok place => tree.hasDirectory place
  | .error _ => false

/-- The tree with a directory, which may have existed; the one it is in must exist. -/
def ensureLast (tree : FileTree) (name : String) : Except FileError FileTree :=
  match tree.makeDirectory name with
  | .ok made => .ok made
  | .error error => if tree.isDirectory name then .ok tree else .error error

/-- The tree with a directory and those it is in, of which any may have existed.  The steps to it are
given with the innermost first. -/
def ensureSteps (tree : FileTree) (root : String) : List String → Except FileError FileTree
  | [] => tree.ensureLast (FileName.toString { root, steps := [] })
  | step :: outer =>
      let name := FileName.toString { root, steps := (step :: outer).reverse }
      match tree.makeDirectory name with
      | .error .notFound => do
          let made ← tree.ensureSteps root outer
          made.ensureLast name
      | _ => tree.ensureLast name

def ensureDirectory (tree : FileTree) (name : FileName) : Except FileError FileTree :=
  tree.ensureSteps name.root name.steps.reverse

def openLog (tree : FileTree) (name : String) : Except FileError FileTree := do
  let normal := FileName.ofString name
  let made ← tree.ensureDirectory normal.parent
  made.touch normal.toString

end FileTree

end Intel8085.Shell
