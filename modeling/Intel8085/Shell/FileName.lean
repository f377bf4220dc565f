/-!
# File names

A file name is a list of steps with slashes between, from the working directory or, behind a slash
in front, from the root.  `normal` drops the steps that lead nowhere, which are the empty ones and
the single points; two points stay.
-/

set_option autoImplicit false

namespace Intel8085.Shell

/-- The steps of a name, with an empty one wherever a slash has nothing on one of its sides. -/
def nameSteps (name : String) : List (List Char) :=
  name.toList.foldr (fun character steps =>
    if character == '/' then [] :: steps
    else
      match steps with
      | [] => [[character]]
      | step :: rest => (character :: step) :: rest) [[]]

def isIdleStep (step : List Char) : Bool :=
  step.isEmpty || step == ['.']

/-- A file name without the steps that lead nowhere.  Two slashes in front are another root than one
or three. -/
structure FileName where
  root : String
  steps : List String
  deriving DecidableEq, Repr

namespace FileName

def rootOf (name : List Char) : String :=
  match name with
  | '/' :: '/' :: '/' :: _ => "/"
  | '/' :: '/' :: _ => "//"
  | '/' :: _ => "/"
  | _ => ""

def ofString (name : String) : FileName where
  root := rootOf name.toList
  steps := ((nameSteps name).filter fun step => !isIdleStep step).map String.ofList

/-- The name as text; the working directory is a point. -/
def toString (name : FileName) : String :=
  if name.root.isEmpty && name.steps.isEmpty then "."
  else name.root ++ "/".intercalate name.steps

/-- The name of the directory that a file is in; a root and the working directory are in
themselves. -/
def parent (name : FileName) : FileName :=
  { name with steps := name.steps.dropLast }

end FileName

def normalName (name : String) : String :=
  (FileName.ofString name).toString

/-- The extension of a name: its last point and what is behind it, in small letters.  Points in
front of the last step make no extension. -/
def extensionOf (name : String) : String :=
  let last := ((nameSteps name).getLast?.getD []).dropWhile fun character => character == '.'
  let reversed := last.reverse
  let behind := reversed.takeWhile fun character => character != '.'
  if last.contains '.' then String.ofList ('.' :: behind.reverse.map Char.toLower) else ""

end Intel8085.Shell
