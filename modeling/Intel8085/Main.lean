import Intel8085.Shell.Outcome

/-!
# The program

Reads its arguments and its input, carries out the report on them, and ends with its status.  All
that it decides is decided by the report.
-/

set_option autoImplicit false

namespace Intel8085.Shell

/-- The number of turns that the run of a machine may take, which no one waits for. -/
def patience : Nat := 1000000000000000

def systemNumber? : IO.Error → Option Nat
  | .alreadyExists _ number _ => some number.toNat
  | .noFileOrDirectory _ number _ => some number.toNat
  | .inappropriateType _ number _ => some number.toNat
  | .invalidArgument _ number _ => some number.toNat
  | .otherError number _ => some number.toNat
  | _ => none

def fileErrorOf? (error : IO.Error) : Option FileError := do
  FileError.ofSystemNumber? (← systemNumber? error)

def readInput (name : String) : IO (Except FileError (List UInt8)) := do
  try
    let handle ← IO.FS.Handle.mk name .read
    return .ok (← handle.readBinToEnd).toList
  catch error =>
    match fileErrorOf? error with
    | some reason => return .error reason
    | none => throw error

def openLogFile (options : Options) : IO (Option IO.FS.Handle) := do
  match options.logName with
  | none => return none
  | some name =>
      let normal := FileName.ofString name
      IO.FS.createDirAll normal.parent.toString
      return some (← IO.FS.Handle.mk normal.toString .append)

def Effect.carryOut (options : Options) (log : Option IO.FS.Handle) (effect : Effect) : IO Unit := do
  if let some content := effect.output? then
    (← IO.getStdout).write content.toBytes.toByteArray
  if let some line := effect.consoleLine? options then
    (← IO.getStderr).putStrLn line
  if let some record := effect.record? then
    if let some handle := log then
      handle.putStrLn (toString (← IO.monoMsNow) ++ " - " ++ record.fileLine)
      handle.flush
  if let .store name content := effect then
    IO.FS.writeBinFile name content.toBytes.toByteArray

/-- Ends with a status, and with a word on the reason where there is no status of its own. -/
def Ending.finish (ending : Ending) : IO UInt32 := do
  match ending with
  | .status code => return UInt32.ofNat code
  | other =>
      (← IO.getStderr).putStrLn other.description
      return 1

def Options.carryOut (options : Options) : IO UInt32 := do
  let log ← openLogFile options
  let report := inputReport options patience (← readInput options.inputName)
  report.effects.forM (Effect.carryOut options log)
  report.ending.finish

def Early.carryOut (early : Early) : IO UInt32 := do
  let outcome := early.outcome { files := [], directories := [] }
  outcome.output.forM fun content => do
    (← IO.getStdout).write content.toBytes.toByteArray
  outcome.console.forM fun line => do
    (← IO.getStderr).putStrLn line
  outcome.ending.finish

end Intel8085.Shell

def main (arguments : List String) : IO UInt32 :=
  match Intel8085.Shell.Options.ofArguments arguments with
  | .ok options => options.carryOut
  | .error early => early.carryOut
