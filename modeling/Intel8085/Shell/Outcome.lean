import Intel8085.Shell.Report

/-!
# Outcomes

An invocation of the program takes its arguments and a file tree to an outcome: what it printed on
either stream, the tree it left, the records in its log file, and how it ended.  The effects of a
report take place one after the other; a file that cannot be written ends the invocation.

The log file holds what the tree has at its place, followed by the records.  When the program stores
its output in the log file, the records told before are lost.
-/

set_option autoImplicit false

namespace Intel8085.Shell

def versionLine : String := "sim85 0.4.0"

def usageLine : String :=
  "usage: sim85 [-h] [-o OUTPUT] [--format bin|hex|listing] [--profile default|datasheet] [--run] " ++
    "[--max-steps MAX_STEPS] [--trace] [--dump-memory START:LEN] [--disasm] [-v] [-q] " ++
    "[--log-file LOG_FILE] [--version] input"

structure Outcome where
  tree : FileTree
  output : List Content
  console : List String
  records : List Record
  ending : Ending
  deriving DecidableEq, Repr

def Effect.output? : Effect → Option Content
  | .print content => some content
  | _ => none

def Effect.consoleLine? (options : Options) : Effect → Option String
  | .tell record => if options.showsLevel record.level then some record.consoleLine else none
  | .complain line => some line
  | _ => none

def Effect.record? : Effect → Option Record
  | .tell record => some record
  | _ => none

def FileTree.isSamePlace (tree : FileTree) (first second : String) : Bool :=
  match tree.locate first, tree.locate second with
  | .ok place, .ok other => place == other
  | _, _ => false

def Effect.storesAt (tree : FileTree) (file : String) : Effect → Bool
  | .store name _ => tree.isSamePlace name file
  | _ => false

/-- The records that the log file holds once effects took place: those that were told since something
was last stored in it. -/
def logRecords (options : Options) (tree : FileTree) (effects : List Effect) : List Record :=
  match options.logName with
  | none => []
  | some log =>
      let latest := effects.reverse.takeWhile fun effect => !effect.storesAt tree (normalName log)
      latest.reverse.filterMap Effect.record?

/-- Carries out effects behind those already `done`, which are in reverse, up to the first file that
cannot be written. -/
def FileTree.carryOut (tree : FileTree) (done : List Effect) :
    List Effect → FileTree × List Effect × Option FileError
  | [] => (tree, done.reverse, none)
  | .store name content :: rest =>
      match tree.write name content.toBytes with
      | .ok written => written.carryOut (.store name content :: done) rest
      | .error error => (tree, done.reverse, some error)
  | effect :: rest => tree.carryOut (effect :: done) rest

def Report.outcome (report : Report) (options : Options) (tree : FileTree) : Outcome :=
  let (left, done, error) := tree.carryOut [] report.effects
  { tree := left
    output := done.filterMap Effect.output?
    console := done.filterMap (Effect.consoleLine? options)
    records := logRecords options left done
    ending := match error with
      | some error => .brokenFile error
      | none => report.ending }

def FileTree.prepareLog (tree : FileTree) (options : Options) : Except FileError FileTree :=
  match options.logName with
  | some name => tree.openLog name
  | none => .ok tree

def Early.outcome (early : Early) (tree : FileTree) : Outcome :=
  let output := fun (line : String) => [Content.text (line ++ "\n")]
  match early with
  | .refused =>
      { tree, output := [], console := [usageLine], records := [], ending := .status 2 }
  | .showVersion =>
      { tree, output := output versionLine, console := [], records := [], ending := .status 0 }
  | .showHelp =>
      { tree, output := output usageLine, console := [], records := [], ending := .status 0 }

/-- Runs the program with its arguments in a file tree.  A run of a machine takes at most `patience`
turns. -/
def invoke (patience : Nat) (arguments : List String) (tree : FileTree) : Outcome :=
  match Options.ofArguments arguments with
  | .error early => early.outcome tree
  | .ok options =>
      match tree.prepareLog options with
      | .error error => (Report.silent (.brokenFile error)).outcome options tree
      | .ok prepared =>
          (inputReport options patience (prepared.read options.inputName)).outcome options prepared

end Intel8085.Shell
