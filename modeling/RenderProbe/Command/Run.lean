import RenderProbe.Command.Arguments
import RenderProbe.Component.Tree
import RenderProbe.Engine.Batch

/-!
# Running a command

A run turns arguments and a disk into a new disk, the text of both output channels and an exit code.
Records of the engine go to the console from a level on, and all of them to a log file if one is
given.

* `Command.run` runs a command.
-/

namespace RenderProbe.Command

/-- What a run leaves behind. A run that fails in a way it does not handle has a failure in the
place of its exit code. -/
structure Result where
  disk : Disk
  output : String := ""
  console : String := ""
  exit : Except Failure Nat := .ok 0

/-! ## Logs -/

def programName : String :=
  "profwrap"

/-- The least urgent level that the console shows. -/
def consoleLevel (verbose quiet : Bool) : Level :=
  if verbose then .debug else if quiet then .warning else .info

def consoleLine (record : Record) : String :=
  s!"[{programName}] {record.level.label} {record.message}\n"

/-- The records of a level or a more urgent one, as text on the console. -/
def consoleText (level : Level) (log : List Record) : String :=
  String.join ((log.filter fun record => level.rank ≤ record.level.rank).map consoleLine)

/-- A record as a line of a log file. -/
def fileLine (stamp : String) (record : Record) : String :=
  s!"{stamp} {record.level.label} {programName}.{record.reporter.label}: {record.message}\n"

def fileText (stamp : String) (log : List Record) : String :=
  String.join (log.map (fileLine stamp))

/-! ## Tasks -/

/-- What a task comes to, before its records are shown. -/
structure Report where
  disk : Disk
  output : String := ""
  /-- What is said on the console after all records. -/
  complaint : String := ""
  exit : Except Failure Nat := .ok 0

def treeText (json : Bool) (nodes : List Component.TreeNode) : String :=
  if json then (Json.array (Component.treeValues nodes)).pretty ++ "\n"
  else if nodes.isEmpty then "No components found\n"
  else String.join ((Component.treeLines "" nodes).map (· ++ "\n"))

/-- List the components below a path. A path that leads to no directory is a complaint with an exit
code; other failures are not caught here. -/
def scan (engine : Engine) (disk : Disk) (path : Path) (json : Bool) : Logged Report := do
  match ← engine.scanComponents disk path.toText with
  | .ok found => return { disk, output := treeText json (Component.tree found) }
  | .error e => match e with
    | .projectNotFound _ | .projectNotDirectory _ =>
      return { disk, complaint := e.message ++ "\n", exit := .ok 1 }
    | _ => return { disk, exit := .error e }

/-- The order of errors. -/
def errorBefore (a b : String × String) : Bool :=
  !(b.1 < a.1)

def batchText (report : BatchReport) (dryRun : Bool) : String :=
  let diffs := if dryRun then report.outcomes.filterMap WrapOutcome.diff? else []
  let errors := (report.errors.mergeSort errorBefore).map fun (target, message) =>
    s!"  {target}: {message}\n"
  String.join diffs ++ report.counts ++ (if dryRun then " (dry-run)\n" else "\n")
    ++ String.join errors

/-- Wrap targets below a root. A run counts as failed only if no target was wrapped and one of them
failed; a run that skips everything has done what it was asked. -/
def wrap (engine : Engine) (disk : Disk) (root : Path) (targets : List String)
    (options : Engine.WrapOptions) : Logged Report := do
  match options.symbol.filter fun symbol => !Text.isIdentifier symbol with
  | some symbol =>
    return { disk, exit := .ok 1
             complaint := s!"--symbol must be a valid identifier, got {Text.quoted symbol}\n" }
  | none =>
    let (report, after) ← engine.wrapComponents disk root targets options
    let code := if report.failed != 0 && report.succeeded == 0 then 1 else 0
    return { disk := after, output := batchText report options.dryRun, exit := .ok code }

def perform (disk : Disk) (task : Task) : Logged Report :=
  let root := Path.ofText task.root
  match Engine.forProject disk root with
  | .error (.config e) =>
    pure { disk, complaint := s!"Invalid configuration: {e.message}\n", exit := .ok 1 }
  | .error e => pure { disk, exit := .error e }
  | .ok engine => match task with
    | .scan _ json => scan engine disk root json
    | .wrap targets _ helper module symbol dryRun =>
      wrap engine disk root targets
        { helper := helper.map Path.ofText, module, symbol, dryRun }

/-! ## Runs -/

/-- Whether a task's output is for other programs, so that the console stays quiet. Warnings are
shown all the same, on the other channel. -/
def isQuiet : Task → Bool
  | .scan _ json => json
  | .wrap .. => false

/-- The path of a log file, every `..` settled before links are looked at. Paths of sources are
followed the other way round, link by link. -/
def logPath (disk : Disk) (written : String) : Path :=
  ⟨"/", Path.normalize disk.workingDirectory (Path.ofText written)⟩

/-- The disk with the log file opened, which makes the file. This comes before the task, which finds
the file on the disk it works on. -/
def openLog (disk : Disk) (logFile : Option String) : Except FileError Disk :=
  match logFile with
  | none => .ok disk
  | some written => disk.appendFile (logPath disk written) ByteArray.empty

/-- The disk with records added to the log file. -/
def writeLog (disk : Disk) (logFile : Option String) (text : String) : Disk :=
  match logFile with
  | none => disk
  | some written => match disk.appendFile (logPath disk written) text.toUTF8 with
    | .ok after => after
    | .error _ => disk

/-- Run what was asked for; the records in a log file carry a stamp. -/
def invoke (disk : Disk) (stamp : String) (invocation : Invocation) : Result :=
  match openLog disk invocation.logFile with
  | .error e => { disk, exit := .error (.file e) }
  | .ok opened =>
    let done := perform opened invocation.task
    let level := consoleLevel invocation.verbose (isQuiet invocation.task)
    let report := done.value
    { disk := writeLog report.disk invocation.logFile (fileText stamp done.log)
      output := report.output
      console := consoleText level done.log ++ report.complaint
      exit := report.exit }

def usage : String :=
  s!"usage: {programName} [-v] [--log-file FILE] scan [PATH] [--json]\n"
    ++ s!"       {programName} [-v] [--log-file FILE] wrap TARGET... [--root PATH] "
    ++ "[--helper FILE] [--module NAME] [--symbol NAME] [--dry-run]\n"

/-- Run a command. Arguments that cannot be read change nothing and leave a code of their own,
before any configuration is looked at. -/
def run (disk : Disk) (stamp : String) (arguments : List String) : Result :=
  match Request.ofArguments arguments with
  | .run invocation => invoke disk stamp invocation
  | .help => { disk, output := usage }
  | .refused => { disk, exit := .ok 2 }

end RenderProbe.Command
