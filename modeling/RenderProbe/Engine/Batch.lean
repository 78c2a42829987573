import RenderProbe.Component.Target
import RenderProbe.Engine.Files
import RenderProbe.Project.Locate

/-!
# Wrapping many components

A batch wraps one target after the other on the disk that the ones before it left. A target that
fails is noted, and the batch goes on.
-/

namespace RenderProbe

/-- What became of a batch. -/
structure BatchReport where
  succeeded : Nat := 0
  failed : Nat := 0
  skipped : Nat := 0
  outcomes : List WrapOutcome := []
  /-- The last message for each target that failed, in the order they first failed. -/
  errors : List (String × String) := []
  deriving DecidableEq, Inhabited

namespace BatchReport

/-- Note the message of a target; a target keeps its place. A target that is given twice and fails
twice has one message, the last. -/
def setError (target message : String) : List (String × String) → List (String × String)
  | [] => [(target, message)]
  | (other, old) :: rest =>
    if other == target then (target, message) :: rest
    else (other, old) :: setError target message rest

def fail (report : BatchReport) (target message : String) : BatchReport :=
  { report with failed := report.failed + 1, errors := setError target message report.errors }

def skip (report : BatchReport) : BatchReport :=
  { report with skipped := report.skipped + 1 }

/-- A target was tried. An outcome is kept whether or not anything was wrapped, and one that tells a
reason counts as failed. -/
def record (report : BatchReport) (target : String) (outcome : WrapOutcome) : BatchReport :=
  let noted := { report with outcomes := report.outcomes ++ [outcome] }
  match outcome.reason? with
  | none => { noted with succeeded := report.succeeded + 1 }
  | some reason => noted.fail target reason

def counts (report : BatchReport) : String :=
  s!"Wrapped {report.succeeded} component(s), {report.failed} failed, {report.skipped} skipped"

end BatchReport

/-- What a batch shares between its targets. -/
structure BatchScope where
  root : Path
  /-- Where files are searched for that are not in their place. -/
  app : Path
  extensions : List String
  options : Engine.WrapOptions
  deriving Inhabited

/-- What a target asks for by its text alone. -/
inductive TargetPlan where
  /-- It names no file. -/
  | noFile
  /-- Its file is blank. -/
  | blankFile
  /-- Its file is no component source. -/
  | notSource
  | wrap (file name : String)
  deriving DecidableEq, Inhabited

namespace TargetPlan

/-- Read a target; a target without name is named after its file. A lone name without slashes is
taken for the name of a component and not for a file in the root. -/
def ofTarget (extensions : List String) (target : String) : TargetPlan :=
  let (file, name) := Component.splitTarget target
  if name.isNone && !file.toList.contains '/' && !file.toList.contains '\\' then .noFile
  else if (Text.trimBlanks file.toList).isEmpty then .blankFile
  else if !Scan.endsWithAny extensions file then .notSource
  else .wrap file (name.getD (Path.ofText file).stem)

end TargetPlan

namespace Engine

/-- The file that a target's component is wrapped in: the one it names, or one found by its export.
A file that was moved since the target was written down is found again in this way. -/
def fileFor (disk : Disk) (scope : BatchScope) (file name : String) : Logged (Option Path) :=
  let path := scope.root.under (Path.ofText file)
  if disk.isFile path then pure (some path)
  else do
    Logged.report .warning .engine
      s!"{path.toText} not found; searching for {name} under {scope.app.toText}"
    return Project.findFile disk name scope.app scope.extensions

/-- Wrap a component in the file found for it, and note what became of it. The disk goes on from
what a failed wrap left, too. -/
def wrapIn (engine : Engine) (scope : BatchScope) (target name : String) (path : Path)
    (disk : Disk) (report : BatchReport) : Logged (BatchReport × Disk) := do
  match ← engine.wrapComponent disk scope.root path name scope.options with
  | .fail left e =>
    Logged.report .error .engine s!"Failed to wrap {target}: {e.message}"
    return (report.fail target e.message, left)
  | .ok (outcome, after) =>
    match outcome.reason? with
    | some reason =>
      Logged.report .warning .engine s!"Could not wrap {name} in {path.toText} ({reason})"
    | none => pure ()
    return (report.record target outcome, after)

/-- Wrap one target. Whatever comes of it is counted once: as succeeded, failed or skipped. -/
def wrapTarget (engine : Engine) (scope : BatchScope) (target : String) (disk : Disk)
    (report : BatchReport) : Logged (BatchReport × Disk) :=
  match TargetPlan.ofTarget scope.extensions target with
  | .noFile => do
    Logged.report .warning .engine
      s!"Target {target} has no file path; select it as path::Name"
    return (report.fail target "target has no file path", disk)
  | .blankFile => pure (report.fail target "target has an empty file path", disk)
  | .notSource => do
    Logged.report .info .engine s!"Skipping {target}: not a component source file"
    return (report.skip, disk)
  | .wrap file name => do
    match ← fileFor disk scope file name with
    | none => return (report.fail target s!"no file exports {name}", disk)
    | some path => engine.wrapIn scope target name path disk report

def wrapTargets (engine : Engine) (scope : BatchScope) :
    List String → Disk → BatchReport → Logged (BatchReport × Disk)
  | [], disk, report => pure (report, disk)
  | target :: rest, disk, report => do
    let (report, disk) ← engine.wrapTarget scope target disk report
    engine.wrapTargets scope rest disk report

def extensions (engine : Engine) : List String :=
  match engine.config with
  | some config => config.scan.extensions
  | none => defaultExtensions

/-- Wrap many targets below a root. The app is looked for once and before any target, so a wrap
cannot change where the later ones are searched for. -/
def wrapComponents (engine : Engine) (disk : Disk) (root : Path) (targets : List String)
    (options : WrapOptions) : Logged (BatchReport × Disk) := do
  let root := disk.resolve root
  let app := (← Project.findRoot disk root).getD root
  Logged.report .info .engine s!"Wrapping {targets.length} component(s)"
  let scope : BatchScope := ⟨root, app, engine.extensions, options⟩
  let (report, disk) ← engine.wrapTargets scope targets disk {}
  Logged.report .info .engine report.counts
  return (report, disk)

end Engine

end RenderProbe
