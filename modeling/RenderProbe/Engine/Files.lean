import RenderProbe.Diff.Unified
import RenderProbe.Disk.Basic
import RenderProbe.Engine.Basic
import RenderProbe.Project.Helper
import RenderProbe.Scan.Manifest
import RenderProbe.Source.ImportPath

/-!
# Detection and wrapping in files

The engine at work on a disk: it detects the components of every source below a root, and wraps one
component in its file. Whether a wrap succeeds or fails, there is a disk after it.
-/

namespace RenderProbe

/-- A source file as it was read. -/
structure SourceFile where
  path : Path
  text : String
  dialect : Dialect
  deriving DecidableEq, Inhabited

def SourceFile.read (disk : Disk) (path : Path) : Except Failure SourceFile :=
  match disk.readExact path with
  | .ok text => .ok ⟨path, text, Dialect.ofPath path⟩
  | .error e => .error (.unreadable path e)

def SourceFile.write (disk : Disk) (path : Path) (text : String) : Attempt Failure Disk :=
  match disk.replaceFile path text with
  | .ok after => .ok after
  | .fail left e => .fail left (.unwritable path e)

/-- A wish to wrap one component in one file. -/
structure WrapRequest where
  path : Path
  component : String
  symbol : String
  module : Option String := none
  helper : Option Path := none
  deriving DecidableEq, Inhabited

/-- What a wrap did to a file. -/
inductive Verdict where
  | wrapped (diff : String)
  | untouched (reason : Reason)
  /-- There is no file to import the wrapper from. -/
  | helperMissing
  deriving DecidableEq, Inhabited

/-- The result of a wrap in a file. -/
structure WrapOutcome where
  path : Path
  component : String
  degraded : Bool := false
  verdict : Verdict
  deriving DecidableEq, Inhabited

namespace WrapOutcome

def isSuccess (outcome : WrapOutcome) : Bool :=
  match outcome.verdict with
  | .wrapped _ => true
  | _ => false

/-- Why nothing was wrapped. -/
def reason? (outcome : WrapOutcome) : Option String :=
  match outcome.verdict with
  | .wrapped _ => none
  | .untouched reason => some reason.label
  | .helperMissing => some "helper-not-found"

/-- The change that was made, or would be made. -/
def diff? (outcome : WrapOutcome) : Option String :=
  match outcome.verdict with
  | .wrapped diff => some diff
  | _ => none

end WrapOutcome

namespace Engine

/-- The engine for a project with the given root. A root without configuration file gives an engine
with the default configuration and not one without any. -/
def forProject (disk : Disk) (root : Path) : Except Failure Engine :=
  (Config.load disk root).map fun config => ⟨some config⟩

/-! ## Detection -/

/-- The components of one listed source. A source that cannot be read is passed over with a warning,
and does not end the scan of a project. -/
def componentsOf (engine : Engine) (disk : Disk) (root : Path) (entry : Scan.SourceEntry) :
    Logged (List Component.Candidate) := do
  if engine.limit < (entry.size : Int) then
    Logged.report .info .engine
      s!"Skipped {entry.path}: {entry.size} bytes exceeds the size ceiling"
    return []
  else match SourceFile.read disk (root.under (Path.ofText entry.path)) with
    | .error e =>
      Logged.report .warning .engine e.message
      return []
    | .ok source =>
      Logged.reportAll (engine.candidatesLog source.text entry.path)
      return (engine.candidates source.text entry.path).map fun candidate =>
        { candidate with path := some entry.path }

def componentsOfAll (engine : Engine) (disk : Disk) (root : Path) :
    List Scan.SourceEntry → Logged (List Component.Candidate)
  | [] => pure []
  | entry :: rest => do
    let found ← engine.componentsOf disk root entry
    let others ← engine.componentsOfAll disk root rest
    return found ++ others

/-- The components of every source below a root. -/
def scanComponents (engine : Engine) (disk : Disk) (root : String) :
    Logged (Except Failure (List Component.Candidate)) := do
  match ← Scan.scan disk (engine.config.map (·.scan)) root with
  | .error e => return .error e
  | .ok manifest =>
    let found ← engine.componentsOfAll disk manifest.root manifest.files
    Logged.report .info .engine
      s!"Found {found.length} component(s) in {manifest.files.length} file(s)"
    return .ok found

/-! ## Wrapping -/

def moduleFor (disk : Disk) (request : WrapRequest) : Except Failure String :=
  match request.module, request.helper with
  | some module, _ => .ok module
  | none, some helper => .ok (ImportPath.resolve disk.workingDirectory request.path helper)
  | none, none => .error .missingModule

/-- Wrap a component in its file, and write the file unless it is a dry run. The diff is made in
either case, of the text that was read and the one that is or would be written. -/
def wrapFile (engine : Engine) (disk : Disk) (request : WrapRequest) (dryRun : Bool) :
    Logged (Attempt Failure (WrapOutcome × Disk)) :=
  match moduleFor disk request, SourceFile.read disk request.path with
  | .error e, _ => pure (.fail disk e)
  | _, .error e => pure (.fail disk e)
  | .ok module, .ok source => do
    let name := request.path.name
    let symbol := some request.symbol
    Logged.reportAll (engine.transformLog source.text request.component module name symbol)
    match engine.transform source.text request.component module name symbol with
    | .error e => return .fail disk e
    | .ok wrapped =>
      let degraded := wrapped.strategy.isDegraded
      match wrapped.result with
      | .untouched reason =>
        return .ok (⟨request.path, request.component, degraded, .untouched reason⟩, disk)
      | .wrapped text _ =>
        let outcome : WrapOutcome := ⟨request.path, request.component, degraded,
          .wrapped (Diff.unified name source.text text)⟩
        if dryRun then
          Logged.report .info .engine s!"Dry-run: {request.path.toText} not written"
          return .ok (outcome, disk)
        else match SourceFile.write disk request.path text with
          | .fail left e => return .fail left e
          | .ok after =>
            Logged.report .info .engine
              s!"Wrapped {request.component} in {request.path.toText}"
            return .ok (outcome, after)

/-- What is given for wraps besides the component. -/
structure WrapOptions where
  helper : Option Path := none
  module : Option String := none
  symbol : Option String := none
  dryRun : Bool := false
  deriving DecidableEq, Inhabited

/-- The module given for a wrap, or the configured one. -/
def moduleOr (engine : Engine) (module : Option String) : Option String :=
  module <|> engine.config.bind (·.instrumentation.module)

/-- The helper file for a wrap: the given one, the configured one, or one that is searched for. The
search is the only part that looks at the disk. -/
def helperFor (engine : Engine) (disk : Disk) (root path : Path) (options : WrapOptions)
    (symbol : String) : Logged (Option Path) :=
  match options.helper <|> engine.config.bind (·.instrumentation.helper) with
  | some helper => pure (some helper)
  | none => Project.findHelper disk root path symbol

/-- Wrap a component in a file below a root. A module by name comes before any helper file, given or
configured, and no file is searched for then. -/
def wrapComponent (engine : Engine) (disk : Disk) (root file : Path) (component : String)
    (options : WrapOptions) : Logged (Attempt Failure (WrapOutcome × Disk)) := do
  let root := disk.resolve root
  let path := root.under file
  let symbol := engine.symbolOr options.symbol
  match engine.moduleOr options.module with
  | some module =>
    engine.wrapFile disk ⟨path, component, symbol, some module, none⟩ options.dryRun
  | none => match ← engine.helperFor disk root path options symbol with
    | none => return .ok (⟨path, component, false, .helperMissing⟩, disk)
    | some helper =>
      engine.wrapFile disk ⟨path, component, symbol, none, some (root.under helper)⟩
        options.dryRun

end Engine

end RenderProbe
