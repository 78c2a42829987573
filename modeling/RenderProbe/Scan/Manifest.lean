import RenderProbe.Config.Load
import RenderProbe.Disk.Walk
import RenderProbe.Log
import RenderProbe.Scan.Ignore
import RenderProbe.Scan.SourceFile

/-!
# Scanning a project

A scan lists the component sources below a project root, by path. Hidden directories, dependency
caches and build output are never entered; ignore rules keep out more, and the depth is bounded.
-/

namespace RenderProbe.Scan

/-- A listed source: its path below the root, its size in bytes and its dialect. -/
structure SourceEntry where
  path : String
  size : Nat
  dialect : Dialect
  deriving DecidableEq, Inhabited

/-- The sources of a project. -/
structure Manifest where
  root : Path
  files : List SourceEntry
  deriving DecidableEq, Inhabited

/-- Names below the root as one path. -/
def relativePath (names : List String) : String :=
  Text.join '/' names

def ignoreFileName : String :=
  ".gitignore"

/-! ## What is listed -/

/-- Whether a scan enters the directory at some names below the root: its parent is not too deep,
its own name is not excluded, and no rule keeps it out. The root itself is entered in any case. -/
def entersAt (settings : ScanSettings) (rules : List IgnoreRule) (names : List String) : Bool :=
  (names.length : Int) - 1 < settings.maxDepth && names.getLast?.all isEntered
    && !isIgnored rules (relativePath names) true

/-- Whether a scan lists the file at some names below the root. Its directories are not asked about
here: what they keep out is never visited. -/
def listsAt (settings : ScanSettings) (rules : List IgnoreRule) (names : List String) : Bool :=
  names.getLast?.any (isSourceFile settings.extensions)
    && !isIgnored rules (relativePath names) false

/-- The names of the files that a visited directory adds. -/
def listedIn (settings : ScanSettings) (rules : List IgnoreRule) (visit : Visit) :
    List (List String) :=
  (visit.files.map fun name => visit.below ++ [name]).filter (listsAt settings rules)

/-- The entry of a file below the root. Something else at its place is listed without a size, and
what cannot be looked at, such as a link that leads nowhere, has no entry. -/
def entryAt (disk : Disk) (root : Path) (names : List String) : Except FileError SourceEntry :=
  let path := root.under ⟨"", names⟩
  match disk.stat path with
  | .ok (.file content _) => .ok ⟨relativePath names, content.size, Dialect.ofPath path⟩
  | .ok _ => .ok ⟨relativePath names, 0, Dialect.ofPath path⟩
  | .error e => .error e

def entryBefore (a b : SourceEntry) : Bool :=
  !(b.path < a.path)

/-! ## What is reported -/

def entryLog (disk : Disk) (root : Path) (names : List String) : List Record :=
  match entryAt disk root names with
  | .ok _ => []
  | .error e =>
    let cause := e.message (root.under ⟨"", names⟩)
    [⟨.warning, .scanner, s!"Cannot stat {relativePath names}: {cause}"⟩]

def visitLog (disk : Disk) (root : Path) (settings : ScanSettings) (rules : List IgnoreRule)
    (visit : Visit) : List Record :=
  (if settings.maxDepth ≤ (visit.below.length : Int) then
    [⟨.debug, .scanner, s!"Depth limit reached at {relativePath visit.below}"⟩]
  else []) ++ (listedIn settings rules visit).flatMap (entryLog disk root)

/-! ## Scans -/

/-- List the sources below a root, by settings and rules. They are sorted by whole paths at the end,
so the order of the walk does not matter. -/
def listFiles (disk : Disk) (root : Path) (settings : ScanSettings) (rules : List IgnoreRule) :
    Logged (List SourceEntry) :=
  let visits := disk.walk root (entersAt settings rules)
  let found := visits.flatMap (listedIn settings rules)
  let entries := found.filterMap fun names => (entryAt disk root names).toOption
  ⟨entries.mergeSort entryBefore, visits.flatMap (visitLog disk root settings rules)⟩

/-- The rules of the ignore file in a root, if there is one. -/
def fileRules (disk : Disk) (root : Path) : Except Failure (List IgnoreRule) :=
  let path := root.child ignoreFileName
  if !disk.contains path then .ok []
  else match disk.readLossy path with
    | .ok text => .ok (IgnoreRule.ofFile text)
    | .error e => .error (.file e)

/-- The scan settings of a root's own configuration. A refused configuration is ignored with a
warning, since a scan without settings is of more use than none. -/
def ownSettings (disk : Disk) (root : Path) : Logged (Except Failure ScanSettings) :=
  match Config.load disk root with
  | .ok config => pure (.ok config.scan)
  | .error (.config e) => do
    Logged.report .warning .scanner s!"Ignoring invalid configuration: {e.message}"
    return .ok {}
  | .error e => pure (.error e)

/-- Scan the directory that a written path leads to, with the given settings or its own. The
patterns of the configuration come after the rules of the ignore file and so have the last word. -/
def scan (disk : Disk) (settings : Option ScanSettings) (written : String) :
    Logged (Except Failure Manifest) :=
  let root := disk.resolve (Path.ofText written)
  if !disk.contains root then pure (.error (.projectNotFound written))
  else if !disk.isDirectory root then pure (.error (.projectNotDirectory written))
  else do
    let chosen ← match settings with
      | some settings => pure (.ok settings)
      | none => ownSettings disk root
    match chosen, fileRules disk root with
    | .error e, _ => return .error e
    | _, .error e => return .error e
    | .ok settings, .ok rules =>
      let files ← listFiles disk root settings
        (rules ++ IgnoreRule.ofPatterns settings.excludePaths)
      Logged.report .debug .scanner
        s!"Scanner found {files.length} source files under {root.toText}"
      return .ok ⟨root, files⟩

end RenderProbe.Scan
