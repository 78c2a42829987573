import RenderProbe.Disk.Walk
import RenderProbe.Json.Reader
import RenderProbe.Log
import RenderProbe.Scan.SourceFile

/-!
# App packages

A directory is an app package when its manifest depends on the app framework. The app of a workspace
is the first of the usual places that is one.
-/

namespace RenderProbe.Project

def manifestName : String :=
  "package.json"

/-- The dependency that makes a package an app. -/
def framework : String :=
  "react-native"

/-- Whether the value of a manifest depends on the framework, at run time or for development. The
version that is asked for does not matter. -/
def dependsOnFramework (manifest : Json) : Bool :=
  ["dependencies", "devDependencies"].any fun kind =>
    (manifest.member? kind).any (Json.hasMember framework)

/-- What is wrong with the bytes of a text file that is no text. -/
def undecodableMessage (disk : Disk) (path : Path) : String :=
  match disk.readBytes path with
  | .ok bytes => match Text.fault? 0 [] none bytes.data.toList with
    | some fault => fault.message
    | none => FileError.undecodable.reason
  | .error e => e.message path

/-- The manifest at a path, or what keeps it from being read. That a file does not exist is nothing
to report, so no cause is given for it. -/
def readManifest (disk : Disk) (path : Path) : Except (Option String) Json :=
  match disk.readText path with
  | .error .notFound => .error none
  | .error .undecodable => .error (some (undecodableMessage disk path))
  | .error e => .error (some (e.message path))
  | .ok text => match Json.parse text.toList with
    | .ok value => .ok value
    | .error fault => .error (some (fault.message text.toList))

def isAppPackage (disk : Disk) (directory : Path) : Bool :=
  match readManifest disk (directory.child manifestName) with
  | .ok manifest => dependsOnFramework manifest
  | .error _ => false

/-- What is reported when a directory is looked at. -/
def packageLog (disk : Disk) (directory : Path) : List Record :=
  let path := directory.child manifestName
  match readManifest disk path with
  | .error (some cause) => [⟨.debug, .project, s!"Unreadable {path.toText}: {cause}"⟩]
  | _ => []

/-- Places of the app in a workspace, in the order they are tried: the workspace itself, and the
usual places in a repository of several packages. -/
def appPlaces : List String :=
  ["", "apps/mobile", "apps/react-native", "packages/mobile", "packages/app", "mobile", "app"]

def firstApp (disk : Disk) : List Path → Logged (Option Path)
  | [] => pure none
  | directory :: rest => do
    Logged.reportAll (packageLog disk directory)
    if isAppPackage disk directory then return some directory
    else firstApp disk rest

/-- The app of a workspace. -/
def findRoot (disk : Disk) (workspace : Path) : Logged (Option Path) :=
  let base := disk.resolve workspace
  firstApp disk (appPlaces.map fun place => base.under (Path.ofText place))

/-! ## Files of a project -/

/-- The files below a directory: a directory's own by name, then those of its subdirectories.
Directories are passed over by the same names as in a scan, but by no rules. -/
def filesBelow (disk : Disk) (top : Path) : List Path :=
  let entered := fun names : List String => names.getLast?.all Scan.isEntered
  (disk.walk top entered).flatMap fun visit =>
    visit.files.map fun name => (top.under ⟨"", visit.below⟩).child name

end RenderProbe.Project
