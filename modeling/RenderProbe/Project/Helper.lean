import RenderProbe.Project.Package
import RenderProbe.Text.Match

/-!
# Finding the wrapper's file

The helper file of a wrapper is named after it and mentions it. The nearest app package above a
component is searched first, then the whole workspace.
-/

namespace RenderProbe.Project

def helperSuffixes : List String :=
  [".tsx", ".ts", ".jsx", ".js"]

/-- How many directories above a component are looked at. -/
def parentLimit : Nat :=
  10

def occursIn (wanted : List Char) : List Char → Bool
  | [] => wanted.isEmpty
  | c :: rest => wanted.isPrefixOf (c :: rest) || occursIn wanted rest

/-- Whether a file is the helper of a wrapper: it is named after the wrapper in any case, and the
wrapper's own name, in its case, occurs in the text. -/
def isHelper (disk : Disk) (symbol : String) (path : Path) : Bool :=
  let wanted := helperSuffixes.map fun suffix => Text.lowercase (symbol ++ suffix)
  wanted.contains (Text.lowercase path.name) && match disk.readLossy path with
    | .ok text => occursIn symbol.toList text.toList
    | .error _ => false

/-- The first helper below a directory. -/
def helperBelow (disk : Disk) (symbol : String) (top : Path) : Option Path :=
  (filesBelow disk top).find? (isHelper disk symbol)

/-- The nearest app package from a directory upwards, within a number of directories. The top of the
tree is its own parent, which ends the search before the number does. -/
def nearestApp (disk : Disk) : Nat → Path → Logged (Option Path)
  | 0, _ => pure none
  | rounds + 1, directory => do
    Logged.reportAll (packageLog disk directory)
    if isAppPackage disk directory then return some directory
    else if directory.parent == directory then return none
    else nearestApp disk rounds directory.parent

/-- The helper file of a wrapper for a component's file. The whole workspace is searched only if the
nearest app has no helper, and not twice if the app is the workspace. -/
def findHelper (disk : Disk) (workspace component : Path) (symbol : String) :
    Logged (Option Path) := do
  let workspace := disk.resolve workspace
  let nearest ← nearestApp disk parentLimit (workspace.under component).parent
  let start := nearest.getD workspace
  let found := match helperBelow disk symbol start with
    | some path => some path
    | none => if start == workspace then none else helperBelow disk symbol workspace
  if found.isNone then
    Logged.report .warning .project
      s!"Could not find {symbol} helper under {workspace.toText}"
  return found

end RenderProbe.Project
