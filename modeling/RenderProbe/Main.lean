import RenderProbe.Command.Run
import RenderProbe.Command.Stamp

/-!
# The program

Takes a picture of the directories a run is about, runs the command on it, and writes the files back
that the run changed.
-/

namespace RenderProbe.Program

/-- The path that the names of an entry spell. -/
def textOf (names : List String) : String :=
  (Path.mk "/" names).toText

/-- The last name of a place and the directory that holds it. -/
def entryOf (names : List String) : IO.FS.DirEntry :=
  { root := textOf names.dropLast, fileName := names.getLast?.getD "" }

/-- What a link leads to; a link that leads nowhere leads to a name that nothing has. -/
def readLink (names : List String) : IO Entry := do
  try
    let target ← IO.FS.realPath (textOf names)
    return .link (Path.ofText target.toString)
  catch _ => return .link ⟨"", [""]⟩

/-- What is at a place. Directories that no run enters are taken as empty. -/
partial def read (names : List String) (top : Bool) : IO Entry := do
  match (← (entryOf names).path.symlinkMetadata).type with
  | .symlink => if top then readDirectory names else readLink names
  | .dir =>
    if top || names.getLast?.all Scan.isEntered then readDirectory names
    else return .directory []
  | .file => return .file (← IO.FS.readBinFile (textOf names)) Entry.fileMode
  | .other => return .file ByteArray.empty Entry.fileMode
where
  /-- What is in a directory. -/
  readDirectory (names : List String) : IO Entry := do
    let mut entries := #[]
    for child in ← (entryOf names).path.readDir do
      entries := entries.push (child.fileName, ← read (names ++ [child.fileName]) false)
    return .directory entries.toList

/-- The disk with what is at a place, if something is there. -/
def addPlace (disk : Disk) (names : List String) : IO Disk := do
  if ← (entryOf names).path.pathExists then
    return { disk with tree := disk.tree.graft names (← read names true) }
  else return disk

def ancestors (names : List String) : List (List String) :=
  (List.range names.length).map names.take

/-- The disk that a run on a directory needs: the directory and the manifests above it. -/
def picture (workingDirectory root : Path) : IO Disk := do
  let names := Path.normalize workingDirectory root
  let mut disk : Disk := { tree := .directory [], workingDirectory }
  for above in ancestors names do
    disk ← addPlace disk (above ++ [Project.manifestName])
  addPlace disk names

/-- Write the files that differ between two disks. -/
def writeChanges (before after : Disk) : IO Unit := do
  for (names, content) in after.tree.files [] do
    match before.tree.get? names with
    | some (.file old _) =>
      if old != content then IO.FS.writeBinFile (textOf names) content
    | some _ =>
      IO.FS.removeFile (textOf names)
      IO.FS.writeBinFile (textOf names) content
    | none => IO.FS.writeBinFile (textOf names) content

/-- The stamp of this moment, taken from a file made now. -/
def currentStamp : IO String := do
  let (_, path) ← IO.FS.createTempFile
  let modified := (← path.metadata).modified
  IO.FS.removeFile path
  return Command.stampOf modified.sec.toNat (modified.nsec.toNat / 1000000)

def run (arguments : List String) : IO UInt32 := do
  let workingDirectory := Path.ofText (← IO.currentDir).toString
  let root := match Command.Request.ofArguments arguments with
    | .run invocation => Path.ofText invocation.task.root
    | _ => workingDirectory
  let disk ← addPlace (← picture workingDirectory root) workingDirectory.names
  let result := Command.run disk (← currentStamp) arguments
  writeChanges disk result.disk
  IO.print result.output
  IO.eprint result.console
  match result.exit with
  | .ok code =>
    if code == 2 then IO.eprint Command.usage
    return code.toUInt32
  | .error e =>
    IO.eprintln e.message
    return 1

end RenderProbe.Program

def main (arguments : List String) : IO UInt32 :=
  RenderProbe.Program.run arguments
