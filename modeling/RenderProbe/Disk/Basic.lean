import RenderProbe.Disk.Entry
import RenderProbe.Disk.Error
import RenderProbe.Text.Utf8

/-!
# Disks

A directory tree with a working directory. Paths are followed through symbolic links, a bounded
number of them.

* `Disk.locate` finds the place a path leads to, or says why there is none.
* `Disk.resolve` gives the place a path would lead to, whether or not something is there. There are
  no home directories, so nothing is expanded on the way.
* `Disk.replaceFile` replaces a whole file by way of a temporary one.
-/

namespace RenderProbe

/-- A directory tree and the directory that relative paths start from. -/
structure Disk where
  tree : Entry
  workingDirectory : Path
  deriving Inhabited

/-- How a change of a disk ended: with a result, or with an error and the disk that it left. Where
only the cause of an error matters, the disk need not be named. -/
inductive Attempt (ε α : Type) where
  | ok (result : α)
  | error {left : Disk} (cause : ε)

namespace Attempt

/-- An error and the disk that it left. -/
@[match_pattern] def fail {ε α : Type} (left : Disk) (cause : ε) : Attempt ε α :=
  @error ε α left cause

end Attempt

namespace Disk

/-! ## Following links -/

/-- The most bytes a name may have. -/
def nameLimit : Nat :=
  255

/-- The most links that are followed on the way to one place. -/
def linkLimit : Nat :=
  40

/-- Follow names from the directory at `place` down to the first link, which is left to `onLink`
together with the directory it counts from and the names still to follow. So the recursion is on the
names, and the count of links is kept by `follow`. -/
def followNames (disk : Disk)
    (onLink : List String → List String → Except FileError (List String))
    (place : List String) : List String → Except FileError (List String)
  | [] => .ok place
  | name :: rest =>
    if name == ".." then followNames disk onLink place.dropLast rest
    else if nameLimit < name.utf8ByteSize then .error .nameTooLong
    else match disk.tree.get? (place ++ [name]) with
      | none => .error .notFound
      | some (.directory _) => followNames disk onLink (place ++ [name]) rest
      | some (.link target) =>
        onLink (if target.isAbsolute then [] else place) (target.names ++ rest)
      | some (.file ..) => if rest.isEmpty then .ok (place ++ [name]) else .error .notDirectory

/-- Follow names through at most a number of links. Links may lead in circles, so the number is what
ends the way. -/
def follow (disk : Disk) : Nat → List String → List String → Except FileError (List String)
  | 0 => followNames disk fun _ _ => .error .linkLoop
  | links + 1 => followNames disk (follow disk links)

def namesOf (disk : Disk) (path : Path) : List String :=
  (disk.workingDirectory.under path).names

/-- The place a path leads to. Every directory on the way has to exist, also one that a `..` leaves
again. -/
def locate (disk : Disk) (path : Path) : Except FileError (List String) :=
  follow disk linkLimit [] (disk.namesOf path)

/-- Settle names from the directory at `place`, where names of nothing are kept as they are. Unlike
`followNames` this never fails: a file may have names below it. -/
def settleNames (disk : Disk)
    (onLink : List String → String → Path → List String → List String)
    (place : List String) : List String → List String
  | [] => place
  | name :: rest =>
    if name == ".." then settleNames disk onLink place.dropLast rest
    else match disk.tree.get? (place ++ [name]) with
      | some (.link target) => onLink place name target rest
      | _ => settleNames disk onLink (place ++ [name]) rest

def settle (disk : Disk) : Nat → List String → List String → List String
  | 0 => settleNames disk fun place name _ rest => place ++ name :: rest
  | links + 1 => settleNames disk fun place _ target rest =>
      settle disk links (if target.isAbsolute then [] else place) (target.names ++ rest)

/-- The place a path would lead to, as an absolute path. Links are followed as far as there are any,
and the rest of the path need not exist. -/
def resolve (disk : Disk) (path : Path) : Path :=
  ⟨"/", settle disk linkLimit [] (disk.namesOf path)⟩

/-! ## What is at a path -/

/-- The entry a path leads to, never a link. Everything that is asked of a path goes through here,
so all of it agrees on where the path leads. -/
def stat (disk : Disk) (path : Path) : Except FileError Entry :=
  match disk.locate path with
  | .error e => .error e
  | .ok names => match disk.tree.get? names with
    | some entry => .ok entry
    | none => .error .notFound

def contains (disk : Disk) (path : Path) : Bool :=
  match disk.stat path with
  | .ok _ => true
  | .error _ => false

def isFile (disk : Disk) (path : Path) : Bool :=
  match disk.stat path with
  | .ok (.file ..) => true
  | _ => false

def isDirectory (disk : Disk) (path : Path) : Bool :=
  match disk.stat path with
  | .ok (.directory _) => true
  | _ => false

/-! ## Reading -/

def readBytes (disk : Disk) (path : Path) : Except FileError ByteArray :=
  match disk.stat path with
  | .error e => .error e
  | .ok (.file content _) => .ok content
  | .ok _ => .error .isDirectory

/-- The text of a file, exactly as its bytes spell it. Sources are read in this way, so that their
line ends are still there when they are written back. -/
def readExact (disk : Disk) (path : Path) : Except FileError String :=
  match disk.readBytes path with
  | .error e => .error e
  | .ok bytes => match String.fromUTF8? bytes with
    | some text => .ok text
    | none => .error .undecodable

/-- The text of a file with every line end as a line feed. Configurations and manifests are read in
this way. -/
def readText (disk : Disk) (path : Path) : Except FileError String :=
  (disk.readExact path).map Text.withUnifiedBreaks

/-- The text of a file with every line end as a line feed, malformed pieces replaced. It is for
texts that are only searched. -/
def readLossy (disk : Disk) (path : Path) : Except FileError String :=
  (disk.readBytes path).map fun bytes => Text.withUnifiedBreaks (Text.ofBytesLossy bytes)

/-! ## Writing -/

def temporaryMode : Nat :=
  0o600

def temporaryLetters : List Char :=
  "abcdefghijklmnopqrstuvwxyz0123456789_".toList

/-- How many letters end the name of a temporary file. -/
def temporaryLength : Nat :=
  8

/-- How many names are tried for a temporary file. -/
def temporaryTries : Nat :=
  10000

/-- The name of a temporary file that stands for the file of a name. The number is spelled by its
last letters, of which there are always `temporaryLength`. -/
def temporaryName (name : String) (number : Nat) : String :=
  let base := temporaryLetters.length
  let letters := (List.range temporaryLength).map fun position =>
    temporaryLetters.getD (number / Nat.pow base position % base) '_'
  "." ++ name ++ "." ++ String.ofList letters

/-- The first name of a temporary file that no entry has, from a number on. -/
def freeName? (entries : List (String × Entry)) (name : String) : Nat → Nat → Option String
  | 0, _ => none
  | tries + 1, number =>
    let temporary := temporaryName name number
    if (entries.lookup temporary).isNone then some temporary
    else freeName? entries name tries (number + 1)

/-- Make an empty file in the directory at a place, to stand for the file of a name. It lies beside
that file, so that the move at the end stays inside one directory. -/
def createTemporary (disk : Disk) (directory : List String) (name : String) :
    Except FileError (List String × Disk) :=
  match disk.tree.get? directory with
  | some (.directory entries) => match freeName? entries name temporaryTries 0 with
    | none => .error .noFreeName
    | some temporary =>
      if nameLimit < temporary.utf8ByteSize then .error .nameTooLong
      else
        let place := directory ++ [temporary]
        .ok (place, { disk with tree := disk.tree.put place (.file ByteArray.empty temporaryMode) })
  | _ => .error .notDirectory

def setContent (disk : Disk) (place : List String) (content : ByteArray) : Disk :=
  match disk.tree.get? place with
  | some (.file _ mode) => { disk with tree := disk.tree.put place (.file content mode) }
  | _ => disk

def setMode (disk : Disk) (place : List String) (mode : Nat) : Disk :=
  match disk.tree.get? place with
  | some (.file content _) => { disk with tree := disk.tree.put place (.file content mode) }
  | _ => disk

/-- Take the entry at a place away. -/
def remove (disk : Disk) (place : List String) : Disk :=
  { disk with tree := disk.tree.erase place }

/-- Move the entry at a place to a name in the directory at another; what has the name is replaced,
unless it is a directory. -/
def rename (disk : Disk) (source directory : List String) (name : String) : Except FileError Disk :=
  let place := directory ++ [name]
  if name == "" || name == ".." then .error .busy
  else match disk.tree.get? source, disk.tree.get? place with
    | none, _ => .error .notFound
    | _, some (.directory _) => .error .isDirectory
    | some entry, _ => .ok ({ disk with tree := disk.tree.put place entry }.remove source)

/-- Replace what is at a path by a file with the given text. The permission bits of what the path
led to are kept. A link is replaced itself, and a directory is not replaced. The text is written to
a temporary file, which then takes the place of the old one, or is taken away. -/
def replaceFile (disk : Disk) (path : Path) (text : String) : Attempt FileError Disk :=
  match disk.stat path, disk.locate path.parent with
  | .error e, _ => .fail disk e
  | _, .error e => .fail disk e
  | .ok old, .ok parent => match disk.createTemporary parent path.name with
    | .error e => .fail disk e
    | .ok (temporary, created) =>
      let ready := (created.setContent temporary text.toUTF8).setMode temporary old.mode
      match ready.rename temporary parent path.name with
      | .error e => .fail (ready.remove temporary) e
      | .ok replaced => .ok replaced

/-- Add bytes to the end of the file at a path, making the file if there is none. -/
def appendFile (disk : Disk) (path : Path) (bytes : ByteArray) : Except FileError Disk :=
  match disk.locate path with
  | .ok place => match disk.tree.get? place with
    | some (.file content mode) =>
      .ok { disk with tree := disk.tree.put place (.file (content ++ bytes) mode) }
    | _ => .error .isDirectory
  | .error .notFound => match disk.locate path.parent with
    | .error e => .error e
    | .ok parent => match disk.tree.get? parent with
      | some (.directory _) =>
        let place := parent ++ [path.name]
        .ok { disk with tree := disk.tree.put place (.file bytes Entry.fileMode) }
      | _ => .error .notDirectory
  | .error e => .error e

end Disk

end RenderProbe
