import RenderProbe.Text.Fields
import RenderProbe.Text.Letter

/-!
# Paths

A path is a root mark and the names below it. Empty names and `.` are dropped when a path is read;
`..` is kept, because a symbolic link may stand before it. Home directories belong to the machine
and are left out: a `~` at the start of a path is a name like any other.

* `Path.normalize` settles every `..` against a working directory, without looking at links.
* `Path.relativeTo` walks from one normalised directory to another place.
-/

namespace RenderProbe

/-- A path as written: its root mark (empty for a relative path) and its names. -/
structure Path where
  root : String
  names : List String
  deriving DecidableEq, Inhabited

namespace Path

/-- The root mark of a written path: two leading slashes are a root of their own. -/
def rootOf : List Char → String
  | '/' :: '/' :: '/' :: _ => "/"
  | '/' :: '/' :: _ => "//"
  | '/' :: _ => "/"
  | _ => ""

/-- Read a path. A leading `~` is not expanded. -/
def ofText (text : String) : Path :=
  { root := rootOf text.toList
    names := (Text.split '/' text).filter fun name => name != "" && name != "." }

def toText (path : Path) : String :=
  if path.root == "" && path.names.isEmpty then "."
  else path.root ++ Text.join '/' path.names

instance : ToString Path := ⟨toText⟩

/-- A path that starts at a root. -/
def isAbsolute (path : Path) : Bool :=
  path.root != ""

/-- `path` below `base`; an absolute path stands for itself. -/
def under (base path : Path) : Path :=
  if path.isAbsolute then path else { base with names := base.names ++ path.names }

def child (path : Path) (name : String) : Path :=
  { path with names := path.names ++ [name] }

/-- The directory that holds the path's last name; a root is its own parent. -/
def parent (path : Path) : Path :=
  { path with names := path.names.dropLast }

/-- The last name, empty for a root. -/
def name (path : Path) : String :=
  path.names.getLast?.getD ""

/-- A name cut before its last dot, unless that dot is the first or last character. -/
def cutSuffix (name : List Char) : List Char × List Char :=
  let tail := (name.reverse.takeWhile (· != '.')).reverse
  let stem := name.take (name.length - tail.length - 1)
  if tail.isEmpty || tail.length == name.length || stem.isEmpty then (name, [])
  else (stem, '.' :: tail)

/-- The last name without its suffix. -/
def stem (path : Path) : String :=
  String.ofList (cutSuffix path.name.toList).1

/-- The suffix of the last name with its dot, or nothing. -/
def suffix (path : Path) : String :=
  String.ofList (cutSuffix path.name.toList).2

/-- One name put on top of a stack of names, where `..` takes the top away. -/
def push (stack : List String) (name : String) : List String :=
  if name == ".." then stack.dropLast else stack ++ [name]

/-- The names of the place a path leads to from a working directory, every `..` settled. -/
def normalize (workingDirectory path : Path) : List String :=
  (workingDirectory.under path).names.foldl push []

/-- The walk from the directory `start` to `place`: up to the last shared name, then down. -/
def relativeTo : List String → List String → List String
  | s :: start, p :: place =>
    if s == p then relativeTo start place
    else (s :: start).map (fun _ => "..") ++ p :: place
  | start, place => start.map (fun _ => "..") ++ place

end Path

end RenderProbe
