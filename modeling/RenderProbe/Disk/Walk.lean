import RenderProbe.Disk.Basic

/-!
# Walks

A walk visits a directory and, below it, every directory that may be entered: first the directory
itself with the names of its files, then its subdirectories by name. A link to a directory is
neither entered nor a file; a link that leads nowhere counts as a file.
-/

namespace RenderProbe

/-- A visited directory: the names from the top of the walk to it, and the names of its files in
order. -/
structure Visit where
  below : List String
  files : List String
  deriving DecidableEq, Inhabited

namespace Disk

def nameBefore (a b : String) : Bool :=
  !(b < a)

def fileNames (leadsToDirectory : String → Bool) (entries : List (String × Entry)) :
    List String :=
  let names := entries.filterMap fun (name, entry) => match entry with
    | .file .. => some name
    | .link _ => if leadsToDirectory name then none else some name
    | .directory _ => none
  names.mergeSort nameBefore

mutual

/-- The visits of a walk from a directory with the given entries. Places count from the top of the
walk: `leadsToDirectory` judges the links there, and `enter` the directories. A directory's own
files come before anything below it. -/
def visits (leadsToDirectory enter : List String → Bool) (below : List String) :
    Entry → List Visit
  | .directory entries =>
    ⟨below, fileNames (fun name => leadsToDirectory (below ++ [name])) entries⟩
      :: ((subvisits leadsToDirectory enter below entries).mergeSort
          (fun a b => nameBefore a.1 b.1)).flatMap (·.2)
  | _ => []

/-- The visits below each directory among entries that may be entered. -/
def subvisits (leadsToDirectory enter : List String → Bool) (below : List String) :
    List (String × Entry) → List (String × List Visit)
  | [] => []
  | (name, entry) :: rest =>
    if entry.isDirectory && enter (below ++ [name]) then
      (name, visits leadsToDirectory enter (below ++ [name]) entry)
        :: subvisits leadsToDirectory enter below rest
    else subvisits leadsToDirectory enter below rest

end

/-- Walk from the directory a path leads to; where it leads to none, nothing is visited. The top is
visited without being asked about, and links are judged on the disk as it is. -/
def walk (disk : Disk) (top : Path) (enter : List String → Bool) : List Visit :=
  match disk.stat top with
  | .ok entry =>
    visits (fun names => disk.isDirectory (top.under ⟨"", names⟩)) enter [] entry
  | .error _ => []

end Disk

end RenderProbe
