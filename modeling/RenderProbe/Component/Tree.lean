import RenderProbe.Component.Detection
import RenderProbe.Json.Basic
import RenderProbe.Text.Fields

/-!
# Component trees

Components grouped by directory and file. Directories come before files, each in the order of their
lowercase names, and the components of a file keep the order they were found in.
-/

namespace RenderProbe.Component

/-- A component below a file: its name and the text that addresses it. -/
structure Leaf where
  name : String
  target : String
  deriving DecidableEq, Inhabited

/-- A directory or file with what is below it. -/
inductive TreeNode where
  | directory (name path : String) (children : List TreeNode)
  | file (name path : String) (components : List Leaf)
  deriving Inhabited

namespace TreeNode

def name : TreeNode → String
  | directory name _ _ => name
  | file name _ _ => name

def path : TreeNode → String
  | directory _ path _ => path
  | file _ path _ => path

def isDirectory : TreeNode → Bool
  | directory .. => true
  | file .. => false

end TreeNode

/-! ## Building -/

/-- Add a component to the file of a name, making the file if there is none. A directory of that
name is a node of its own and is passed over. -/
def addToFile (name path : String) (leaf : Leaf) : List TreeNode → List TreeNode
  | [] => [.file name path [leaf]]
  | .file n p components :: rest =>
    if n == name then .file n p (components ++ [leaf]) :: rest
    else .file n p components :: addToFile name path leaf rest
  | other :: rest => other :: addToFile name path leaf rest

/-- Change what is in the directory of a name, making the directory if there is none. -/
def changeDirectory (name path : String) (change : List TreeNode → List TreeNode) :
    List TreeNode → List TreeNode
  | [] => [.directory name path (change [])]
  | .directory n p children :: rest =>
    if n == name then .directory n p (change children) :: rest
    else .directory n p children :: changeDirectory name path change rest
  | other :: rest => other :: changeDirectory name path change rest

/-- Add a component along the names of its path; `above` holds the names already walked, so that
every node can tell its own path from the top. -/
def addAlong (leaf : Leaf) (above : List String) : List String → List TreeNode → List TreeNode
  | [], nodes => nodes
  | [name], nodes => addToFile name (Text.join '/' (above ++ [name])) leaf nodes
  | name :: rest, nodes =>
    changeDirectory name (Text.join '/' (above ++ [name])) (addAlong leaf (above ++ [name]) rest)
      nodes

/-- Add a candidate. One without a path has no place in a tree; this happens only when a single text
was searched and not a project. -/
def addCandidate (nodes : List TreeNode) (candidate : Candidate) : List TreeNode :=
  match candidate.path with
  | none => nodes
  | some path =>
    if path == "" then nodes
    else addAlong ⟨candidate.name, candidate.target⟩ [] (Text.split '/' path) nodes

/-! ## Order -/

/-- The order of siblings: directories first, and then by lowercase names. Equal names keep the
order they were found in, since the sort is stable. -/
def precedes (a b : TreeNode) : Bool :=
  if a.isDirectory == b.isDirectory then
    !(Text.lowercase b.name < Text.lowercase a.name)
  else a.isDirectory

mutual

/-- A node with everything below it in order. -/
def sorted : TreeNode → TreeNode
  | .directory name path children => .directory name path ((sortedAll children).mergeSort precedes)
  | .file name path components => .file name path components

def sortedAll : List TreeNode → List TreeNode
  | [] => []
  | node :: rest => sorted node :: sortedAll rest

end

/-- The tree of candidates. They are added in the order they were found, and only then is every
level sorted, which leaves the components of one file in the order of their exports. -/
def tree (candidates : List Candidate) : List TreeNode :=
  (sortedAll (candidates.foldl addCandidate [])).mergeSort precedes

/-! ## Values -/

def Leaf.toJson (leaf : Leaf) : Json :=
  .object [("name", .string leaf.name), ("path", .string leaf.target),
    ("type", .string "component")]

/-- A node as a value; a node with nothing below it has no member for that, rather than an empty
list. -/
def nodeJson (name path type : String) (children : List Json) : Json :=
  .object ([("name", .string name), ("path", .string path), ("type", .string type)]
    ++ if children.isEmpty then [] else [("children", .array children)])

mutual

def TreeNode.toJson : TreeNode → Json
  | .directory name path children => nodeJson name path "directory" (treeValues children)
  | .file name path components => nodeJson name path "file" (components.map Leaf.toJson)

def treeValues : List TreeNode → List Json
  | [] => []
  | node :: rest => node.toJson :: treeValues rest

end

/-! ## Lines -/

mutual

/-- A node as indented lines. -/
def nodeLines (indentation : String) : TreeNode → List String
  | .directory name _ children =>
    s!"{indentation}{name}/" :: treeLines (indentation ++ "  ") children
  | .file name _ components =>
    (indentation ++ name) :: components.map fun leaf => s!"{indentation}  {leaf.name}"

def treeLines (indentation : String) : List TreeNode → List String
  | [] => []
  | node :: rest => nodeLines indentation node ++ treeLines indentation rest

end

end RenderProbe.Component
