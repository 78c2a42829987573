import RenderProbe.Text.Letter

/-!
# Names of source files and directories

Which file names are component sources, and which directories are never entered.
-/

namespace RenderProbe.Scan

/-- Directories that hold no sources of the project. -/
def excludedDirectories : List String :=
  [".git", ".hg", ".svn", "node_modules", "build", "dist", "coverage", ".next", ".expo", ".turbo",
   "Pods", "__generated__"]

/-- A directory that is entered by its name: neither excluded nor hidden. The name is compared in
its case, unlike the suffixes of files. -/
def isEntered (name : String) : Bool :=
  !excludedDirectories.contains name && name.toList.head? != some '.'

def excludedSuffixes : List String :=
  [".d.ts", ".min.js", ".bundle.js"]

/-- Whether a text, whatever its case, ends with one of the given suffixes. The suffixes are taken
as they are and have to be in lowercase to match anything. -/
def endsWithAny (suffixes : List String) (name : String) : Bool :=
  let lowered := (Text.lowercase name).toList
  suffixes.any fun suffix => suffix.toList.isSuffixOf lowered

def isSourceFile (extensions : List String) (name : String) : Bool :=
  !endsWithAny excludedSuffixes name && endsWithAny extensions name

end RenderProbe.Scan
