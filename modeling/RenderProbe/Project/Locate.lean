import RenderProbe.Project.Package
import RenderProbe.Text.Match

/-!
# Finding a component's file

A component that is not where it is said to be is looked for by its export: a declaration, a default
reference, or a name in an export clause.
-/

namespace RenderProbe.Project

/-- Whether a test holds after the first `n` blanks of a text, for some `n` of at least one. Every
such `n` is tried, as what follows may start with a blank itself. -/
def afterBlanks (test : List Char → Bool) : List Char → Bool
  | [] => false
  | c :: rest => Text.isBlank c && (test rest || afterBlanks test rest)

/-- Whether a test holds after given characters. -/
def afterWord (word : String) (test : List Char → Bool) (text : List Char) : Bool :=
  match Text.literal? word.toList text with
  | some rest => test rest
  | none => false

/-- Whether a text starts with a name that a word boundary follows; a blank stands before it. -/
def startsWithName (name : List Char) (text : List Char) : Bool :=
  (Text.literalThenBoundary? (some ' ') name text).isSome

/-- Whether a text starts with a declaration of a name. -/
def startsWithDeclaration (name : List Char) (text : List Char) : Bool :=
  ["function", "const", "class"].any fun keyword =>
    afterWord keyword (afterBlanks (startsWithName name)) text

/-- Whether a name stands, between word boundaries, in the braces that a text continues, and the
braces close behind it. An alias is not told from the name that it stands for. -/
def inBraces (name : List Char) (before : Char) : List Char → Bool
  | [] => false
  | c :: rest =>
    (Text.isWordBoundary (some before) (name.head? <|> some c)
      && match Text.literalThenBoundary? (some before) name (c :: rest) with
        | some after => after.contains '\x7d'
        | none => false)
      || (c != '\x7d' && inBraces name c rest)

/-- Whether a text starts with an export of a name: of a declaration, of a default that declares or
names it, or in a clause. The texts are not parsed, so comments and strings count as well. -/
def startsWithExport (name : List Char) : List Char → Bool :=
  afterWord "export" (afterBlanks fun text =>
    startsWithDeclaration name text
      || afterWord "default" (afterBlanks fun rest =>
          startsWithDeclaration name rest || startsWithName name rest) text
      || afterWord "\x7b" (inBraces name '\x7b') text)

def exportsName (name : List Char) : List Char → Bool
  | [] => false
  | c :: rest => startsWithExport name (c :: rest) || exportsName name rest

def exportsComponent (disk : Disk) (name : String) (extensions : List String) (path : Path) :
    Bool :=
  Scan.endsWithAny extensions path.name && match disk.readLossy path with
    | .ok text => exportsName name.toList text.toList
    | .error _ => false

/-- The first file that exports a component, in the source directory and then anywhere. The source
directory is looked through again as a part of the whole, which finds nothing new. -/
def findFile (disk : Disk) (name : String) (root : Path) (extensions : List String) :
    Option Path :=
  let root := disk.resolve root
  [root.child "src", root].findSome? fun base =>
    if disk.isDirectory base then
      (filesBelow disk base).find? (exportsComponent disk name extensions)
    else none

end RenderProbe.Project
