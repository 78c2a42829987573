import RenderProbe.Text.Match

/-!
# Line shapes

The shapes of lines that the fallback trusts when a source has no tree: exported declarations,
default exports of a name, and exports that are already wrapped. Every shape is recognised at the
start of a line.
-/

namespace RenderProbe.Fallback

open Text

/-- A character of a component name after its first. -/
def isNameChar (c : Char) : Bool :=
  c.isAlphanum || c == '_' || c == '$'

/-- A name the fallback can handle: a capital letter, then letters, digits, low lines and dollars.
It is narrower than what the language allows, since the shapes look for such names only. -/
def isComponentName : List Char → Bool
  | [] => false
  | c :: rest => c.isUpper && rest.all isNameChar

/-! ## Detection -/

/-- The keyword of an exported declaration. -/
inductive Keyword where
  | function
  | constant
  | classKeyword
  deriving DecidableEq, Inhabited

def keyword? (text : List Char) : Option (Keyword × List Char) :=
  match literal? "function".toList text with
  | some rest =>
    let afterStar := (literal? ['*'] rest).getD rest
    (indent? afterStar).map (Keyword.function, ·)
  | none => match wordThenIndent? "const" text with
    | some rest => some (.constant, rest)
    | none => (wordThenIndent? "class" text).map (Keyword.classKeyword, ·)

def capitalName? : List Char → Option (List Char)
  | c :: rest => if c.isUpper then some (c :: rest.takeWhile isNameChar) else none
  | [] => none

/-- An exported declaration with its keyword and name. The word `async` may stand in front of any
keyword here, as texts are not checked for sense. -/
def exportedDeclaration? (line : List Char) : Option (Keyword × List Char) :=
  match wordThenIndent? "export" (skipIndent line) with
  | none => none
  | some rest =>
    let declaration := (wordThenIndent? "async" rest).getD rest
    match keyword? declaration with
    | none => none
    | some (keyword, afterKeyword) => (capitalName? afterKeyword).map (keyword, ·)

/-! ## Default exports of a name -/

/-- Whether a line ends here, but for blanks and a line comment. A text that ends here ends its line
as well. -/
def endsLine (text : List Char) : Bool :=
  let rest := skipIndent text
  let afterComment := match literal? ['/', '/'] rest with
    | some comment => comment.dropWhile fun c => c != '\r' && c != '\n'
    | none => rest
  let afterReturn := (literal? ['\r'] afterComment).getD afterComment
  afterReturn.isEmpty || afterReturn.head? == some '\n'

/-- A default export of the name: the text before the name and the text after it. Nothing but a
semicolon and a comment may follow, so an expression that starts with the name is none. -/
def defaultReference? (name : List Char) (line : List Char) :
    Option (List Char × List Char) :=
  match ((wordThenIndent? "export" (skipIndent line)).bind (wordThenIndent? "default")) with
  | none => none
  | some atName => match literal? name atName with
    | none => none
    | some rest =>
      let blanked := skipIndent rest
      if endsLine ((literal? [';'] blanked).getD blanked) then
        some (line.take (line.length - atName.length), rest)
      else none

/-! ## Declarations that lose their keywords -/

/-- Whether a function declaration of the name stands at the front. The blanks between the word and
the name may be missing, as they may be next to a star. -/
def declaresFunction (name : List Char) (text : List Char) : Bool :=
  let afterAsync := (wordThenIndent? "async" text).getD text
  match literal? "function".toList afterAsync with
  | none => false
  | some rest =>
    let blanked := skipIndent rest
    let afterStar := skipIndent ((literal? ['*'] blanked).getD blanked)
    (literalThenBoundary? none name afterStar).isSome

/-- Whether a declaration of the name by one of the keywords stands at the front. -/
def declaresBy (keywords : List String) (name : List Char) (text : List Char) : Bool :=
  keywords.any fun keyword =>
    ((wordThenIndent? keyword text).bind (literalThenBoundary? none name)).isSome

/-- A line without the keywords after its indentation: the indentation and the rest. -/
def demoted (line rest : List Char) : List Char × List Char :=
  (line.takeWhile isIndent, rest)

/-- A default export that declares the name: its indentation and its declaration. Variables are
among the declarations, although the grammar has no default export of them. -/
def defaultDeclaration? (name : List Char) (line : List Char) :
    Option (List Char × List Char) :=
  match ((wordThenIndent? "export" (skipIndent line)).bind (wordThenIndent? "default")) with
  | none => none
  | some rest =>
    if declaresFunction name rest || declaresBy ["class", "const", "let", "var"] name rest then
      some (demoted line rest)
    else none

/-- A named export of a function of the name: its indentation and its declaration. -/
def namedFunction? (name : List Char) (line : List Char) : Option (List Char × List Char) :=
  match wordThenIndent? "export" (skipIndent line) with
  | none => none
  | some rest => if declaresFunction name rest then some (demoted line rest) else none

/-! ## Exports that are wrapped already -/

/-- A default export that calls the wrapper on the name. The first argument is enough to know it by,
so a second wrap does not depend on what else was passed. -/
def wrappedDefault? (symbol name : List Char) (line : List Char) : Option Unit :=
  match ((wordThenIndent? "export" (skipIndent line)).bind (wordThenIndent? "default")) with
  | none => none
  | some rest => match literal? (symbol ++ ['(']) rest with
    | none => none
    | some argument => (literalThenBoundary? none name (skipIndent argument)).map fun _ => ()

/-- A constant of the name that the wrapper is called for. -/
def wrappedConstant? (symbol name : List Char) (line : List Char) : Option Unit :=
  match ((wordThenIndent? "export" (skipIndent line)).bind (wordThenIndent? "const")) with
  | none => none
  | some rest => match literal? name rest with
    | none => none
    | some afterName => match literal? ['='] (skipIndent afterName) with
      | none => none
      | some value => (literal? (symbol ++ ['(']) (skipIndent value)).map fun _ => ()

end RenderProbe.Fallback
