import RenderProbe.Component.Detection
import RenderProbe.Fallback.Import
import RenderProbe.Fallback.Shape
import RenderProbe.Wrap.Transform

/-!
# The fallback without a tree

Detection and wrapping by line shapes, for sources that do not parse. It is narrower than the tree
rules on purpose: it only edits where the end of an expression need not be found.
-/

namespace RenderProbe.Fallback

open Text
open Component (Candidate)

def Keyword.kind : Keyword → DeclarationKind
  | .function => .function
  | .constant => .initializer
  | .classKeyword => .classDeclaration

/-- The first candidate of every name that is not in `seen`. Here every candidate has passed
already, so the first one of a name is the one to report. -/
def firstOfEachName (seen : List String) : List Candidate → List Candidate
  | [] => []
  | candidate :: rest =>
    if seen.contains candidate.name then firstOfEachName seen rest
    else candidate :: firstOfEachName (candidate.name :: seen) rest

/-- The components that exported declarations at line starts suggest. Default exports and clauses
are left to the tree rules, and all that is found counts as a named export. -/
def detect (text : String) : List Candidate :=
  firstOfEachName [] ((atLineStarts exportedDeclaration? true text.toList).map
    fun (keyword, name) =>
      { name := String.ofList name, kind := keyword.kind, exportKind := .named })

/-! ## Edits -/

/-- A text with the edits made in it: the rules that made them and the lines to add at the end. Each
edit works on the text that the one before it left. -/
structure Edited where
  text : List Char
  rules : List Wrap.Rule
  appended : List (List Char)

/-- Replace the first default export of the name by one of the wrapped name. -/
def editReference (style : QuoteStyle) (symbol name : String) (edited : Edited) : Edited :=
  match searchLines (defaultReference? name.toList) edited.text with
  | none => edited
  | some (before, keywords, after) =>
    { edited with
      text := before ++ keywords ++ (Snippet.wrapCall style symbol name name).toList ++ after
      rules := edited.rules ++ [.defaultIdentifier] }

/-- Take the keywords off the first default export that declares the name. Nothing is done after
another edit, as a module has one default export, nor where a default export is wrapped already. -/
def editDefault (style : QuoteStyle) (symbol name : String) (edited : Edited) : Edited :=
  if !edited.rules.isEmpty
      || (searchLines (wrappedDefault? symbol.toList name.toList) edited.text).isSome then edited
  else match searchLines (defaultDeclaration? name.toList) edited.text with
    | none => edited
    | some (before, indentation, declaration) =>
      { text := before ++ indentation ++ declaration
        rules := edited.rules ++ [.defaultDeclaration]
        appended := edited.appended ++ [(Snippet.defaultExport style symbol name).toList] }

/-- Take the keyword off the first export of a function of the name, unless a constant of it is
wrapped already. It is tried whatever was edited before, since a name may leave a module in two
ways. -/
def editFunction (style : QuoteStyle) (symbol name : String) (edited : Edited) : Edited :=
  if (searchLines (wrappedConstant? symbol.toList name.toList) edited.text).isSome then edited
  else match searchLines (namedFunction? name.toList) edited.text with
    | none => edited
    | some (before, indentation, declaration) =>
      { text := before ++ indentation ++ declaration
        rules := edited.rules ++ [.namedFunction]
        appended := edited.appended ++ [(Snippet.namedExport style symbol name).toList] }

def edit (style : QuoteStyle) (symbol name : String) (text : List Char) : Edited :=
  editFunction style symbol name
    (editDefault style symbol name (editReference style symbol name ⟨text, [], []⟩))

/-- The text with the appended lines after it, on lines of their own. A text that ends in an open
line gets a line break first. -/
def withAppended (newline : List Char) (edited : Edited) : List Char :=
  if edited.appended.isEmpty then edited.text
  else
    let endsOpen := edited.text.getLast?.any fun c => c != '\n' && c != '\r'
    edited.text ++ (if endsOpen then newline else [])
      ++ edited.appended.flatMap (· ++ newline)

/-- Wrap a name in a text without a tree. The import comes last, so the places of exports are found
in the text as it was written. -/
def transform (style : QuoteStyle) (text name : String) (target : ImportTarget) : WrapResult :=
  if !isComponentName name.toList then .untouched .noMatch
  else
    let newline := (Snippet.newlineFor text).toList
    let edited := edit style target.symbol name text.toList
    if edited.rules.isEmpty then .untouched .noMatch
    else
      let statement := (Snippet.importStatement style target.symbol target.module).toList
      let result :=
        ensureImport (withAppended newline edited) target.symbol.toList statement newline
      if result == text.toList then .untouched .unchanged
      else .wrapped (String.ofList result) edited.rules

end RenderProbe.Fallback
