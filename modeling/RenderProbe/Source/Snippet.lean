import RenderProbe.Text.Quoted

/-!
# Generated code

The statements and expressions a rewrite puts into a module: string literals, wrapper calls, wrapped
exports and the import of the wrapper.
-/

namespace RenderProbe

/-- The quotes around generated string literals. -/
inductive QuoteStyle where
  | single
  | double
  deriving DecidableEq, Inhabited

namespace QuoteStyle

def char : QuoteStyle → Char
  | single => '\''
  | double => '"'

/-- The style that uses a quote, if there is one. -/
def ofQuote? (quote : String) : Option QuoteStyle :=
  if quote == "'" then some single else if quote == "\"" then some double else none

/-- What is said of a quote that no style uses. -/
def unsupportedMessage (quote : String) : String :=
  s!"Unsupported quote character: {Text.quoted quote}"

end QuoteStyle

namespace Snippet

/-- A value between quotes: the quote and the backslash get a backslash before them, and nothing
else does. Line breaks and other controls are written as they are. -/
def escape (quote : Char) (value : List Char) : List Char :=
  value.flatMap fun c => if c == '\\' || c == quote then ['\\', c] else [c]

/-- A string literal that reads back as the value, whatever characters the value holds. Names
and module paths are written by it alike. -/
def stringLiteral (style : QuoteStyle) (value : String) : String :=
  String.ofList (style.char :: escape style.char value.toList ++ [style.char])

/-- The wrapper called on an expression and the component's name. The name is a literal of its own,
so the wrapper learns it whatever the expression is. -/
def wrapCall (style : QuoteStyle) (symbol expression name : String) : String :=
  s!"{symbol}({expression}, {stringLiteral style name})"

def defaultExport (style : QuoteStyle) (symbol name : String) : String :=
  s!"export default {wrapCall style symbol name name};"

def namedExport (style : QuoteStyle) (symbol name : String) : String :=
  s!"export const {name} = {wrapCall style symbol name name};"

def importStatement (style : QuoteStyle) (symbol module : String) : String :=
  "import \x7b " ++ symbol ++ " \x7d from " ++ stringLiteral style module ++ ";"

def hasCarriageBreak : List Char → Bool
  | '\r' :: '\n' :: _ => true
  | _ :: rest => hasCarriageBreak rest
  | [] => false

/-- The line break that generated lines use in a source: the longer one as soon as it occurs
anywhere. A text with mixed breaks is not unified, and its own lines keep theirs. -/
def newlineFor (source : String) : String :=
  if hasCarriageBreak source.toList then "\r\n" else "\n"

end Snippet

end RenderProbe
