import RenderProbe.Source.Dialect
import RenderProbe.Source.Patch
import RenderProbe.Syntax.Program

/-!
# Sources

A source text read with the grammar of its dialect. A text beyond the size limit is not read, and a
text with errors has no tree.
-/

namespace RenderProbe

/-- A source text and its tree, if it has one. -/
structure Source where
  fileName : String
  text : String
  dialect : Dialect
  /-- The text is larger than the limit and was not read. -/
  oversize : Bool
  tree : Option Syntax.Node
  deriving Inhabited

namespace Source

/-- The largest source that is read, unless told otherwise, in bytes. -/
def defaultLimit : Nat :=
  1024 * 1024

/-- Read a source text of at most `limit` bytes. -/
def read (limit : Int) (text fileName : String) : Source :=
  let dialect := Dialect.ofFileName fileName
  let oversize := limit < (text.utf8ByteSize : Int)
  { fileName, text, dialect, oversize
    tree := if oversize then none else Syntax.parse dialect.markup text }

/-- Whether a source has no tree to work on. -/
def hasErrors (source : Source) : Bool :=
  source.tree.isNone

def bytes (source : Source) : List UInt8 :=
  Patch.encode source.text

def textOf (source : Source) (node : Syntax.Node) : String :=
  Patch.sliceText source.bytes node.span.start node.span.stop

end Source

end RenderProbe
