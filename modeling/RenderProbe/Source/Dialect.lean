import RenderProbe.Path

/-!
# Dialects

Which grammar a source file is read with, by the suffix of its name. Files without a known suffix
get the most permissive dialect.
-/

namespace RenderProbe

/-- Whether a source may hold type annotations, and whether it may hold markup. -/
structure Dialect where
  typed : Bool
  markup : Bool
  deriving DecidableEq, Inhabited

def Dialect.ofPath (path : Path) : Dialect :=
  match Text.lowercase path.suffix with
  | ".ts" | ".mts" | ".cts" => ⟨true, false⟩
  | ".jsx" | ".js" | ".mjs" | ".cjs" => ⟨false, true⟩
  | _ => ⟨true, true⟩

/-- The dialect of a file, by its written name. -/
def Dialect.ofFileName (fileName : String) : Dialect :=
  Dialect.ofPath (Path.ofText fileName)

end RenderProbe
