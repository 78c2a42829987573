import RenderProbe.Source.Basic
import RenderProbe.Wrap.Import
import RenderProbe.Wrap.Rule

/-!
# Wrapping one component

All patches for one name in one module: those of the first rule that fires on each export statement,
and the import of the wrapper if the module does not bind it.
-/

namespace RenderProbe

/-- The wrapper and the module it is imported from. -/
structure ImportTarget where
  symbol : String
  module : String
  deriving DecidableEq, Inhabited

/-- Why nothing was wrapped. -/
inductive Reason where
  /-- The source has no tree. -/
  | unparsed
  /-- No export of the name can be wrapped. -/
  | noMatch
  /-- The patches leave the text as it is. -/
  | unchanged
  deriving DecidableEq, Inhabited

def Reason.label : Reason → String
  | unparsed => "unparsed"
  | noMatch => "no-match"
  | unchanged => "unchanged"

/-- What became of a wrap: a new text with the rules that made it, or nothing. -/
inductive WrapResult where
  | wrapped (source : String) (rules : List Wrap.Rule)
  | untouched (reason : Reason)
  deriving DecidableEq, Inhabited

namespace Wrap

open Syntax (Node)

def Rewrite.of (criteria : Component.Criteria) (style : QuoteStyle) (text : String) (root : Node)
    (name symbol : String) : Rewrite :=
  { bytes := Patch.encode text
    name, symbol, style, criteria
    newline := Snippet.newlineFor text
    overloads := overloadSignatures root name }

/-- The rules that fire on the statements of a module, with the statements. Several may fire, as
when a component is exported by its name and as the default. -/
def Rewrite.firing (rewrite : Rewrite) (root : Node) : List (Node × Rule) :=
  root.namedChildren.filterMap fun statement =>
    (rewrite.fires? statement).map fun rule => (statement, rule)

/-- The patch that imports the wrapper, unless the module binds it. The line break goes on the side
where the rest of the text is: in front behind something, after it at the very start. -/
def importPatches (imports : ImportState) (style : QuoteStyle) (newline : String)
    (target : ImportTarget) : List Patch :=
  if imports.hasBinding then []
  else
    let statement := Snippet.importStatement style target.symbol target.module
    [Patch.insert imports.offset
      (if imports.afterExisting then newline ++ statement else statement ++ newline)]

/-- Wrap a name in a module. The import is added only if some rule fires, and patches that come to
nothing leave the text untouched rather than wrapped. -/
def transform (criteria : Component.Criteria) (style : QuoteStyle) (text : String) (root : Node)
    (name : String) (target : ImportTarget) : Except Patch.Error WrapResult :=
  let rewrite := Rewrite.of criteria style text root name target.symbol
  let firing := rewrite.firing root
  if firing.isEmpty then .ok (.untouched .noMatch)
  else
    let patches := firing.flatMap fun (statement, rule) => rewrite.patches statement rule
    let imports := scanImports root target.symbol
    match Patch.render rewrite.bytes
        (patches ++ importPatches imports style rewrite.newline target) with
    | .error e => .error e
    | .ok source =>
      if source == text then .ok (.untouched .unchanged)
      else .ok (.wrapped source (firing.map (·.2)))

end Wrap

end RenderProbe
