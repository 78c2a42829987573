import RenderProbe.Component.Detection
import RenderProbe.Path
import RenderProbe.Source.Basic
import RenderProbe.Source.Snippet

/-!
# Configuration

The settings of a project: which wrapper is applied and where it comes from, how components are
recognised, which files are looked at, and how generated code is quoted.
-/

namespace RenderProbe

/-- The wrapper and where it is imported from. -/
structure Instrumentation where
  symbol : String := "withProfiler"
  helper : Option Path := none
  module : Option String := none
  deriving DecidableEq, Inhabited

/-- How components are recognised. -/
structure DetectionSettings where
  maxFileBytes : Int := Source.defaultLimit
  helpers : List String := Component.defaultHelpers
  baseClasses : List String := Component.defaultBaseClasses
  deriving DecidableEq, Inhabited

/-- The suffixes of component sources, unless told otherwise. -/
def defaultExtensions : List String :=
  [".tsx", ".jsx", ".ts", ".js"]

/-- Which files are looked at. -/
structure ScanSettings where
  maxDepth : Int := 32
  extensions : List String := defaultExtensions
  excludePaths : List String := []
  deriving DecidableEq, Inhabited

/-- The settings of a project and the directory they were read for. -/
structure Config where
  root : Path
  instrumentation : Instrumentation := {}
  detection : DetectionSettings := {}
  scan : ScanSettings := {}
  quoteStyle : QuoteStyle := .single
  deriving DecidableEq, Inhabited

end RenderProbe
