import RenderProbe.Disk.Error
import RenderProbe.Fault
import RenderProbe.Source.Patch
import RenderProbe.Text.Quoted

/-!
# Failures

Everything a detection, a wrap or the reading of a configuration can fail with, and what is said
about it.
-/

namespace RenderProbe

/-- Why a configuration was rejected. -/
inductive ConfigError where
  /-- The file is not in the data format. -/
  | malformed
  | notMapping
  | invalidSymbol (symbol : String)
  | limitNotPositive
  | unknownQuoteStyle (style : String)
  deriving DecidableEq, Inhabited

def configFileName : String :=
  ".profwrap.yml"

def ConfigError.message : ConfigError → String
  | malformed => s!"Failed to parse {configFileName}"
  | notMapping => s!"{configFileName} must contain a mapping at the root"
  | invalidSymbol symbol =>
    s!"instrumentation.symbol is not a valid identifier: {Text.quoted symbol}"
  | limitNotPositive => "detection.max_file_bytes must be positive"
  | unknownQuoteStyle style =>
    s!"printer.quote_style must be 'single' or 'double', got {Text.quoted style}"

/-- Why an operation failed. -/
inductive Failure where
  | invalidSymbol (symbol : String)
  /-- Neither a module nor a helper file was given. -/
  | missingModule
  | patch (error : Patch.Error)
  | unreadable (path : Path) (cause : FileError)
  | unwritable (path : Path) (cause : FileError)
  | config (error : ConfigError)
  /-- A value of the configuration that cannot be built, or not be written as a text. -/
  | invalidValue (fault : Fault)
  /-- The file system refused an operation that nothing guards. -/
  | file (error : FileError)
  | projectNotFound (root : String)
  | projectNotDirectory (root : String)
  deriving DecidableEq, Inhabited

def Failure.message : Failure → String
  | invalidSymbol symbol => s!"Wrapper symbol is not a valid identifier: {Text.quoted symbol}"
  | missingModule => "WrapRequest needs an import_module or a helper_path"
  | patch error => error.message
  | unreadable path cause => s!"Cannot read source ({cause.className}): {path.toText}"
  | unwritable path cause => s!"Cannot write source ({cause.className}): {path.toText}"
  | config error => error.message
  | invalidValue fault => fault.message
  | file error => error.className
  | projectNotFound root => s!"Project path not found: {root}"
  | projectNotDirectory root => s!"Project path is not a directory: {root}"

end RenderProbe
