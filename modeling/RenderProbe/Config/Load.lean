import RenderProbe.Config.Basic
import RenderProbe.Disk.Basic
import RenderProbe.Engine.Error
import RenderProbe.Yaml.Build

/-!
# Reading a configuration

The configuration of a project is a file in its root. A value of the wrong type counts as absent;
only a wrapper that is no identifier, a size limit that is not positive and an unknown quote style
are refused. An integer with too many digits to be written cannot stand where a text is asked for:
there the reading ends with a fault, which is no refusal.

* `Config.ofDocument` reads the value of a configuration file.
* `Config.load` finds and reads the file; without one the defaults hold. It is `loadWith` the reader
  of the data format.
-/

namespace RenderProbe.Config

open Yaml (Collection Document Value)

/-! ## Values as settings -/

/-- The fault of an integer that is too long to be written. -/
def tooLongToWrite : Fault :=
  s!"Exceeds the limit ({Decimal.digitLimit} digits) for integer string conversion; "
    ++ "use sys.set_int_max_str_digits() to increase the limit"

/-- An integer as text. -/
def integerText (n : Int) : Except Failure String :=
  match Decimal.integerText? n with
  | some text => .ok text
  | none => .error (.invalidValue tooLongToWrite)

/-- A value as text: texts and numbers have one. Collections, bytes, truth values and moments have
none, and a setting of that kind counts as absent. -/
def textOf : Value → Except Failure (Option String)
  | .string value => .ok (some value)
  | .int value => (integerText value).map some
  | .float value => .ok (some value.toText)
  | _ => .ok none

/-- A value as an integer: integers, and texts that spell one. Truth values are none, and neither
are numbers with a point. -/
def integerOf? : Value → Option Int
  | .int value => some value
  | .string value => Decimal.integer? value
  | _ => none

/-- An item of a list as text. Truth values have a text there but not as settings of their own, so
the two readings are kept apart. -/
def itemText : Value → Except Failure (Option String)
  | .bool true => .ok (some "True")
  | .bool false => .ok (some "False")
  | value => textOf value

/-- The items of a list as texts; those without text are left out. An item that cannot be written
ends the reading, also behind items that can. -/
def itemTexts : List Value → Except Failure (List String)
  | [] => .ok []
  | item :: rest => do
    let text ← itemText item
    return text.toList ++ (← itemTexts rest)

/-! ## Settings -/

section Settings

variable (document : Document)

/-- A value as a list of texts. A text is a list of one, and so a setting may be written without
brackets; bytes count as a list of integers. -/
def textsOf (value : Value) : Except Failure (List String) :=
  match value with
  | .string value => .ok [value]
  | .binary bytes => .ok (bytes.map toString)
  | value => match document.holds? value with
    | some (.sequence items) => itemTexts items
    | _ => .ok []

/-- The pairs of a section, none where there is no such mapping. A section of the wrong type is
therefore no error: all its settings have their defaults. -/
def sectionOf (key : String) (pairs : List (Value × Value)) : List (Value × Value) :=
  ((Value.lookup? key pairs).bind document.pairs?).getD []

def text? (key : String) (pairs : List (Value × Value)) : Except Failure (Option String) :=
  match Value.lookup? key pairs with
  | some value => textOf value
  | none => .ok none

def integer? (key : String) (pairs : List (Value × Value)) : Option Int :=
  (Value.lookup? key pairs).bind integerOf?

def texts (key : String) (standard : List String) (pairs : List (Value × Value)) :
    Except Failure (List String) :=
  match Value.lookup? key pairs with
  | some value => textsOf document value
  | none => .ok standard

/-! ## Sections -/

def instrumentationOf (root : Path) (pairs : List (Value × Value)) :
    Except Failure Instrumentation := do
  let symbol := (← text? "symbol" pairs).getD ({} : Instrumentation).symbol
  if Text.isIdentifier symbol then
    let helper ← text? "helper" pairs
    let module ← text? "module" pairs
    return {
      symbol
      helper := (helper.filter (· != "")).map fun helper => root.under (Path.ofText helper)
      module }
  else throw (.config (.invalidSymbol symbol))

def detectionOf (pairs : List (Value × Value)) : Except Failure DetectionSettings := do
  let maxFileBytes := (integer? "max_file_bytes" pairs).getD ({} : DetectionSettings).maxFileBytes
  if 0 < maxFileBytes then
    let helpers ← texts document "component_helpers" Component.defaultHelpers pairs
    let baseClasses ← texts document "base_classes" Component.defaultBaseClasses pairs
    return { maxFileBytes, helpers, baseClasses }
  else throw (.config .limitNotPositive)

/-- A suffix as it is compared: in lowercase, without blanks around it, with a dot in front. A scan
compares it with the lowercase name of a file. -/
def normalizeExtension (value : String) : String :=
  let lowered := Text.lowercase (Text.trim value)
  if lowered.toList.head? == some '.' then lowered else "." ++ lowered

def scanOf (pairs : List (Value × Value)) : Except Failure ScanSettings := do
  let extensions ← texts document "extensions" [] pairs
  let excludePaths ← texts document "exclude_paths" [] pairs
  return {
    maxDepth := (integer? "max_depth" pairs).getD ({} : ScanSettings).maxDepth
    extensions :=
      if extensions.isEmpty then defaultExtensions else extensions.map normalizeExtension
    excludePaths }

def quoteStyleOf (pairs : List (Value × Value)) : Except Failure QuoteStyle := do
  match ← text? "quote_style" pairs with
  | none => return .single
  | some style =>
    if style == "single" then return .single
    else if style == "double" then return .double
    else throw (.config (.unknownQuoteStyle style))

/-- The configuration of a project root that a mapping spells. The sections are read in this order,
so of several faults the first one is reported. -/
def ofPairs (root : Path) (pairs : List (Value × Value)) : Except Failure Config := do
  let instrumentation ← instrumentationOf root (sectionOf document "instrumentation" pairs)
  let detection ← detectionOf document (sectionOf document "detection" pairs)
  let scan ← scanOf document (sectionOf document "scan" pairs)
  let quoteStyle ← quoteStyleOf (sectionOf document "printer" pairs)
  return { root, instrumentation, detection, scan, quoteStyle }

/-- The configuration of a project root that a document spells; one that counts as nothing spells
the defaults. What counts as nothing is not only an empty mapping but also a zero or an empty
text. -/
def ofDocument (root : Path) : Except Failure Config :=
  if document.isEmpty document.value then ofPairs document root []
  else match document.pairs? document.value with
    | some pairs => ofPairs document root pairs
    | none => .error (.config .notMapping)

end Settings

/-! ## Files -/

/-- The configuration file for a path: a directory's own, the path itself if it names one, else the
one beside it. It is never looked for further up. -/
def filePath (disk : Disk) (path : Path) : Path :=
  if disk.isDirectory path then disk.resolve (path.child configFileName)
  else if path.name == configFileName then disk.resolve path
  else disk.resolve (path.parent.child configFileName)

section Files

variable (read : String → Except Yaml.Error Document)

/-- The configuration that a text spells, by a reader of documents. A blank text is not given to the
reader and spells the defaults. -/
def ofTextWith (root : Path) (text : String) : Except Failure Config :=
  if (Text.trimBlanks text.toList).isEmpty then .ok { root }
  else match read text with
    | .error .malformed => .error (.config .malformed)
    | .error (.fault fault) => .error (.invalidValue fault)
    | .ok document => ofDocument document root

/-- Read the configuration for a path with a reader of documents. A project without a file has the
defaults; a file that cannot be read is a failure, and not the same as a missing one. -/
def loadWith (disk : Disk) (path : Path) : Except Failure Config :=
  let file := filePath disk path
  let root := disk.resolve file.parent
  if !disk.contains file then .ok { root }
  else match disk.readText file with
    | .error e => .error (.file e)
    | .ok text => ofTextWith read root text

end Files

def load : Disk → Path → Except Failure Config :=
  loadWith Yaml.parse

end RenderProbe.Config
