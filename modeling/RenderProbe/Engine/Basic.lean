import RenderProbe.Config.Basic
import RenderProbe.Engine.Error
import RenderProbe.Engine.Strategy

/-!
# Detection and wrapping in memory

An engine is a configuration, or none. It reads every text afresh, so results depend on the text,
its file name and the configuration alone.
-/

namespace RenderProbe

/-- A configured way to detect and wrap components. -/
structure Engine where
  config : Option Config := none
  deriving Inhabited

namespace Engine

/-- The name a source gets that has none. -/
def defaultFileName : String :=
  "component.tsx"

/-- The largest source that is read, in bytes. A limit of zero stands for none given; a
configuration file cannot ask for it, but one that is put together by hand may. -/
def limit (engine : Engine) : Int :=
  match engine.config with
  | some config =>
    if config.detection.maxFileBytes == 0 then Source.defaultLimit
    else config.detection.maxFileBytes
  | none => Source.defaultLimit

/-- What the strategies are told. -/
def settings (engine : Engine) : StrategySettings :=
  match engine.config with
  | some config =>
    { criteria := ⟨config.detection.helpers, config.detection.baseClasses,
        Component.defaultMaxDepth⟩
      style := config.quoteStyle }
  | none => {}

/-- The wrapper that is applied when none is named: the configured one, and the standard one for an
engine without configuration. -/
def symbol (engine : Engine) : String :=
  match engine.config with
  | some config => config.instrumentation.symbol
  | none => ({} : Instrumentation).symbol

def symbolOr (engine : Engine) (symbol : Option String) : String :=
  match symbol with
  | some s => if s == "" then engine.symbol else s
  | none => engine.symbol

def read (engine : Engine) (text fileName : String) : Source :=
  Source.read engine.limit text fileName

/-! ## Detection -/

/-- The components of a text; a text beyond the limit has none. The limit comes first, so an
oversize text is not even given to the fallback. -/
def candidates (engine : Engine) (text fileName : String) : List Component.Candidate :=
  let source := engine.read text fileName
  if source.oversize then []
  else (Strategy.ofSource source).detect engine.settings source

def candidatesLog (engine : Engine) (text fileName : String) : List Record :=
  let source := engine.read text fileName
  if source.oversize then
    [⟨.info, .engine, s!"{fileName}: Skipped: {text.utf8ByteSize} bytes exceeds the "
      ++ s!"{engine.limit} byte ceiling"⟩]
  else
    let strategy := Strategy.ofSource source
    (if strategy.isDegraded then
      [⟨.warning, .engine, s!"{fileName}: Syntax errors found; detection degraded to "
        ++ s!"{strategy.label} matching"⟩]
    else []) ++ strategy.detectLog engine.settings source

/-! ## Wrapping -/

/-- A finished wrap: the strategy that was used and what became of the text. -/
structure Wrapped where
  strategy : Strategy
  result : WrapResult
  deriving DecidableEq, Inhabited

def transform (engine : Engine) (text name module fileName : String) (symbol : Option String) :
    Except Failure Wrapped :=
  let symbol := engine.symbolOr symbol
  if !Text.isIdentifier symbol then .error (.invalidSymbol symbol)
  else
    let source := engine.read text fileName
    let strategy := Strategy.ofSource source
    match strategy.transform engine.settings source name ⟨symbol, module⟩ with
    | .error e => .error (.patch e)
    | .ok result => .ok ⟨strategy, result⟩

def transformLog (engine : Engine) (text name module fileName : String)
    (symbol : Option String) : List Record :=
  let symbol := engine.symbolOr symbol
  if !Text.isIdentifier symbol then []
  else
    let source := engine.read text fileName
    let strategy := Strategy.ofSource source
    let cause := if source.oversize then "File exceeds the size ceiling" else "Syntax errors found"
    (if strategy.isDegraded then
      [⟨.warning, .engine,
        s!"{fileName}: {cause}; transform degraded to {strategy.label} matching"⟩]
    else []) ++ strategy.transformLog engine.settings source name ⟨symbol, module⟩

end Engine

end RenderProbe
