/-!
# Log records

What a run reports on the way. Records are collected as data; which of them reach the console and
the log file is decided where a command is run.
-/

namespace RenderProbe

/-- How urgent a record is. -/
inductive Level where
  | debug
  | info
  | warning
  | error
  deriving DecidableEq, Inhabited

def Level.rank : Level → Nat
  | debug => 0
  | info => 1
  | warning => 2
  | error => 3

def Level.label : Level → String
  | debug => "DEBUG"
  | info => "INFO"
  | warning => "WARNING"
  | error => "ERROR"

/-- The part of the program a record comes from. -/
inductive Reporter where
  | detector
  | transformer
  | patterns
  | engine
  | scanner
  | project
  deriving DecidableEq, Inhabited

def Reporter.label : Reporter → String
  | detector => "detector"
  | transformer => "transformer"
  | patterns => "patterns"
  | engine => "engine"
  | scanner => "scanner"
  | project => "project"

/-- One thing reported. -/
structure Record where
  level : Level
  reporter : Reporter
  message : String
  deriving DecidableEq, Inhabited

/-- A value with what was reported while it was found. -/
structure Logged (α : Type) where
  value : α
  log : List Record
  deriving Inhabited

namespace Logged

def report (level : Level) (reporter : Reporter) (message : String) : Logged Unit :=
  ⟨(), [⟨level, reporter, message⟩]⟩

def reportAll (records : List Record) : Logged Unit :=
  ⟨(), records⟩

instance : Monad Logged where
  pure value := ⟨value, []⟩
  bind step next :=
    let after := next step.value
    ⟨after.value, step.log ++ after.log⟩

@[simp] theorem value_pure {α : Type} (value : α) : (pure value : Logged α).value = value := rfl

@[simp] theorem value_bind {α β : Type} (step : Logged α) (next : α → Logged β) :
    (step >>= next).value = (next step.value).value := rfl

@[simp] theorem log_pure {α : Type} (value : α) : (pure value : Logged α).log = [] := rfl

@[simp] theorem log_bind {α β : Type} (step : Logged α) (next : α → Logged β) :
    (step >>= next).log = step.log ++ (next step.value).log := rfl

end Logged

end RenderProbe
