/-!
# Faults

What goes wrong while a value is built, where nothing is prepared for it. The class of a fault
decides who catches it: readers of numbers are guarded against values that do not exist, and against
nothing else.
-/

namespace RenderProbe

/-- The class of a fault, by the operation that raises it. -/
inductive FaultKind where
  /-- A text or number that stands for no value. -/
  | noValue
  /-- A word that a table does not have. -/
  | noKey
  /-- A place behind the end of a text. -/
  | noIndex
  | noMember
  | wrongType
  /-- A number beyond the greatest double. -/
  | overflow
  | recursion
  deriving DecidableEq, Inhabited

def FaultKind.className : FaultKind → String
  | noValue => "ValueError"
  | noKey => "KeyError"
  | noIndex => "IndexError"
  | noMember => "AttributeError"
  | wrongType => "TypeError"
  | overflow => "OverflowError"
  | recursion => "RecursionError"

/-- A fault and what is said about it. -/
structure Fault where
  kind : FaultKind
  message : String
  deriving DecidableEq, Inhabited

instance : Coe String Fault :=
  ⟨fun message => ⟨.noValue, message⟩⟩

end RenderProbe
