import RenderProbe.Syntax.Grammar.Type

/-!
# Binding patterns

What stands on the left of a declaration or in a parameter: a name, or names taken out of an object
or array.
-/

namespace RenderProbe.Syntax

/-- An element left out between two commas. -/
def hole : Parser := fun cursor =>
  if startsWithAny [','] (ahead cursor) then some ([], cursor) else none

def patternWithDefault (g : Grammar) : Parser :=
  seq [g.call .bindingPattern, optional (defaultValue g)]

/-- The remaining elements or properties. -/
def restPattern (g : Grammar) : Parser :=
  seq [mark "...", g.call .bindingPattern]

def propertyPattern (g : Grammar) : Parser :=
  firstOf [
    restPattern g,
    seq [propertyName g, mark ":", patternWithDefault g],
    seq [identifier, optional (defaultValue g)]]

/-- Names taken out of an object. -/
def objectPattern (g : Grammar) : Parser :=
  node .pattern (seq [mark "\x7b", listUntil g.rounds (propertyPattern g) "\x7d"])

/-- Names taken out of an array. -/
def arrayPattern (g : Grammar) : Parser :=
  node .pattern (seq [mark "[",
    listUntil g.rounds (firstOf [restPattern g, patternWithDefault g, hole]) "]"])

def bindingPatternRule (g : Grammar) : Parser := fun cursor =>
  match ahead cursor with
  | '{' :: _ => objectPattern g cursor
  | '[' :: _ => arrayPattern g cursor
  | _ => identifier cursor

end RenderProbe.Syntax
