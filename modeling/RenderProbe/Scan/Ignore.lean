import RenderProbe.Text.Fields
import RenderProbe.Text.Glob
import RenderProbe.Text.Letter
import RenderProbe.Text.Lines

/-!
# Ignore rules

Rules that keep paths out of a scan, from an ignore file and from the configuration. The last rule
that matches a path decides, and a negated rule lets the path in again.
-/

namespace RenderProbe.Scan

/-- A rule that matches paths below a project root. `hasSlash` tells a rule that names a place from
one that is for a name anywhere, without a look at its anchor. -/
structure IgnoreRule where
  pattern : String
  directoryOnly : Bool
  anchored : Bool
  negate : Bool
  hasSlash : Bool
  deriving DecidableEq, Inhabited

namespace IgnoreRule

/-- Read one pattern; blanks around it do not count, and a blank pattern is no rule. A slash at
the end and one at the start are marks of the rule and no part of its pattern. -/
def ofPattern? (text : List Char) (negate : Bool) : Option IgnoreRule :=
  let trimmed := Text.trimBlanks text
  if trimmed.isEmpty then none
  else
    let directoryOnly := trimmed.getLast? == some '/'
    let closed := if directoryOnly then trimmed.dropLast else trimmed
    let anchored := closed.head? == some '/'
    let pattern := if anchored then closed.drop 1 else closed
    some { pattern := String.ofList pattern, directoryOnly, anchored, negate
           hasSlash := pattern.contains '/' }

/-- Whether a rule matches a path: as a whole if the rule names a place, else by any of its names. A
rule for directories that names a place also matches the directories below the place it spells
out. -/
def accepts (rule : IgnoreRule) (path : String) (isDirectory : Bool) : Bool :=
  if rule.pattern == "" then false
  else if rule.directoryOnly && !isDirectory then false
  else
    let glob := Text.Glob.ofChars rule.pattern.toList
    if rule.anchored || rule.hasSlash then
      Text.Glob.accepts glob path.toList
        || (rule.directoryOnly && (rule.pattern.toList ++ ['/']).isPrefixOf path.toList)
    else (Text.fields '/' path.toList).any (Text.Glob.accepts glob)

/-- The rule on one line of an ignore file; blank lines and comments hold none. The exclamation mark
is taken off before the pattern is read, so blanks may follow it. -/
def ofLine? (line : List Char) : Option IgnoreRule :=
  match Text.trimBlanks line with
  | [] => none
  | '#' :: _ => none
  | '!' :: rest => ofPattern? rest true
  | trimmed => ofPattern? trimmed false

def ofFile (text : String) : List IgnoreRule :=
  (Text.lines text.toList).filterMap ofLine?

def ofPatterns (patterns : List String) : List IgnoreRule :=
  patterns.filterMap fun pattern => ofPattern? pattern.toList false

end IgnoreRule

/-- Whether rules keep a path out. All rules are gone through, since a later one that matches
overrules the earlier ones in either direction. -/
def isIgnored (rules : List IgnoreRule) (path : String) (isDirectory : Bool) : Bool :=
  rules.foldl (fun ignored rule =>
    if rule.accepts path isDirectory then !rule.negate else ignored) false

end RenderProbe.Scan
