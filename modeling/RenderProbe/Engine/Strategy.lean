import RenderProbe.Fallback.Transform
import RenderProbe.Log

/-!
# Strategies

A source with a tree is handled by the tree rules; every source can be handled by the fallback, at a
loss. The first strategy that supports a source is used.

The functions here also say what is logged: the verdicts of detection in the order they are reached,
the rules that fire, and the names for which nothing is found.
-/

namespace RenderProbe

/-- A way to detect and wrap components. -/
inductive Strategy where
  | syntaxTree
  | pattern
  deriving DecidableEq, Inhabited

/-- What the strategies are told. -/
structure StrategySettings where
  criteria : Component.Criteria := .standard
  style : QuoteStyle := .single
  deriving Inhabited

namespace Strategy

/-- The strategies in order of preference. -/
def all : List Strategy :=
  [syntaxTree, pattern]

def label : Strategy → String
  | syntaxTree => "syntax-tree"
  | pattern => "pattern"

/-- Whether a strategy works at a loss. -/
def isDegraded : Strategy → Bool
  | syntaxTree => false
  | pattern => true

/-- Whether a strategy can handle a source. The fallback takes everything, so there is always one
that can. -/
def supports (source : Source) : Strategy → Bool
  | syntaxTree => !source.hasErrors
  | pattern => true

/-- The first strategy that can handle a source. -/
def select? (source : Source) (strategies : List Strategy) : Option Strategy :=
  strategies.find? (supports source)

def noneMessage (source : Source) : String :=
  s!"No strategy can handle {source.fileName}"

/-- The strategy of a source when all of them are at hand. This is what the engine asks for; the
selection from a list never fails then (`select?_all`). -/
def ofSource (source : Source) : Strategy :=
  if source.hasErrors then pattern else syntaxTree

theorem select?_all (source : Source) : select? source all = some (ofSource source) := by
  cases h : source.hasErrors <;> simp [select?, all, supports, ofSource, h]

/-! ## Detection -/

def detect (settings : StrategySettings) (source : Source) :
    Strategy → List Component.Candidate
  | syntaxTree => match source.tree with
    | some root => Component.candidates settings.criteria root
    | none => []
  | pattern => Fallback.detect source.text

/-- The record of a verdict; a declaration that no rule accepts leaves none, as most exports of
a module are no components. -/
def verdictRecord (criteria : Component.Criteria) (declaration : Declaration) : List Record :=
  match criteria.verdict declaration with
  | .rejected gate =>
    [⟨.debug, .detector, s!"{declaration.name} rejected by {gate.label}"⟩]
  | .accepted rule =>
    [⟨.debug, .detector, s!"{declaration.name} accepted by {rule.label}"⟩]
  | .undecided => []

def detectLog (settings : StrategySettings) (source : Source) : Strategy → List Record
  | syntaxTree => match source.tree with
    | some root =>
      let criteria := settings.criteria
      let judged := Component.judged criteria.accepts [] (Declaration.exports root)
      let count := (Component.candidates criteria root).length
      judged.flatMap (verdictRecord criteria)
        ++ [⟨.debug, .detector, s!"{source.fileName}: Detected {count} component(s)"⟩]
    | none => []
  | pattern => []

/-! ## Wrapping -/

def transform (settings : StrategySettings) (source : Source) (name : String)
    (target : ImportTarget) : Strategy → Except Patch.Error WrapResult
  | syntaxTree => match source.tree with
    | some root => Wrap.transform settings.criteria settings.style source.text root name target
    | none => .ok (.untouched .unparsed)
  | pattern => .ok (Fallback.transform settings.style source.text name target)

/-- What the rules log on a statement: the verdict on every match up to the rule that fires. Rules
after that one are not tried and say nothing. -/
def ruleLog (rewrite : Wrap.Rewrite) (fileName : String) (statement : Syntax.Node) :
    List Wrap.Rule → List Record
  | [] => []
  | rule :: rest =>
    let verdicts := (rewrite.matches statement rule).flatMap fun found =>
      verdictRecord rewrite.criteria found.declaration
    if (rewrite.patches statement rule).isEmpty then
      verdicts ++ ruleLog rewrite fileName statement rest
    else
      verdicts ++ [⟨.debug, .transformer, s!"{fileName}: Wrapping {rewrite.name} via {rule.label}"⟩]

def transformLog (settings : StrategySettings) (source : Source) (name : String)
    (target : ImportTarget) : Strategy → List Record
  | syntaxTree => match source.tree with
    | some root =>
      let rewrite :=
        Wrap.Rewrite.of settings.criteria settings.style source.text root name target.symbol
      let statements := root.namedChildren.filter (·.kind == .exportStatement)
      let rules := statements.flatMap fun statement =>
        ruleLog rewrite source.fileName statement Wrap.rules
      if (rewrite.firing root).isEmpty then
        rules ++ [⟨.info, .transformer,
          s!"{source.fileName}: No unwrapped component named {name}"⟩]
      else rules
    | none => []
  | pattern =>
    if !Fallback.isComponentName name.toList then
      [⟨.info, .patterns, source.fileName ++ ": " ++ name
        ++ " does not follow the component naming convention; left unchanged"⟩]
    else match Fallback.transform settings.style source.text name target with
      | .untouched .noMatch => [⟨.info, .patterns,
          s!"{source.fileName}: Pattern fallback found no unwrapped export named {name}"⟩]
      | _ => []

end Strategy

end RenderProbe
