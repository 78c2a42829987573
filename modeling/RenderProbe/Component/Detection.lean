import RenderProbe.Component.Rendering
import RenderProbe.Text.Letter

/-!
# Component detection

An exported declaration is a component when its name starts with an uppercase letter and one of four
further rules accepts it. Detection favours recall: what is wrongly reported is left alone by the
rewriting rules.

* `Criteria.accepts`: the verdict on one declaration.
* `candidates`: the components of a module, each name once, in the order of the exports.
-/

namespace RenderProbe.Component

open Syntax (Node)

/-- What detection may be told: the calls that make components, the classes components extend, and
how deep return statements are looked for. -/
structure Criteria where
  helpers : List String
  baseClasses : List String
  maxDepth : Nat
  deriving DecidableEq, Inhabited

/-- The calls that make components, unless told otherwise. -/
def defaultHelpers : List String :=
  ["memo", "forwardRef", "lazy"]

/-- The classes components extend, unless told otherwise. -/
def defaultBaseClasses : List String :=
  ["Component", "PureComponent"]

/-- How deep return statements are looked for, unless told otherwise. -/
def defaultMaxDepth : Nat :=
  64

/-- The criteria of a run without configuration. -/
def Criteria.standard : Criteria :=
  ⟨defaultHelpers, defaultBaseClasses, defaultMaxDepth⟩

/-! ## Rules -/

/-- The rules in the order they are asked; the first is a gate that all declarations have to
pass. -/
inductive Rule where
  | componentName
  | defaultIdentifier
  | functionReturnsMarkup
  | classComponent
  | componentInitializer
  deriving DecidableEq, Inhabited

def Rule.label : Rule → String
  | componentName => "component-name"
  | defaultIdentifier => "default-identifier"
  | functionReturnsMarkup => "function-returns-markup"
  | classComponent => "class-component"
  | componentInitializer => "component-initializer"

/-- A name that starts with an uppercase letter. Markup with a lowercase name stands for a plain
element of the page, so nothing else can be used as a component. -/
def isComponentName (name : String) : Bool :=
  name.toList.head?.any Text.isUppercaseLetter

/-- Whether a value is a function that renders or a call that makes a component. What is given to
such a call is not looked at: its name alone tells that a component comes out. -/
def Criteria.isComponentValue (criteria : Criteria) (value : Node) : Bool :=
  match value.kind with
  | .functionExpression | .arrowFunction => functionRenders criteria.maxDepth value
  | .call => value.calleeName?.any criteria.helpers.contains
  | _ => false

/-- Whether a rule holds of a declaration. Classes and values are looked at through parentheses and
type assertions around them; a default export of a plain name passes without a look at what the name
stands for. -/
def Criteria.holds (criteria : Criteria) (declaration : Declaration) : Rule → Bool
  | .componentName => isComponentName declaration.name
  | .defaultIdentifier => declaration.kind == .reference && declaration.exportKind == .default
  | .functionReturnsMarkup => declaration.node.any fun node =>
      node.kind == .functionDeclaration && functionRenders criteria.maxDepth node
  | .classComponent => (declaration.node.bind Node.unwrap).any fun node =>
      Declaration.isClassKind node.kind
        && (extendsBase criteria.baseClasses node || definesRender node)
  | .componentInitializer => (declaration.node.bind Node.unwrap).any criteria.isComponentValue

def rules : List Rule :=
  [.componentName, .defaultIdentifier, .functionReturnsMarkup, .classComponent,
   .componentInitializer]

/-- The rules of which one has to accept a declaration. -/
def acceptingRules : List Rule :=
  [.defaultIdentifier, .functionReturnsMarkup, .classComponent, .componentInitializer]

/-- What the rules say of a declaration: that the gate keeps it out, which rule accepts it first, or
that no rule has anything to say. Only the first two are worth a line in the log. -/
inductive Verdict where
  | rejected (gate : Rule)
  | accepted (rule : Rule)
  | undecided
  deriving DecidableEq, Inhabited

/-- The verdict on a declaration: the gate first, then the first rule that accepts. It agrees with
`Criteria.accepts` on what a component is, and says besides which rule decided. -/
def Criteria.verdict (criteria : Criteria) (declaration : Declaration) : Verdict :=
  if criteria.holds declaration .componentName then
    match acceptingRules.find? (criteria.holds declaration) with
    | some rule => .accepted rule
    | none => .undecided
  else .rejected .componentName

def Criteria.accepts (criteria : Criteria) (declaration : Declaration) : Bool :=
  criteria.holds declaration .componentName
    && acceptingRules.any (criteria.holds declaration)

/-! ## Candidates -/

/-- A declaration reported as a component, with the file it is in when a project was searched. -/
structure Candidate where
  name : String
  kind : DeclarationKind
  exportKind : ExportKind
  path : Option String := none
  deriving DecidableEq, Inhabited

/-- The text that addresses a candidate in a wrap request: its file and its name with two colons
between them, or the name alone where no file is known. -/
def Candidate.target (candidate : Candidate) : String :=
  match candidate.path with
  | some path => if path == "" then candidate.name else s!"{path}::{candidate.name}"
  | none => candidate.name

def Candidate.ofDeclaration (declaration : Declaration) : Candidate :=
  { name := declaration.name, kind := declaration.kind, exportKind := declaration.exportKind }

/-- The first accepted declaration of every name that is not in `seen`. A module may hand out one
name in several ways, and a component is to be reported once. -/
def firstAccepted (accepts : Declaration → Bool) (seen : List String) :
    List Declaration → List Declaration
  | [] => []
  | declaration :: rest =>
    if seen.contains declaration.name || !accepts declaration then
      firstAccepted accepts seen rest
    else declaration :: firstAccepted accepts (declaration.name :: seen) rest

/-- The components a module exports. -/
def candidates (criteria : Criteria) (root : Node) : List Candidate :=
  (firstAccepted criteria.accepts [] (Declaration.exports root)).map Candidate.ofDeclaration

/-- The declarations that detection passes judgement on: those whose name is not reported yet. A
name that was refused may come again, under a declaration that is accepted. -/
def judged (accepts : Declaration → Bool) (seen : List String) :
    List Declaration → List Declaration
  | [] => []
  | declaration :: rest =>
    if seen.contains declaration.name then judged accepts seen rest
    else
      declaration :: judged accepts
        (if accepts declaration then declaration.name :: seen else seen) rest

end RenderProbe.Component
