import RenderProbe.Syntax.Reference

/-!
# Exported declarations

The names a module exports, each with the node that defines its value. A clause `export { A as B }`
and a default export of a plain name are resolved to the declaration of that name at the top level.
-/

namespace RenderProbe

open Syntax (Node)

/-- The syntactic shape of an exported declaration. -/
inductive DeclarationKind where
  | function
  | classDeclaration
  | initializer
  /-- A name declared elsewhere in the module, or in another one. -/
  | reference
  deriving DecidableEq, Inhabited

def DeclarationKind.label : DeclarationKind → String
  | function => "function-declaration"
  | classDeclaration => "class-declaration"
  | initializer => "variable-with-function-initializer"
  | reference => "re-exported-identifier"

/-- How a declaration leaves its module. -/
inductive ExportKind where
  | default
  | named
  deriving DecidableEq, Inhabited

def ExportKind.label : ExportKind → String
  | default => "default"
  | named => "named"

/-- One exported name and the node that defines its value, if that node is in the module. -/
structure Declaration where
  name : String
  kind : DeclarationKind
  exportKind : ExportKind
  node : Option Node
  deriving Inhabited

namespace Declaration

def isClassKind : Syntax.Kind → Bool
  | .classDeclaration | .abstractClassDeclaration | .classExpression => true
  | _ => false

/-! ## Names declared at the top level -/

/-- The names a statement binds to a value, with the nodes that define them. Patterns bind no name
that could be looked up here, and a variable without value defines nothing. -/
def bindingsOf (declaration : Node) : List (String × Node) :=
  if declaration.kind == .functionDeclaration || isClassKind declaration.kind then
    match declaration.declaredName? with
    | some name => [(name, declaration)]
    | none => []
  else declaration.declarators.filterMap fun declarator =>
    match declarator.child? .name, declarator.child? .value with
    | some name, some value =>
      if name.kind == .identifier then some (name.lexeme, value) else none
    | _, _ => none

/-- The declaration in a top-level statement: the statement itself, or what it exports. Both bind
names in the module, so a clause may hand out a name that is exported already. -/
def declarationIn (statement : Node) : Option Node :=
  if statement.kind == .exportStatement then statement.child? .declaration else some statement

/-- The names bound at the top level, those of exported declarations among them. Of two bindings of
one name the first counts, as a lookup goes through the list from its front. -/
def localBindings (root : Node) : List (String × Node) :=
  root.namedChildren.flatMap fun statement =>
    match declarationIn statement with
    | some declaration => bindingsOf declaration
    | none => []

/-! ## Exports -/

/-- What an exported declaration or value declares: a function or class with its own name, or
each variable that has a plain name. A declaration without name hands nothing out that could be
addressed. -/
def declared (exportKind : ExportKind) (declaration : Node) : List Declaration :=
  if declaration.kind == .functionDeclaration || declaration.kind == .functionExpression then
    match declaration.declaredName? with
    | some name => [⟨name, .function, exportKind, some declaration⟩]
    | none => []
  else if isClassKind declaration.kind then
    match declaration.declaredName? with
    | some name => [⟨name, .classDeclaration, exportKind, some declaration⟩]
    | none => []
  else declaration.declarators.filterMap fun declarator =>
    match declarator.child? .name with
    | some name =>
      if name.kind == .identifier then
        some ⟨name.lexeme, .initializer, exportKind, declarator.child? .value⟩
      else none
    | none => none

/-- What a specifier of an export clause hands out, under the name that the outside sees; the local
name is kept where it leaves the module as the default. Specifiers of types are left out. -/
def ofSpecifier (bindings : List (String × Node)) (specifier : Node) : Option Declaration :=
  if specifier.kind != .exportSpecifier || specifier.hasKeyword "type" then none
  else
    let localName := ((specifier.child? .name).map (·.lexeme)).getD ""
    let exported := ((specifier.child? .alias).bind Node.lexeme?).getD localName
    if localName == "" then none
    else
      let node := bindings.lookup localName
      if exported == "default" then some ⟨localName, .reference, .default, node⟩
      else some ⟨exported, .reference, .named, node⟩

/-- What the export clauses of a statement hand out. This is asked of clauses without a module
behind them only: names handed on from elsewhere have no node in this one. -/
def clauseExports (bindings : List (String × Node)) (statement : Node) : List Declaration :=
  (statement.namedChildren.filter (·.kind == .exportClause)).flatMap fun clause =>
    clause.namedChildren.filterMap (ofSpecifier bindings)

/-- How an export statement hands its names out. -/
def exportKindOf (statement : Node) : ExportKind :=
  if statement.hasKeyword "default" then .default else .named

/-- The value of a default export that is no declaration, looked through. Parentheses and type
assertions do not change which component it is. -/
def defaultValue? (statement : Node) : Option Node :=
  if statement.hasKeyword "default" && (statement.child? .declaration).isNone then
    (statement.child? .value).bind Node.unwrap
  else none

/-- What a top-level statement exports. A default export of a plain name is a reference, whose node
is found among the module's own bindings, if it is there at all. -/
def statementExports (bindings : List (String × Node)) (statement : Node) : List Declaration :=
  if statement.kind != .exportStatement || statement.hasKeyword "type" then []
  else match defaultValue? statement with
    | some value =>
      if value.kind == .identifier then
        [⟨value.lexeme, .reference, .default, bindings.lookup value.lexeme⟩]
      else declared (exportKindOf statement) value
    | none => match statement.child? .declaration with
      | some declaration => declared (exportKindOf statement) declaration
      | none =>
        if (statement.child? .source).isNone then clauseExports bindings statement else []

/-- Everything a module exports, in the order of its statements. -/
def exports (root : Node) : List Declaration :=
  root.namedChildren.flatMap (statementExports (localBindings root))

end Declaration

end RenderProbe
