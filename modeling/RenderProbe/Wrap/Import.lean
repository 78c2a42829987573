import RenderProbe.Syntax.Node

/-!
# Imports of the wrapper

Whether a module already binds the wrapper's name by an import of a value, and where an import of it
goes: after the last import and the comments on its line, else after the hash-bang line and the
directives at the start.
-/

namespace RenderProbe.Wrap

open Syntax (Node)

/-- What a module's imports say about a name: whether one binds it to a value, where an import of it
goes, and whether something stands in front of that place that calls for a line break. -/
structure ImportState where
  hasBinding : Bool
  offset : Nat
  afterExisting : Bool
  deriving DecidableEq, Inhabited

/-- The local name a specifier binds: its alias if it has one. A specifier of a type binds no value,
so the wrapper has to be imported in spite of it. -/
def specifierBinding? (specifier : Node) : Option String :=
  if specifier.kind != .importSpecifier || specifier.hasKeyword "type" then none
  else some (((specifier.child? .alias <|> specifier.child? .name).map (·.lexeme)).getD "")

/-- The local names an item of an import clause binds. -/
def itemBindings (item : Node) : List String :=
  match item.kind with
  | .identifier => [item.lexeme]
  | .namespaceImport => (item.children.filter (·.kind == .identifier)).map (·.lexeme)
  | .namedImports => item.namedChildren.filterMap specifierBinding?
  | _ => []

def importedBindings (statement : Node) : List String :=
  (statement.namedChildren.filter (·.kind == .importClause)).flatMap fun clause =>
    clause.namedChildren.flatMap itemBindings

/-- Whether an import binds a name to a value. -/
def bindsValue (symbol : String) (statement : Node) : Bool :=
  statement.kind == .importStatement && !statement.hasKeyword "type"
    && (importedBindings statement).contains symbol

/-- The last import of a row of statements, with the nodes after it. Imports need not stand
together, and a new one has to come after all of them. -/
def lastImport? : List Node → Option (Node × List Node)
  | [] => none
  | statement :: rest =>
    match lastImport? rest with
    | some found => some found
    | none => if statement.kind == .importStatement then some (statement, rest) else none

/-- The end of the comments that start on the row where the node before them ended. A comment behind
an import belongs to it, and a new import must not come between them. -/
def endOfComments (stop row : Nat) : List Node → Nat
  | [] => stop
  | node :: rest =>
    if node.kind == .comment && node.span.startRow == row then
      endOfComments node.span.stop node.span.stopRow rest
    else stop

def isDirective (node : Node) : Bool :=
  node.kind == .expressionStatement
    && match node.namedChildren.filter (·.kind != .comment) with
      | [child] => child.kind == .stringLiteral
      | _ => false

/-- The end of the hash-bang line and directives that lead a row of nodes. Comments between them are
passed over without moving the end, so a comment after the last directive stays with what follows
it. -/
def endOfPrologue (stop : Nat) : List Node → Nat
  | [] => stop
  | node :: rest =>
    if node.kind == .hashBang || isDirective node then endOfPrologue node.span.stop rest
    else if node.kind == .comment then endOfPrologue stop rest
    else stop

/-- What a module's imports say about a name. A new import goes behind the last one with its
comments; without imports it goes behind the prologue, or to the very start of a text without
one. -/
def scanImports (root : Node) (symbol : String) : ImportState :=
  let hasBinding := root.namedChildren.any (bindsValue symbol)
  match lastImport? root.namedChildren with
  | some (statement, rest) =>
    ⟨hasBinding, endOfComments statement.span.stop statement.span.stopRow rest, true⟩
  | none =>
    let offset := endOfPrologue 0 root.namedChildren
    ⟨hasBinding, offset, 0 < offset⟩

end RenderProbe.Wrap
