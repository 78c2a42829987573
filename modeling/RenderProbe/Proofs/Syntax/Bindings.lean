import RenderProbe.Proofs.Syntax.Outline

/-!
# Names bound at the top level

The names that the statements of a module bind: those of its imports, of types too, its functions
and classes, and its variables, taken out of patterns as well. A function's overload signatures bind
nothing beside their implementation. A name that is bound twice is listed twice.

* `Node.topLevelNames`: the names of a module.
* `Node.topLevelNames_outline`: they do not depend on layout.
-/

namespace RenderProbe.Syntax.Node

/-! ## Patterns -/

mutual

/-- The names that a pattern binds. -/
def patternNames : Node → List String
  | ⟨kind, _, _, lexeme, children⟩ => match kind with
    | .identifier => [lexeme]
    | .pattern => patternNamesAmong false children
    | _ => []

/-- The names that a row of patterns binds; a node after an equals sign is a default value. -/
def patternNamesAmong (isDefault : Bool) : List Node → List String
  | [] => []
  | node :: rest =>
    if node.kind == .comment then patternNamesAmong isDefault rest
    else if isDefault then patternNamesAmong false rest
    else patternNames node ++ patternNamesAmong (node.kind == .token && node.lexeme == "=") rest

end

/-! ## Imports -/

/-- The name of a node that is a plain name. -/
def plainNames (node : Node) : List String :=
  if node.kind == .identifier then [node.lexeme] else []

/-- The local name that a specifier of an import binds. -/
def specifierNames (specifier : Node) : List String :=
  if specifier.kind == .importSpecifier then
    ((specifier.child? .alias <|> specifier.child? .name).map (·.lexeme)).toList
  else []

/-- The local names that an item of an import clause binds. -/
def itemNames (item : Node) : List String :=
  match item.kind with
  | .identifier => [item.lexeme]
  | .namespaceImport => item.children.flatMap plainNames
  | .namedImports => item.children.flatMap specifierNames
  | _ => []

/-- The local names that a part of an import binds: a clause, or the name given to a
required module. -/
def importPartNames (part : Node) : List String :=
  match part.kind with
  | .importClause => part.children.flatMap itemNames
  | .identifier => [part.lexeme]
  | _ => []

/-! ## Statements -/

/-- The names that a declarator binds. -/
def declaratorNames (declarator : Node) : List String :=
  ((declarator.child? .name).map patternNames).getD []

/-- The names that a declaration binds. -/
def declarationNames (declaration : Node) : List String :=
  match declaration.kind with
  | .functionDeclaration | .generatorDeclaration | .classDeclaration | .abstractClassDeclaration
  | .functionExpression | .classExpression => declaration.declaredName?.toList
  | .variableDeclaration => declaration.declarators.flatMap declaratorNames
  | .statement =>
    -- A second name for something in a namespace.
    if declaration.hasKeyword "import" then (declaration.children.flatMap plainNames).take 1 else []
  | _ => []

/-- What an export statement declares: its declaration, or the function or class that a
default export starts with. -/
def exportedDeclaration? (statement : Node) : Option Node :=
  match statement.child? .declaration with
  | some declaration => some declaration
  | none => (statement.child? .value).filter fun value =>
      value.kind == .functionExpression || value.kind == .classExpression

/-- The names that a top-level statement binds. -/
def statementNames (statement : Node) : List String :=
  match statement.kind with
  | .importStatement => statement.children.flatMap importPartNames
  | .exportStatement => ((exportedDeclaration? statement).map declarationNames).getD []
  | _ => declarationNames statement

/-- The names that a module binds. -/
def topLevelNames (root : Node) : List String :=
  root.children.flatMap statementNames

/-! ## Layout -/

mutual

theorem patternNames_outline : ∀ node : Node, patternNames node.outline = patternNames node
  | ⟨kind, role, span, lexeme, children⟩ => by
    simp only [outline, patternNames, patternNamesAmong_outlineAll false children]

theorem patternNamesAmong_outlineAll (isDefault : Bool) :
    ∀ nodes : List Node,
      patternNamesAmong isDefault (outlineAll nodes) = patternNamesAmong isDefault nodes
  | [] => rfl
  | node :: rest => by
    have ih := fun isDefault => patternNamesAmong_outlineAll isDefault rest
    cases trivia : node.isTrivia with
    | true => simp [outlineAll, patternNamesAmong, trivia, kind_of_isTrivia trivia, ih]
    | false => simp [outlineAll, patternNamesAmong, trivia, patternNames_outline node, ih]

end

section Layout

variable (node : Node)

theorem plainNames_outline : plainNames node.outline = plainNames node := by
  simp [plainNames]

theorem specifierNames_outline : specifierNames node.outline = specifierNames node := by
  rw [specifierNames, child?_outline node (by decide), child?_outline node (by decide)]
  cases renamed : node.child? .alias <;> cases name : node.child? .name <;>
    simp [specifierNames, renamed, name]

theorem itemNames_outline : itemNames node.outline = itemNames node := by
  have plain := flatMap_outlineAll plainNames_outline
    (fun child comment => by simp [plainNames, comment]) node.children
  have specifiers := flatMap_outlineAll specifierNames_outline
    (fun child comment => by simp [specifierNames, comment]) node.children
  simp only [itemNames, outline_kind, outline_lexeme, outline_children, plain, specifiers]

theorem importPartNames_outline : importPartNames node.outline = importPartNames node := by
  have items := flatMap_outlineAll itemNames_outline
    (fun child comment => by simp [itemNames, comment]) node.children
  simp only [importPartNames, outline_kind, outline_lexeme, outline_children, items]

theorem declaratorNames_outline : declaratorNames node.outline = declaratorNames node := by
  rw [declaratorNames, child?_outline node (by decide), declaratorNames]
  cases node.child? .name <;> simp [patternNames_outline]

theorem declarationNames_outline : declarationNames node.outline = declarationNames node := by
  have plain := flatMap_outlineAll plainNames_outline
    (fun child comment => by simp [plainNames, comment]) node.children
  have ofVariables : (node.declarators.map outline).flatMap declaratorNames =
      node.declarators.flatMap declaratorNames := by
    simp [List.flatMap_map, declaratorNames_outline]
  simp only [declarationNames, outline_kind, outline_children, declaredName?_outline,
    declarators_outline, hasKeyword_outline, plain, ofVariables]

theorem exportedDeclaration?_outline :
    exportedDeclaration? node.outline = (exportedDeclaration? node).map outline := by
  rw [exportedDeclaration?, child?_outline node (by decide), child?_outline node (by decide),
    exportedDeclaration?]
  cases node.child? .declaration with
  | some declaration => rfl
  | none =>
    cases node.child? .value with
    | none => rfl
    | some value =>
      simp only [Option.map_none, Option.map_some, Option.filter_some, outline_kind]
      split <;> rfl

theorem statementNames_outline : statementNames node.outline = statementNames node := by
  have parts := flatMap_outlineAll importPartNames_outline
    (fun child comment => by simp [importPartNames, comment]) node.children
  have exported : ((exportedDeclaration? node.outline).map declarationNames).getD [] =
      ((exportedDeclaration? node).map declarationNames).getD [] := by
    rw [exportedDeclaration?_outline]
    cases exportedDeclaration? node <;> simp [declarationNames_outline]
  simp only [statementNames, outline_kind, outline_children, parts, exported,
    declarationNames_outline]

/-- The names that a module binds do not depend on layout. -/
theorem topLevelNames_outline : topLevelNames node.outline = topLevelNames node := by
  rw [topLevelNames, outline_children, topLevelNames]
  exact flatMap_outlineAll statementNames_outline
    (fun child comment => by simp [statementNames, declarationNames, comment]) node.children

end Layout

end RenderProbe.Syntax.Node
