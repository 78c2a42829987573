import RenderProbe.Syntax.Grammar.Statement

/-!
# Imports and exports

The statements by which a module takes in and hands out names.
-/

namespace RenderProbe.Syntax

/-- The name of an export: a word or a string. -/
def moduleExportName : Parser :=
  firstOf [leaf .identifier wordLength, stringLiteral]

/-- Whether the word `type` marks the specifier that follows it as one of a type. -/
def marksType (cursor : Cursor) : Bool :=
  wordAhead cursor == "type" &&
    let following := afterWord cursor
    (following.head?.any fun c => isNameStart c || c == '"' || c == '\'')
      && !(startsWithWord "as".toList following && !startsAsName following)
where
  /-- Whether `as` is itself the name that follows: `as as x`, or `as` before a comma or brace. -/
  startsAsName (following : List Char) : Bool :=
    let after := ahead ⟨following.drop 2, 0, 0⟩
    startsWithAny [',', '}'] after || startsWithWord "as".toList after

/-- The word `type` before a specifier. -/
def specifierType : Parser := fun cursor =>
  if marksType cursor then word "type" cursor else some ([], cursor)

/-- A name and the name it gets. -/
def specifier (kind : Kind) : Parser :=
  node kind (seq [specifierType, role .name moduleExportName,
    optional (seq [word "as", role .alias moduleExportName])])

/-- The module an import or export names, with its attributes. -/
def fromClause (g : Grammar) : Parser :=
  seq [word "from", role .source stringLiteral, importAttributes g]
where
  /-- Attributes of an import. -/
  importAttributes (g : Grammar) : Parser :=
    optional (sameLine (seq [firstOf [word "with", word "assert"],
      node .expression (seq [mark "\x7b", listUntil g.rounds
        (seq [firstOf [anyName, stringLiteral], mark ":", g.call (.assignment true true)])
        "\x7d"])]))

/-- All names of a module under one name. -/
def namespaceImport : Parser :=
  node .namespaceImport (seq [mark "*", word "as", identifier])

def namedImports (g : Grammar) : Parser :=
  node .namedImports (seq [mark "\x7b", listUntil g.rounds (specifier .importSpecifier) "\x7d"])

/-- What an import binds. -/
def importClause (g : Grammar) : Parser :=
  node .importClause (firstOf [
    namespaceImport,
    namedImports g,
    seq [identifier, optional (seq [mark ",", firstOf [namespaceImport, namedImports g]])]])

/-- The keyword that makes a whole import one of types: the word `type`, unless it is the name that
is imported. -/
def importTypeKeyword : Parser := fun cursor =>
  let following := afterWord cursor
  let isKeyword := ["type", "typeof"].contains (wordAhead cursor)
    && (startsWithAny ['{', '*'] following
      || (following.head?.any isNameStart && !startsWithWord "from".toList following))
  if isKeyword then word (wordAhead cursor) cursor else some ([], cursor)

def importStatement (g : Grammar) : Parser :=
  node .importStatement (seq [word "import", firstOf [
    seq [importTypeKeyword, importClause g, fromClause g],
    seq [importTypeKeyword, identifier, markBut "=" ['=', '>'], word "require", mark "(",
      stringLiteral, mark ")"],
    seq [role .source stringLiteral, fromClause.importAttributes g]],
    semicolon false])

/-- What a statement with `import` in front may be. -/
def importRule (g : Grammar) : Parser :=
  firstOf [importStatement g, importAlias g, expressionStatement g]

/-! ## Exports -/

def exportClause (g : Grammar) : Parser :=
  node .exportClause (seq [mark "\x7b", listUntil g.rounds (specifier .exportSpecifier) "\x7d"])

/-- The value of a default export that is no declaration. -/
def defaultValueExport (g : Grammar) : Parser :=
  seq [role .value (g.call (.assignment true true)), semicolon true]

/-- A default export after its keyword: a declaration if it reads as one, else a value. -/
def defaultExport (g : Grammar) : Parser :=
  firstOf [role .declaration (declaration g), defaultValueExport g]

/-- All names of a module handed on. -/
def namespaceExport : Parser :=
  seq [mark "*", optional (seq [word "as", moduleExportName])]

def exportStatement (g : Grammar) : Parser :=
  node .exportStatement (seq [many g.rounds (decorator g), word "export", firstOf [
    seq [word "default", defaultExport g],
    seq [optional (word "type"), namespaceExport, fromClause g, semicolon false],
    seq [optional (word "type"), exportClause g, optional (fromClause g), semicolon false],
    seq [word "as", word "namespace", identifier, semicolon false],
    seq [markBut "=" ['=', '>'], g.call (.expression true), semicolon true],
    role .declaration (declaration g)]])

/-- What an at sign starts: a decorated export or class. -/
def decoratedStatement (g : Grammar) : Parser :=
  firstOf [exportStatement g, classDeclaration g]

/-! ## All statements -/

/-- A statement, by its first character or word. -/
def statementRule (g : Grammar) : Parser := fun cursor =>
  match ahead cursor with
  | '{' :: _ => blockRule g cursor
  | ';' :: _ => statementNode (mark ";") cursor
  | '@' :: _ => decoratedStatement g cursor
  | _ => match wordAhead cursor with
    | "if" => ifStatement g cursor
    | "for" => firstOf [forEachStatement g, forStatement g] cursor
    | "while" => whileStatement g cursor
    | "do" => doStatement g cursor
    | "try" => tryStatement g cursor
    | "switch" => switchStatement g cursor
    | "with" => statementNode (seq [word "with", parenthesized g, g.call .statement]) cursor
    | "return" => returnStatement g cursor
    | "throw" => throwStatement g cursor
    | "break" => jumpStatement "break" cursor
    | "continue" => jumpStatement "continue" cursor
    | "debugger" => statementNode (seq [word "debugger", semicolon false]) cursor
    | "import" => importRule g cursor
    | "export" => exportStatement g cursor
    | "function" | "class" | "const" | "let" | "var" | "enum" => declaration g cursor
    | "async" | "abstract" | "type" | "interface" | "namespace" | "module" | "declare" =>
      contextual g (declaration g) cursor
    | "" => expressionStatement g cursor
    | _ =>
      if startsWithAny [':'] (afterWord cursor) then labeledStatement g cursor
      else expressionStatement g cursor

end RenderProbe.Syntax
