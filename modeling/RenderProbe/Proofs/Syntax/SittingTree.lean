import RenderProbe.Proofs.Syntax.SittingGrammar

/-!
# Trees that sit in their source

Statements and modules, and the whole grammar tied together.

* `reads_parseWithin`: every rule reads nodes that sit in the source, however deep rules call each
  other.
* `sits_of_parse`: every top-level node of a tree sits in its source, but for the line that names an
  interpreter. That line is read up to its line feed, so in a source with carriage returns it ends
  inside a line break.
-/

namespace RenderProbe.Syntax

open Patch (Boundary)
open Text (StyledText)

section Grammar

variable {source : StyledText} {floor : Nat} {g : Grammar}

theorem reads_variableKeyword : Reads source floor variableKeyword :=
  .firstOf ⟨.word rfl, .word rfl, .word rfl⟩

theorem reads_jumpStatement {keyword : String} (plain : keyword.toList.contains '\r' = false) :
    Reads source floor (jumpStatement keyword) :=
  .node (.seq ⟨.word plain, .optional (.sameLine (.leaf crisp_nameLength)), .semicolon⟩)

theorem reads_moduleExportName : Reads source floor moduleExportName :=
  .firstOf ⟨.leaf crisp_wordLength, .stringLiteral⟩

theorem reads_specifierType : Reads source floor specifierType := by
  intro cursor stands
  unfold specifierType
  split
  · exact Reads.word rfl cursor stands
  · exact .found (.nil stands)

theorem reads_specifier {kind : Kind} : Reads source floor (specifier kind) :=
  .node (.seq ⟨reads_specifierType, .role reads_moduleExportName,
      .optional (.seq ⟨.word rfl, .role reads_moduleExportName⟩)⟩)

theorem reads_namespaceImport : Reads source floor namespaceImport :=
  .node (.seq ⟨.mark rfl, .word rfl, .identifier⟩)

theorem reads_importTypeKeyword : Reads source floor importTypeKeyword := by
  intro cursor stands
  unfold importTypeKeyword
  dsimp only
  split
  · exact Reads.word (contains_wordAhead cursor) cursor stands
  · exact .found (.nil stands)

theorem reads_namespaceExport : Reads source floor namespaceExport :=
  .seq ⟨.mark rfl, .optional (.seq ⟨.word rfl, reads_moduleExportName⟩)⟩

theorem reads_importAlias : Reads source floor (importAlias g) :=
  .node (.seq ⟨.word rfl, .identifier, .markBut rfl,
    .separated .identifier (.mark rfl), .semicolon⟩)

theorem reads_namedImports : Reads source floor (namedImports g) :=
  .node (.seq ⟨.mark rfl, .listUntil reads_specifier rfl⟩)

theorem reads_exportClause : Reads source floor (exportClause g) :=
  .node (.seq ⟨.mark rfl, .listUntil reads_specifier rfl⟩)

theorem reads_importClause : Reads source floor (importClause g) :=
  .node (.firstOf ⟨reads_namespaceImport, reads_namedImports,
      .seq ⟨.identifier,
        .optional (.seq ⟨.mark rfl, .firstOf ⟨reads_namespaceImport, reads_namedImports⟩⟩)⟩⟩)

variable (calls : g.CallsSit source)

include calls

/-! ## Statements -/

theorem reads_blockRule : Reads source floor (blockRule g) :=
  .node (.seq ⟨.mark rfl, .many (calls _ _), .mark rfl⟩)

theorem reads_declarator {allowIn : Bool} : Reads source floor (declarator g allowIn) :=
  .node (.seq ⟨.role (calls _ _), .optional (.markBut rfl), .optional (reads_annotatedType calls),
      .optional (.seq ⟨.markBut rfl, .role (calls _ _)⟩)⟩)

theorem reads_declarators {allowIn : Bool} : Reads source floor (declarators g allowIn) :=
  .seq ⟨reads_variableKeyword, .separated (reads_declarator calls) (.mark rfl)⟩

theorem reads_variableDeclaration : Reads source floor (variableDeclaration g) :=
  .node (.seq ⟨reads_declarators calls, .semicolon⟩)

theorem reads_typeAlias : Reads source floor (typeAlias g) :=
  .node (.seq ⟨.word rfl, .leaf crisp_nameLength, .optional (reads_typeParameters calls),
      .markBut rfl, calls _ _, .semicolon⟩)

theorem reads_interfaceDeclaration : Reads source floor (interfaceDeclaration g) :=
  .node (.seq ⟨.word rfl, .leaf crisp_nameLength, .optional (reads_typeParameters calls),
      .optional (.seq ⟨.word rfl, .separated (calls _ _) (.mark rfl)⟩), reads_objectType calls,
      .trailingComments⟩)

theorem reads_enumDeclaration : Reads source floor (enumDeclaration g) :=
  .node (.seq ⟨.optional (.word rfl), .word rfl, .identifier, .mark rfl,
      .listUntil (.seq ⟨reads_propertyName calls, .optional (.seq ⟨.mark rfl, calls _ _⟩)⟩) rfl⟩)

theorem reads_moduleBlock : Reads source floor (moduleBlock g) :=
  .node (.seq ⟨.firstOf ⟨.word rfl, .word rfl⟩,
      .firstOf ⟨.sameLine .stringLiteral, .sameLine (.separated .identifier (.mark rfl))⟩,
      .optional (calls _ _), .optional .semicolon⟩)

theorem reads_ambientDeclaration {declaration : Parser}
    (declares : Reads source floor declaration) :
    Reads source floor (ambientDeclaration g declaration) :=
  .node (.seq ⟨.word rfl, .firstOf ⟨.seq ⟨.word rfl, calls _ _⟩, declares⟩⟩)

theorem reads_declarationBy {rounds : Nat} : Reads source floor (declarationBy g rounds) := by
  induction rounds with
  | zero => exact .fail
  | succ rounds ih =>
    intro cursor stands
    unfold declarationBy
    split
    · exact reads_functionDeclaration calls cursor stands
    · exact reads_functionDeclaration calls cursor stands
    · exact reads_classDeclaration calls cursor stands
    · exact reads_classDeclaration calls cursor stands
    · exact Reads.answers (.firstOf ⟨reads_enumDeclaration calls, reads_variableDeclaration calls⟩)
        stands
    · exact reads_variableDeclaration calls cursor stands
    · exact reads_variableDeclaration calls cursor stands
    · exact reads_enumDeclaration calls cursor stands
    · exact reads_typeAlias calls cursor stands
    · exact reads_interfaceDeclaration calls cursor stands
    · exact reads_moduleBlock calls cursor stands
    · exact reads_moduleBlock calls cursor stands
    · exact reads_ambientDeclaration calls ih cursor stands
    · exact reads_importAlias cursor stands
    · exact Reads.answers (.whenAhead (reads_classDeclaration calls)) stands

theorem reads_declaration : Reads source floor (declaration g) :=
  reads_declarationBy calls

theorem reads_ifStatement : Reads source floor (ifStatement g) :=
  .node (.seq ⟨.word rfl, reads_parenthesized calls, calls _ _,
      .optional (.node (.seq ⟨.word rfl, calls _ _⟩))⟩)

theorem reads_forStatement : Reads source floor (forStatement g) :=
  .node (.seq ⟨.word rfl, .mark rfl,
      .optional (.firstOf ⟨.node (reads_declarators calls), calls _ _⟩), .mark rfl,
      .optional (calls _ _), .mark rfl, .optional (calls _ _), .mark rfl, calls _ _⟩)

theorem reads_forEachStatement : Reads source floor (forEachStatement g) :=
  .node (.seq ⟨.word rfl, .optional (.word rfl), .mark rfl,
      .firstOf ⟨.seq ⟨reads_variableKeyword, calls _ _⟩, calls _ _⟩,
      .firstOf ⟨.word rfl, .word rfl⟩, calls _ _, .mark rfl, calls _ _⟩)

theorem reads_whileStatement : Reads source floor (whileStatement g) :=
  .node (.seq ⟨.word rfl, reads_parenthesized calls, calls _ _⟩)

theorem reads_doStatement : Reads source floor (doStatement g) :=
  .node (.seq ⟨.word rfl, calls _ _, .word rfl, reads_parenthesized calls, .optional .semicolon⟩)

theorem reads_tryStatement : Reads source floor (tryStatement g) :=
  .node (.seq ⟨.word rfl, calls _ _,
      .firstOf ⟨.seq ⟨.node (.seq ⟨.word rfl,
              .optional (.seq ⟨.mark rfl, calls _ _, .optional (reads_annotatedType calls),
                  .mark rfl⟩), calls _ _⟩), .optional (.node (.seq ⟨.word rfl, calls _ _⟩))⟩,
        .node (.seq ⟨.word rfl, calls _ _⟩)⟩⟩)

theorem reads_switchStatement : Reads source floor (switchStatement g) :=
  .node (.seq ⟨.word rfl, reads_parenthesized calls,
      .node (.seq ⟨.mark rfl,
          .many (.node (.seq ⟨.firstOf ⟨.seq ⟨.word rfl, calls _ _, .mark rfl⟩,
                  .seq ⟨.word rfl, .mark rfl⟩⟩, .many (calls _ _)⟩)), .mark rfl⟩)⟩)

theorem reads_restrictedValue : Reads source floor (restrictedValue g) := by
  intro cursor stands
  unfold restrictedValue
  split
  · exact .found (.nil stands)
  · exact Reads.answers (.optional (calls _ _)) stands

theorem reads_returnStatement : Reads source floor (returnStatement g) :=
  .node (.seq ⟨.word rfl, reads_restrictedValue calls, .semicolon⟩)

theorem reads_throwStatement : Reads source floor (throwStatement g) :=
  .node (.seq ⟨.word rfl, calls _ _, .semicolon⟩)

theorem reads_labeledStatement : Reads source floor (labeledStatement g) :=
  .node (.seq ⟨.leaf crisp_nameLength, .mark rfl, calls _ _⟩)

theorem reads_expressionStatement : Reads source floor (expressionStatement g) :=
  .node (.seq ⟨calls _ _, .semicolon⟩)

theorem reads_contextual {p : Parser} (part : Reads source floor p) :
    Reads source floor (contextual g p) :=
  .firstOf ⟨part, reads_labeledStatement calls, reads_expressionStatement calls⟩

/-! ## Imports and exports -/

theorem reads_importAttributes : Reads source floor (fromClause.importAttributes g) :=
  .optional (.sameLine (.seq ⟨.firstOf ⟨.word rfl, .word rfl⟩,
        .node (.seq ⟨.mark rfl,
            .listUntil (.seq ⟨.firstOf ⟨.anyName, .stringLiteral⟩, .mark rfl, calls _ _⟩) rfl⟩)⟩))

theorem reads_fromClause : Reads source floor (fromClause g) :=
  .seq ⟨.word rfl, .role .stringLiteral, reads_importAttributes calls⟩

theorem reads_importStatement : Reads source floor (importStatement g) :=
  .node (.seq ⟨.word rfl,
      .firstOf ⟨.seq ⟨reads_importTypeKeyword, reads_importClause, reads_fromClause calls⟩,
        .seq ⟨reads_importTypeKeyword, .identifier, .markBut rfl, .word rfl, .mark rfl,
          .stringLiteral, .mark rfl⟩, .seq ⟨.role .stringLiteral, reads_importAttributes calls⟩⟩,
      .semicolon⟩)

theorem reads_importRule : Reads source floor (importRule g) :=
  .firstOf ⟨reads_importStatement calls, reads_importAlias, reads_expressionStatement calls⟩

theorem reads_defaultValueExport : Reads source floor (defaultValueExport g) :=
  .seq ⟨.role (calls _ _), .semicolon⟩

theorem reads_defaultExport : Reads source floor (defaultExport g) :=
  .firstOf ⟨.role (reads_declaration calls), reads_defaultValueExport calls⟩

theorem reads_exportStatement : Reads source floor (exportStatement g) :=
  .node (.seq ⟨.many (reads_decorator calls), .word rfl,
      .firstOf ⟨.seq ⟨.word rfl, reads_defaultExport calls⟩,
        .seq ⟨.optional (.word rfl), reads_namespaceExport, reads_fromClause calls, .semicolon⟩,
        .seq ⟨.optional (.word rfl), reads_exportClause, .optional (reads_fromClause calls),
          .semicolon⟩, .seq ⟨.word rfl, .word rfl, .identifier, .semicolon⟩,
        .seq ⟨.markBut rfl, calls _ _, .semicolon⟩, .role (reads_declaration calls)⟩⟩)

theorem reads_decoratedStatement : Reads source floor (decoratedStatement g) :=
  .firstOf ⟨reads_exportStatement calls, reads_classDeclaration calls⟩

theorem reads_statementRule : Reads source floor (statementRule g) := by
  intro cursor stands
  have declared : Reads source floor (declaration g) := reads_declaration calls
  unfold statementRule
  split
  · exact reads_blockRule calls cursor stands
  · exact Reads.answers (.node (.mark rfl)) stands
  · exact reads_decoratedStatement calls cursor stands
  · split
    · exact reads_ifStatement calls cursor stands
    · exact Reads.answers (.firstOf ⟨reads_forEachStatement calls, reads_forStatement calls⟩) stands
    · exact reads_whileStatement calls cursor stands
    · exact reads_doStatement calls cursor stands
    · exact reads_tryStatement calls cursor stands
    · exact reads_switchStatement calls cursor stands
    · exact Reads.answers (.node (.seq ⟨.word rfl, reads_parenthesized calls, calls _ _⟩)) stands
    · exact reads_returnStatement calls cursor stands
    · exact reads_throwStatement calls cursor stands
    · exact Reads.answers (reads_jumpStatement rfl) stands
    · exact Reads.answers (reads_jumpStatement rfl) stands
    · exact Reads.answers (.node (.seq ⟨.word rfl, .semicolon⟩)) stands
    · exact reads_importRule calls cursor stands
    · exact reads_exportStatement calls cursor stands
    iterate 6 · exact declared cursor stands
    iterate 7 · exact reads_contextual calls declared cursor stands
    · exact reads_expressionStatement calls cursor stands
    · split
      · exact reads_labeledStatement calls cursor stands
      · exact reads_expressionStatement calls cursor stands

end Grammar

/-! ## Programs -/

theorem reads_parseRule {source : StyledText} {floor : Nat} {g : Grammar}
    (calls : g.CallsSit source) (rule : Rule) : Reads source floor (g.parseRule rule) := by
  cases rule with
  | statement => exact reads_statementRule calls
  | expression => exact reads_expressionRule calls
  | assignment => exact reads_assignmentRule calls
  | operators => exact reads_operatorsRule calls
  | operand => exact reads_operandRule calls
  | leftHand => exact reads_leftHandRule calls
  | type => exact reads_typeRule calls
  | bindingPattern => exact reads_bindingPatternRule calls
  | element => exact reads_elementRule calls
  | block => exact reads_blockRule calls

/-- Every rule reads nodes that sit in the source, however deep rules may call each other. By
induction on the depth; each rule is taken through once, with the rules it calls assumed. -/
theorem reads_parseWithin (source : StyledText) (floor : Nat) (markup : Bool) (calls : Nat)
    (rule : Rule) : Reads source floor (parseWithin markup calls rule) := by
  induction calls generalizing floor rule with
  | zero => exact .fail
  | succ calls ih =>
    have inner : Grammar.CallsSit source ⟨markup, calls + 1, parseWithin markup calls⟩ := ih
    exact reads_parseRule inner rule

section Programs

variable {source : StyledText} {cursor stop : Cursor} {nodes : Forest}

/-- The line that names an interpreter ends wherever a line feed comes next; comments before it sit
in the source. -/
theorem of_hashBangLine (stands : cursor.Stands source.text 0)
    (read : optional hashBangLine cursor = some (nodes, stop)) :
    (∃ before, stop.At source.text before)
      ∧ ∀ node ∈ nodes, node.Sits source ∨ node.kind = .hashBang
        ∧ Boundary (String.ofList source.text) node.span.stop := by
  unfold optional at read
  split at read
  · cases read
    exact ⟨stands.placed, by simp⟩
  · next found =>
    cases read
    have trivia := Cursor.sits_skipTrivia stands
    unfold hashBangLine leaf rawLeaf at found
    dsimp only at found
    split at found
    · cases found
    · next taken =>
      split at taken
      · cases taken
      · cases taken
        cases found
        obtain ⟨before, here⟩ := trivia.comments.stands.placed
        have there := fun n => (here.advance n).1
        refine ⟨⟨_, there _⟩, fun node member => ?_⟩
        rcases List.mem_append.mp member with comment | line
        · exact .inl (trivia.comments.sits node comment)
        · rw [List.mem_singleton.mp line]
          exact .inr ⟨rfl, boundary_iff.mpr ⟨_, _, (there _).split, (there _).offset⟩⟩

/-- The nodes of a program sit in its source, but for the line that names an interpreter. Only a
line feed ends that line, so it may stop inside a pair of line ends. -/
theorem sits_of_parse {markup : Bool} {text : String} {root : Node}
    (isSource : source.text = text.toList) (parsed : parse markup text = some root) :
    ∀ node ∈ root.children, node.Sits source ∨ node.kind = .hashBang
      ∧ Boundary (String.ofList source.text) node.span.stop := by
  have start : (Cursor.ofText text).At source.text [] := ⟨isSource, rfl⟩
  have stands : (Cursor.ofText text).Stands source.text 0 :=
    start.stands (Nat.le_refl _) (Text.not_parts_nil _)
  unfold parse programBody at parsed
  dsimp only at parsed
  split at parsed
  · cases parsed
  · next body =>
    cases parsed
    split at body
    · cases body
    · next read =>
      split at body
      · cases body
        obtain ⟨front, next, others, hashBang, statements, rfl⟩ := seq_cons_eq_some.mp read
        obtain ⟨rest, stop, none, many, ends, rfl⟩ := seq_cons_eq_some.mp statements
        cases ends
        obtain ⟨⟨before, there⟩, leads⟩ := of_hashBangLine stands hashBang
        -- the statements may be started inside a line break, so that is their floor
        have stands' : next.Stands source.text next.offset :=
          ⟨⟨before, there⟩, Nat.le_refl _, fun _ _ _ => rfl⟩
        have yields := Reads.many (reads_parseWithin _ _ _ _ _) next stands' _ _ many
        have trivia := Cursor.sits_skipTrivia yields.stands
        intro node member
        simp only [List.append_nil, List.mem_append] at member
        rcases member with (lead | statement) | comment
        · exact leads node lead
        · exact .inl (yields.sits node statement)
        · exact .inl (trivia.comments.sits node comment)
      · cases body

end Programs

end RenderProbe.Syntax
