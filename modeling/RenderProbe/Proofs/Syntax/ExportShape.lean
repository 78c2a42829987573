import RenderProbe.Proofs.Syntax.SingleNode

/-!
# The shape of export statements

What a parsed export statement can look like. A statement that exports types alone has neither a
declaration nor a value, a declared variable has a plain name or a pattern without a lexeme, a value
is no declaration, and the statement itself has no name.

* `exportShape_of_parse`: the shape of every export statement of a parsed source.
-/

namespace RenderProbe.Syntax

/-! ## Declarations -/

/-- The name of a declared variable is a plain name or has no lexeme. -/
def Node.NamedPlainly (node : Node) : Prop :=
  ∀ name, node.child? .name = some name → name.kind = .identifier ∨ name.lexeme = ""

/-- The variables of a declaration have plain names or patterns, which have no lexeme. -/
def Node.DeclaresPlainly (node : Node) : Prop :=
  ∀ declarator ∈ node.declarators, declarator.NamedPlainly

/-- A declaration of plain names, or a comment beside it. -/
def Node.IsDeclaration (node : Node) : Prop :=
  node.DeclaresPlainly ∧ node.role = .plain
    ∧ (node.kind = .comment ∨ node.kind ∈ declarationKinds)

theorem Node.DeclaresPlainly.of_kind {node : Node} (other : node.kind ≠ .variableDeclaration) :
    node.DeclaresPlainly := by
  intro declarator member
  exact absurd (Node.kind_of_mem_declarators member) other

theorem Node.IsDeclaration.of_isTrivia : SparesTrivia Node.IsDeclaration := by
  intro node isComment
  have comment := Node.kind_of_isTrivia isComment
  exact ⟨.of_kind (by simp [comment]), Node.role_of_isTrivia isComment, .inl comment⟩

section Declarations

variable {g : Grammar} {p : Parser}

/-- A node of another kind than that of variables is a declaration by its kind. -/
theorem ensures_isDeclaration {kindOf : Forest → Kind}
    (kinds : ∀ nodes, kindOf nodes ∈ declarationKinds ∧ kindOf nodes ≠ .variableDeclaration) :
    Ensures Node.IsDeclaration (nodeBy kindOf p) :=
  Ensures.nodeBy Node.IsDeclaration.of_isTrivia fun _ children _ _ _ =>
    ⟨.of_kind (kinds children).2, rfl, .inr (kinds children).1⟩

/-- What a pattern is: a name, or a node without lexeme. -/
def Node.IsPattern (node : Node) : Prop :=
  node.kind = .comment ∨ node.kind = .identifier ∨ node.lexeme = ""

theorem ensures_bindingPatternRule : Ensures Node.IsPattern (bindingPatternRule g) := by
  have trivia : SparesTrivia Node.IsPattern :=
    fun node isComment => .inl (Node.kind_of_isTrivia isComment)
  intro cursor nodes stop read
  unfold bindingPatternRule at read
  split at read
  · exact Ensures.nodeBy trivia (fun _ _ _ _ _ => .inr (.inr rfl)) read
  · exact Ensures.nodeBy trivia (fun _ _ _ _ _ => .inr (.inr rfl)) read
  · exact Ensures.leaf trivia (fun _ _ _ => .inr (.inl rfl)) read

/-- What rules may rely on when they call others. It holds of the rules of every depth, as each is
sound if the ones it calls are. -/
structure Grammar.Sound (g : Grammar) : Prop where
  single : g.CallsSingle
  pattern : Ensures Node.IsPattern (g.call .bindingPattern)

theorem Node.NamedPlainly.of_children {node : Node} (leaf : node.children = []) :
    node.NamedPlainly := by
  intro name named
  simp [Node.child?, leaf] at named

theorem Node.NamedPlainly.of_isTrivia : SparesTrivia Node.NamedPlainly :=
  fun _ isComment => .of_children (Node.children_of_isTrivia isComment)

theorem ensures_declarator (sound : g.Sound) (allowIn : Bool) :
    Ensures Node.NamedPlainly (declarator g allowIn) := by
  have trivia : SparesTrivia fun node =>
      node.role = .name → node.kind = .identifier ∨ node.lexeme = "" :=
    fun node isComment named => absurd named (by simp [Node.role_of_isTrivia isComment])
  have part : Ensures (fun node => node.role = .name → node.kind = .identifier ∨ node.lexeme = "")
      (seq [role .name (g.call .bindingPattern), optional (markBut "!" ['=']),
        optional (annotatedType g),
        optional
          (seq [markBut "=" ['=', '>'], role .value (g.call (.assignment allowIn true))])]) := by
    have equals : ∀ text following, Ensures (fun node : Node =>
        node.role = .name → node.kind = .identifier ∨ node.lexeme = "") (markBut text following) :=
      fun _ _ => Ensures.leaf trivia fun _ _ _ => by simp
    refine .andThen ?_ (.andThen (equals _ _).optional (.andThen (Ensures.optional ?_)
      (.andThen (Ensures.optional (.andThen (equals _ _) (.andThen ?_ .done))) .done)))
    · refine (sound.single .bindingPattern rfl).role sound.pattern trivia ?_
      rintro node (comment | named) solid -
      · simp [comment, Kind.isSolid] at solid
      · exact named
    · exact Ensures.nodeBy trivia fun _ _ _ _ _ => by simp
    · exact (sound.single (.assignment allowIn true) rfl).role
        (sound.single (.assignment allowIn true) rfl).ensures trivia fun node _ _ => by
          simp [Node.withRole]
  refine Ensures.nodeBy Node.NamedPlainly.of_isTrivia ?_
  intro cursor children stop read span name named
  exact part read name (List.mem_of_find?_eq_some named) (by simpa using List.find?_some named)

/-- The declared variables, and the keywords and marks around them. -/
theorem ensures_variables (sound : g.Sound) (allowIn afterExpression : Bool) :
    Ensures Node.NamedPlainly (seq [declarators g allowIn, semicolon afterExpression]) := by
  have keyword : ∀ text, Ensures Node.NamedPlainly (word text) := fun _ =>
    Ensures.word .of_isTrivia fun _ => .of_children rfl
  have mark : ∀ text, Ensures Node.NamedPlainly (mark text) := fun _ =>
    Ensures.mark .of_isTrivia fun _ => .of_children rfl
  have ofVariables := ensures_declarator sound allowIn
  have all : Ensures Node.NamedPlainly (declarators g allowIn) :=
    .andThen (.orElse (keyword _) (.orElse (keyword _) (.orElse (keyword _) .fail)))
      (.andThen (.andThen ofVariables (.andThen
        (Ensures.many (.andThen (mark _) (.andThen ofVariables .done)) _) .done)) .done)
  exact .andThen all (.andThen (Ensures.semicolon .of_isTrivia (mark _) _) .done)

theorem ensures_variableDeclaration (sound : g.Sound) :
    Ensures Node.IsDeclaration (variableDeclaration g) := by
  refine Ensures.nodeBy Node.IsDeclaration.of_isTrivia fun cursor children stop read span => ?_
  refine ⟨fun declarator member => ?_, rfl, .inr (by simp [declarationKinds])⟩
  have inside : declarator ∈ children := by
    simp only [Node.declarators, beq_self_eq_true, if_true] at member
    exact (List.mem_filter.mp member).1
  exact ensures_variables sound true true read declarator inside

/-- Whatever its first word is, a declaration is one of the kinds above. -/
theorem ensures_declaration (sound : g.Sound) : Ensures Node.IsDeclaration (declaration g) := by
  have statement : ∀ p, Ensures Node.IsDeclaration (statementNode p) :=
    fun _ => ensures_isDeclaration fun _ => by decide
  have function : Ensures Node.IsDeclaration (functionDeclaration g) :=
    ensures_isDeclaration fun nodes => by
      unfold functionDeclarationKind
      split
      · decide
      · split <;> decide
  have classes : Ensures Node.IsDeclaration (classDeclaration g) :=
    ensures_isDeclaration fun nodes => by split <;> decide
  have ofVariables := ensures_variableDeclaration sound
  have byWord : ∀ rounds, Ensures Node.IsDeclaration (declarationBy g rounds) := by
    intro rounds cursor nodes stop read
    cases rounds with
    | zero => cases read
    | succ rounds =>
      simp only [declarationBy] at read
      split at read
      · exact function read
      · exact function read
      · exact classes read
      · exact classes read
      · exact ((statement _).orElse (ofVariables.orElse .fail)) read
      · exact ofVariables read
      · exact ofVariables read
      · exact statement _ read
      · exact statement _ read
      · exact statement _ read
      · exact statement _ read
      · exact statement _ read
      · exact statement _ read
      · exact statement _ read
      · exact classes.whenAhead _ read
  exact byWord g.rounds

end Declarations

/-! ## Exports -/

/-- What an export statement looks like, as far as wraps depend on it. What is proved of edits takes
this shape, and not the grammar. -/
structure ExportShape (statement : Node) : Prop where
  /-- An export of types has no declaration and no value. -/
  typed : statement.hasKeyword "type" = true →
    statement.child? .declaration = none ∧ statement.child? .value = none
  /-- The variables of an exported declaration have plain names or patterns. -/
  named : ∀ declaration, statement.child? .declaration = some declaration →
    declaration.DeclaresPlainly
  /-- An exported value is no declaration. -/
  valued : ∀ value, statement.child? .value = some value → value.kind ∉ declarationKinds
  /-- Nothing that stands directly in the statement is its name. -/
  unnamed : ∀ child ∈ statement.children, child.role ≠ .name

/-- A node that looks like an export statement if it is one. -/
def Node.ShapedIfExport (node : Node) : Prop :=
  node.kind = .exportStatement → ExportShape node

/-- A part of a statement that declares or evaluates what it exports. -/
structure Node.IsDeclaringPart (node : Node) : Prop where
  untyped : ¬(node.kind = .token ∧ node.lexeme = "type")
  declares : node.role = .declaration → node.DeclaresPlainly
  valued : node.role = .value → node.kind ∉ declarationKinds
  unnamed : node.role ≠ .name

/-- A part of a statement that lists what it exports. -/
structure Node.IsListingPart (node : Node) : Prop where
  undeclared : node.role ≠ .declaration
  unvalued : node.role ≠ .value
  unnamed : node.role ≠ .name

theorem ExportShape.of_declaring {statement : Node}
    (parts : ∀ child ∈ statement.children, child.IsDeclaringPart) : ExportShape statement where
  typed typed := by
    simp only [Node.hasKeyword, List.any_eq_true, Bool.and_eq_true, beq_iff_eq] at typed
    obtain ⟨child, member, isType⟩ := typed
    exact absurd isType (parts child member).untyped
  named declaration found :=
    (parts declaration (List.mem_of_find?_eq_some found)).declares
      (by simpa using List.find?_some found)
  valued value found :=
    (parts value (List.mem_of_find?_eq_some found)).valued (by simpa using List.find?_some found)
  unnamed child member := (parts child member).unnamed

theorem ExportShape.of_listing {statement : Node}
    (parts : ∀ child ∈ statement.children, child.IsListingPart) : ExportShape statement := by
  have undeclared : statement.child? .declaration = none :=
    List.find?_eq_none.mpr fun child member => by simpa using (parts child member).undeclared
  have unvalued : statement.child? .value = none :=
    List.find?_eq_none.mpr fun child member => by simpa using (parts child member).unvalued
  exact {
    typed := fun _ => ⟨undeclared, unvalued⟩
    named := by simp [undeclared]
    valued := by simp [unvalued]
    unnamed := fun child member => (parts child member).unnamed }

theorem ExportShape.untyped_of_declaration {statement declaration : Node}
    (shape : ExportShape statement) (found : statement.child? .declaration = some declaration) :
    statement.hasKeyword "type" = false := by
  rw [Bool.eq_false_iff]
  intro typed
  simp [(shape.typed typed).1] at found

theorem ExportShape.untyped_of_value {statement value : Node} (shape : ExportShape statement)
    (found : statement.child? .value = some value) : statement.hasKeyword "type" = false := by
  rw [Bool.eq_false_iff]
  intro typed
  simp [(shape.typed typed).2] at found

section Exports

variable {g : Grammar} {p : Parser}

theorem Node.ShapedIfExport.of_isTrivia : SparesTrivia Node.ShapedIfExport := by
  intro node isComment exported
  simp [Node.kind_of_isTrivia isComment] at exported

theorem ensures_shaped {kindOf : Forest → Kind}
    (others : ∀ nodes, kindOf nodes ≠ .exportStatement) :
    Ensures Node.ShapedIfExport (nodeBy kindOf p) :=
  Ensures.nodeBy .of_isTrivia fun _ children _ _ _ exported => absurd exported (others children)

theorem Node.IsDeclaringPart.of_isTrivia : SparesTrivia Node.IsDeclaringPart := by
  intro node isComment
  have comment := Node.kind_of_isTrivia isComment
  have plain := Node.role_of_isTrivia isComment
  constructor <;> simp [comment, plain]

theorem Node.IsListingPart.of_role {node : Node} (plain : node.role = .plain) :
    node.IsListingPart := by
  constructor <;> simp [plain]

theorem Node.IsListingPart.of_isTrivia : SparesTrivia Node.IsListingPart :=
  fun _ isComment => .of_role (Node.role_of_isTrivia isComment)

theorem ensures_declaring_word {keyword : String} (other : keyword ≠ "type") :
    Ensures Node.IsDeclaringPart (word keyword) :=
  Ensures.word .of_isTrivia fun _ => ⟨fun isType => other isType.2, by simp, by simp, by simp⟩

theorem ensures_declaring_semicolon (afterExpression : Bool) :
    Ensures Node.IsDeclaringPart (semicolon afterExpression) :=
  Ensures.semicolon .of_isTrivia
    (Ensures.mark .of_isTrivia fun _ => by constructor <;> simp) _

theorem ensures_declaring_declaration (sound : g.Sound) :
    Ensures Node.IsDeclaringPart (role .declaration (declaration g)) := by
  refine (ensures_declaration sound).role fun node isDeclaration => ?_
  have untyped : ¬(node.kind = .token ∧ node.lexeme = "type") := by
    rintro ⟨token, -⟩
    simpa [token, declarationKinds] using isDeclaration.2.2
  have before : node.IsDeclaringPart :=
    ⟨untyped, fun _ => isDeclaration.1, by simp [isDeclaration.2.1], by simp [isDeclaration.2.1]⟩
  exact ⟨before, untyped,
    fun _ => isDeclaration.1, by simp [Node.withRole], by simp [Node.withRole]⟩

theorem ensures_declaring_value (sound : g.Sound) :
    Ensures Node.IsDeclaringPart (role .value (g.call (.assignment true true))) := by
  refine (sound.single (.assignment true true) rfl).ensures.role fun node solid => ?_
  have untyped : ¬(node.kind = .token ∧ node.lexeme = "type") := fun isType => solid.1 isType.1
  have before : node.IsDeclaringPart :=
    ⟨untyped, by simp [solid.2.2], fun _ => solid.2.1, by simp [solid.2.2]⟩
  exact ⟨before, untyped, by simp [Node.withRole], fun _ => solid.2.1, by simp [Node.withRole]⟩

theorem ensures_listing_leaf {kind : Kind} {scan : List Char → Nat} :
    Ensures Node.IsListingPart (leaf kind scan) :=
  Ensures.leaf .of_isTrivia fun _ _ _ => .of_role rfl

theorem ensures_listing_node {kindOf : Forest → Kind} :
    Ensures Node.IsListingPart (nodeBy kindOf p) :=
  Ensures.nodeBy .of_isTrivia fun _ _ _ _ _ => .of_role rfl

theorem ensures_listing_semicolon (afterExpression : Bool) :
    Ensures Node.IsListingPart (semicolon afterExpression) :=
  Ensures.semicolon .of_isTrivia ensures_listing_leaf _

theorem ensures_listing_fromClause : Ensures Node.IsListingPart (fromClause g) := by
  have source : Ensures Node.IsListingPart (role .source stringLiteral) := by
    refine Single.role (Single.leaf rfl) (Single.leaf rfl : Single stringLiteral).ensures
      .of_isTrivia fun node _ _ => ?_
    constructor <;> simp [Node.withRole]
  have attributes : Ensures Node.IsListingPart (fromClause.importAttributes g) :=
    .optional
      (.sameLine (.andThen (.orElse ensures_listing_leaf (.orElse ensures_listing_leaf .fail))
        (.andThen ensures_listing_node .done)))
  exact .andThen ensures_listing_leaf (.andThen source (.andThen attributes .done))

/-- What follows the keyword of an export statement declares and evaluates, or else it lists. -/
def exportAlternatives (g : Grammar) : List Parser :=
  [seq [word "default", defaultExport g],
   seq [optional (word "type"), namespaceExport, fromClause g, semicolon false],
   seq [optional (word "type"), exportClause g, optional (fromClause g), semicolon false],
   seq [word "as", word "namespace", identifier, semicolon false],
   seq [markBut "=" ['=', '>'], g.call (.expression true), semicolon true],
   role .declaration (declaration g)]

theorem ensures_alternative (sound : g.Sound) (alternative : p ∈ exportAlternatives g) :
    Ensures Node.IsDeclaringPart p ∨ Ensures Node.IsListingPart p := by
  have leaf := @ensures_listing_leaf
  have semicolon := ensures_listing_semicolon
  have source : Ensures Node.IsListingPart (fromClause g) := ensures_listing_fromClause
  have declaring := ensures_declaring_declaration sound
  simp only [exportAlternatives, List.mem_cons, List.not_mem_nil, or_false] at alternative
  rcases alternative with rfl | rfl | rfl | rfl | rfl | rfl
  · have value : Ensures Node.IsDeclaringPart (defaultValueExport g) :=
      .andThen (ensures_declaring_value sound) (.andThen (ensures_declaring_semicolon _) .done)
    exact .inl (.andThen (ensures_declaring_word (by decide))
      (.andThen (.orElse declaring (.orElse value .fail)) .done))
  · have namespaces : Ensures Node.IsListingPart namespaceExport :=
      .andThen leaf (.andThen (.optional (.andThen leaf
        (.andThen (.orElse leaf (.orElse leaf .fail)) .done))) .done)
    exact .inr (.andThen (.optional leaf) (.andThen namespaces
      (.andThen source (.andThen (semicolon _) .done))))
  · exact .inr (.andThen (.optional leaf) (.andThen ensures_listing_node
      (.andThen (.optional source) (.andThen (semicolon _) .done))))
  · exact .inr (.andThen leaf (.andThen leaf (.andThen leaf (.andThen (semicolon _) .done))))
  · have value : Ensures Node.IsListingPart (g.call (.expression true)) :=
      (sound.single (.expression true) rfl).ensures.mono fun _ solid => .of_role solid.2.2
    exact .inr (.andThen leaf (.andThen value (.andThen (semicolon _) .done)))
  · exact .inl declaring

theorem ensures_exportStatement (sound : g.Sound) :
    Ensures Node.ShapedIfExport (exportStatement g) := by
  refine Ensures.nodeBy .of_isTrivia ?_
  intro cursor children stop read span _
  obtain ⟨p, alternative, read⟩ : ∃ p ∈ exportAlternatives g,
      seq [many g.rounds (decorator g), word "export", p] cursor = some (children, stop) :=
    of_seq_firstOf [many g.rounds (decorator g), word "export"] read
  rcases ensures_alternative sound alternative with declaring | listing
  · have decorator : Ensures Node.IsDeclaringPart (decorator g) :=
      Ensures.nodeBy .of_isTrivia fun _ _ _ _ _ => by constructor <;> simp
    exact .of_declaring (Ensures.andThen (decorator.many _)
      (.andThen (ensures_declaring_word (by decide)) (.andThen declaring .done)) read)
  · have decorator : Ensures Node.IsListingPart (decorator g) := ensures_listing_node
    exact .of_listing (Ensures.andThen (decorator.many _)
      (.andThen ensures_listing_leaf (.andThen listing .done)) read)

/-- Every statement that is an export has the shape of one. This is the one place where all rules of
statements are gone through for it. -/
theorem ensures_statementRule (sound : g.Sound) :
    Ensures Node.ShapedIfExport (statementRule g) := by
  have exports := ensures_exportStatement sound
  have statement : ∀ p, Ensures _ (statementNode p) := fun _ => ensures_shaped (by simp)
  have expression : Ensures _ (expressionStatement g) := ensures_shaped (by simp)
  have labeled : Ensures _ (labeledStatement g) := statement _
  have declares : Ensures Node.ShapedIfExport (declaration g) :=
    (ensures_declaration sound).mono fun node isDeclaration exported => by
      simpa [exported, declarationKinds] using isDeclaration.2.2
  have contextual : Ensures Node.ShapedIfExport (contextual g (declaration g)) :=
    declares.orElse (labeled.orElse (expression.orElse .fail))
  have classes : Ensures _ (classDeclaration g) :=
    ensures_shaped fun nodes => by split <;> simp
  have imports : Ensures _ (importStatement g) := ensures_shaped (by simp)
  intro cursor nodes stop read
  unfold statementRule at read
  split at read
  · exact ensures_shaped (by simp) read
  · exact statement _ read
  · exact (exports.orElse (classes.orElse .fail)) read
  · split at read
    · exact statement _ read
    · exact ((statement _).orElse ((statement _).orElse .fail)) read
    · exact statement _ read
    · exact statement _ read
    · exact statement _ read
    · exact statement _ read
    · exact statement _ read
    · exact ensures_shaped (by simp) read
    · exact statement _ read
    · exact statement _ read
    · exact statement _ read
    · exact statement _ read
    · exact (imports.orElse ((statement _).orElse (expression.orElse .fail))) read
    · exact exports read
    · exact declares read
    · exact declares read
    · exact declares read
    · exact declares read
    · exact declares read
    · exact declares read
    · exact contextual read
    · exact contextual read
    · exact contextual read
    · exact contextual read
    · exact contextual read
    · exact contextual read
    · exact contextual read
    · exact expression read
    · split at read
      · exact labeled read
      · exact expression read

end Exports

/-! ## Whole sources -/

theorem sound_parseWithin (markup : Bool) (calls : Nat) :
    Grammar.Sound ⟨markup, calls + 1, parseWithin markup calls⟩ := by
  refine ⟨fun rule => single_parseWithin markup calls rule, ?_⟩
  cases calls with
  | zero =>
    intro cursor nodes stop read
    cases read
  | succ calls => exact ensures_bindingPatternRule

theorem exportShape_of_parse {markup : Bool} {text : String} {root statement : Node}
    (parsed : parse markup text = some root) (member : statement ∈ root.children)
    (exported : statement.kind = .exportStatement) : ExportShape statement := by
  have statements : ∀ calls, Ensures Node.ShapedIfExport (parseWithin markup calls .statement) := by
    intro calls
    cases calls with
    | zero =>
      intro cursor nodes stop read
      cases read
    | succ calls => exact ensures_statementRule (sound_parseWithin markup calls)
  have all : ∀ calls, Ensures Node.ShapedIfExport
      (seq [optional hashBangLine, many calls (parseWithin markup calls .statement)]) :=
        fun calls =>
    .andThen (.optional (.leaf .of_isTrivia fun _ _ _ exported => by simp at exported))
      (.andThen ((statements calls).many calls) .done)
  unfold parse programBody at parsed
  dsimp only at parsed
  split at parsed
  · cases parsed
  · next body =>
    cases parsed
    split at body
    · cases body
    · next read =>
      split at body
      · cases body
        rcases List.mem_append.mp member with inside | comment
        · exact all _ read statement inside exported
        · exact Node.ShapedIfExport.of_isTrivia statement
            ((Cursor.skipTrivia_sound _).1 statement comment) exported
      · cases body

end RenderProbe.Syntax
