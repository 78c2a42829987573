import Mathlib.Data.List.Basic
import RenderProbe.Proofs.Wrap.Firing

/-!
# Edited trees

What a wrap does to a module, said of trees in place of bytes. `Rewrite.edited` is the tree with the
edits applied: an exported function or class is demoted to a plain one, a wrapped value becomes the
argument of a call, and every generated snippet is the statement that it spells.

* `Aim.settled_edited`: in the edited tree nothing of the wrapped name is left to wrap, and no name
  that had nothing to wrap gets something.
* `Rewrite.editShape`: what a statement becomes by a rule, and what is known of the statement.
* `hasBinding_edited`: the edited tree imports the wrapper.
-/

namespace RenderProbe.Syntax

/-- A row of nodes with the first one in a role replaced. -/
def Forest.mapRole (role : Role) (change : Node → Node) : Forest → Forest
  | [] => []
  | node :: rest =>
    if node.role == role then change node :: rest else node :: Forest.mapRole role change rest

/-- The node with its child in a role replaced. -/
def Node.mapChild (role : Role) (change : Node → Node) (node : Node) : Node :=
  { node with children := Forest.mapRole role change node.children }

section MapChild

variable {role other : Role} {change : Node → Node} (node : Node)

@[simp] theorem Node.mapChild_kind : (node.mapChild role change).kind = node.kind := rfl

theorem Node.child?_mapChild (kept : ∀ child, (change child).role = role) :
    (node.mapChild role change).child? role = (node.child? role).map change := by
  simp only [Node.child?, Node.mapChild]
  induction node.children with
  | nil => rfl
  | cons child rest ih =>
    by_cases here : child.role = role <;> simp [Forest.mapRole, here, kept, ih]

theorem Node.child?_mapChild_of_ne (kept : ∀ child, (change child).role = role)
    (ne : other ≠ role) : (node.mapChild role change).child? other = node.child? other := by
  simp only [Node.child?, Node.mapChild]
  induction node.children with
  | nil => rfl
  | cons child rest ih =>
    by_cases here : child.role = role
    · simp [Forest.mapRole, here, kept, ne.symm]
    · by_cases found : child.role = other <;> simp [Forest.mapRole, here, found, ne, ih]

/-- A keyword stays where a child that is none is replaced by a node that is none. -/
theorem Node.hasKeyword_mapChild (keyword : String)
    (named : ∀ child, node.child? role = some child →
      child.kind ≠ .token ∧ (change child).kind ≠ .token) :
    (node.mapChild role change).hasKeyword keyword = node.hasKeyword keyword := by
  simp only [Node.child?, Node.hasKeyword, Node.mapChild] at named ⊢
  generalize node.children = children at named ⊢
  induction children with
  | nil => rfl
  | cons child rest ih =>
    by_cases here : child.role = role
    · obtain ⟨before, after⟩ := named child (by simp [here])
      simp [Forest.mapRole, here, beq_false_of_ne before, beq_false_of_ne after]
    · rw [List.find?_cons_of_neg (by simpa using here)] at named
      simp [Forest.mapRole, here, ih named]

end MapChild

end RenderProbe.Syntax

namespace RenderProbe.Wrap

open Syntax (Node Kind Role)

/-! ## Generated nodes -/

/-- A leaf of generated code. -/
def leafNode (kind : Kind) (role : Role) (lexeme : String) : Node :=
  ⟨kind, role, default, lexeme, []⟩

/-- A keyword or mark of generated code. -/
def tokenNode (lexeme : String) : Node :=
  leafNode .token .plain lexeme

/-- A generated node with children. -/
def branchNode (kind : Kind) (role : Role) (children : List Node) : Node :=
  ⟨kind, role, default, "", children⟩

/-- The import of the wrapper. -/
def importNode (style : QuoteStyle) (target : ImportTarget) : Node :=
  branchNode .importStatement .plain [tokenNode "import",
    branchNode .importClause .plain [branchNode .namedImports .plain [tokenNode "\x7b",
      branchNode .importSpecifier .plain [leafNode .identifier .name target.symbol],
      tokenNode "\x7d"]],
    tokenNode "from",
    leafNode .stringLiteral .source (Snippet.stringLiteral style target.module), tokenNode ";"]

namespace Rewrite

variable (rewrite : Rewrite)

/-- The wrapper called on an argument and the component's name, as a value. -/
def callNode (argument : Node) : Node :=
  branchNode .call .value [leafNode .identifier .callee rewrite.symbol,
    branchNode .arguments .plain [tokenNode "(", argument.withRole .plain, tokenNode ",",
      leafNode .stringLiteral .plain (Snippet.stringLiteral rewrite.style rewrite.name),
      tokenNode ")"]]

/-- The wrapper called on the component by its name. -/
def nameCall : Node :=
  rewrite.callNode (leafNode .identifier .plain rewrite.name)

/-- The default export of the wrapped name. -/
def defaultExportNode : Node :=
  branchNode .exportStatement .plain
    [tokenNode "export", tokenNode "default", rewrite.nameCall, tokenNode ";"]

/-- The named export of the wrapped name. -/
def namedExportNode : Node :=
  branchNode .exportStatement .plain [tokenNode "export",
    branchNode .variableDeclaration .declaration [tokenNode "const",
      branchNode .declarator .plain
        [leafNode .identifier .name rewrite.name, tokenNode "=", rewrite.nameCall],
      tokenNode ";"]]

/-! ## Edits -/

/-- The kind of a function or class that stands as a statement. -/
def statementKind : Kind → Kind
  | .functionExpression => .functionDeclaration
  | .classExpression => .classDeclaration
  | kind => kind

/-- An exported declaration without its export; decorators before the keyword stay. -/
def demoted (statement declaration : Node) : Node :=
  { declaration with
    kind := statementKind declaration.kind
    role := .plain
    children := statement.children.filter (·.kind == .decorator) ++ declaration.children }

/-- A declarator with its value wrapped, if it is one that is wrapped. -/
def wrapDeclarator (declarator : Node) : Node :=
  if declarator.kind == .declarator && rewrite.aim.wrapsDeclarator declarator then
    declarator.mapChild .value rewrite.callNode
  else declarator

/-- A variable declaration with the values of the name wrapped. -/
def wrapDeclarators (declaration : Node) : Node :=
  { declaration with
    role := .declaration
    children := declaration.children.map rewrite.wrapDeclarator }

/-- The statements that an export statement becomes by a rule. -/
def editBy (statement : Node) : Rule → List Node
  | .defaultDeclaration => (rewrite.aim.wrapped statement .defaultDeclaration).flatMap
      fun declaration => [demoted statement declaration, rewrite.defaultExportNode]
  | .defaultIdentifier => [statement.mapChild .value fun _ => rewrite.nameCall]
  | .namedVariable => [statement.mapChild .declaration rewrite.wrapDeclarators]
  | .namedFunction => (rewrite.aim.wrapped statement .namedFunction).flatMap
      fun declaration => [demoted statement declaration, rewrite.namedExportNode]

/-- The statements that a top-level node becomes; `signatures` says whether overload signatures are
demoted. -/
def edit (signatures : Bool) (statement : Node) : List Node :=
  match rewrite.fires? statement with
  | some rule => rewrite.editBy statement rule
  | none =>
    if signatures && exportsSignature rewrite.name statement then
      ((statement.child? .declaration).map (demoted statement)).toList
    else [statement]

/-- Whether overload signatures are demoted: a function of the name is. -/
def demotesSignatures (root : Node) : Bool :=
  (rewrite.firing root).any (·.2 == .namedFunction)

/-- The import that a module is given, unless it binds the wrapper. -/
def importNodes (imports : ImportState) (target : ImportTarget) : List Node :=
  if imports.hasBinding then [] else [importNode rewrite.style target]

/-- The tree of a module with the edits applied; the import follows the nodes that end before it. -/
def edited (root : Node) (target : ImportTarget) : Node :=
  let imports := scanImports root target.symbol
  let edit := rewrite.edit (rewrite.demotesSignatures root)
  { root with
    children := (root.children.takeWhile (·.span.stop ≤ imports.offset)).flatMap edit
      ++ rewrite.importNodes imports target
      ++ (root.children.dropWhile (·.span.stop ≤ imports.offset)).flatMap edit }

theorem mem_edited_children {root node : Node} {target : ImportTarget} :
    node ∈ (rewrite.edited root target).children ↔
      node ∈ rewrite.importNodes (scanImports root target.symbol) target ∨
        ∃ statement ∈ root.children,
          node ∈ rewrite.edit (rewrite.demotesSignatures root) statement := by
  have split := List.takeWhile_append_dropWhile
    (p := fun child : Node => decide (child.span.stop ≤ (scanImports root target.symbol).offset))
    (l := root.children)
  simp only [edited, List.mem_append, List.mem_flatMap]
  grind

/-- What is gathered from an edited module, if the import has nothing to give: what the edits of its
statements give, in their order. -/
theorem flatMap_edited {α : Type} {gather : Node → List α} (root : Node) (target : ImportTarget)
    (silent : gather (importNode rewrite.style target) = []) :
    (rewrite.edited root target).children.flatMap gather =
      root.children.flatMap fun statement =>
        (rewrite.edit (rewrite.demotesSignatures root) statement).flatMap gather := by
  have imported :
      (rewrite.importNodes (scanImports root target.symbol) target).flatMap gather = [] := by
    unfold importNodes
    split <;> simp [silent]
  rw [edited, List.flatMap_append, List.flatMap_append, imported, List.append_nil,
    List.flatMap_assoc, List.flatMap_assoc, ← List.flatMap_append,
    List.takeWhile_append_dropWhile]

end Rewrite

/-! ## Nothing is wrapped twice -/

/-- Whether something is left to wrap does not depend on layout. -/
theorem Aim.settled_outline (aim : Aim) (root : Node) :
    aim.Settled root.outline ↔ aim.Settled root := by
  have exportedIsNamed : ∀ {node : Node}, node.kind = .exportStatement →
      node.isTrivia = false ∧ node.isNamed = true := by
    intro node exported
    simp [Node.isTrivia, Node.isNamed, exported]
  simp only [Aim.Settled, Node.namedChildren, Node.outline_children, List.mem_filter,
    Node.mem_outlineAll]
  constructor
  · rintro settled statement ⟨member, -⟩ exported rule
    have none := settled statement.outline
      ⟨⟨statement, member, (exportedIsNamed exported).1, rfl⟩, by
        simpa using (exportedIsNamed exported).2⟩ (by simpa using exported) rule
    simpa [Aim.wrapped_outline] using none
  · rintro settled outlined ⟨⟨statement, member, -, rfl⟩, -⟩ exported rule
    rw [Node.outline_kind] at exported
    rw [Aim.wrapped_outline, settled statement ⟨member, (exportedIsNamed exported).2⟩ exported rule]
    rfl

section Edits

variable {rewrite : Rewrite} {aim : Aim} {statement node : Node}

/-- A generated call is a call to the wrapper, whatever its argument. -/
theorem Rewrite.isCallTo_callNode (argument : Node) :
    (rewrite.callNode argument).isCallTo rewrite.symbol = true := by
  simp [Node.isCallTo, Node.calleeName?, Rewrite.callNode, branchNode, leafNode, Node.unwrap,
    Syntax.Kind.isTransparent, Node.child?]

theorem Rewrite.callNode_kind (argument : Node) : (rewrite.callNode argument).kind = .call := rfl

theorem Rewrite.callNode_role (argument : Node) : (rewrite.callNode argument).role = .value := rfl

/-- An export statement that declares nothing and whose value is a generated call is wrapped by no
rule. -/
theorem Aim.wrapped_of_callValue {argument : Node} (undeclared : node.child? .declaration = none)
    (called : node.child? .value = some (rewrite.callNode argument)) (rule : Rule) :
    aim.wrapped node rule = [] := by
  have solid : (rewrite.callNode argument).unwrap = some (rewrite.callNode argument) :=
    Node.unwrap_of_not_transparent rfl
  cases rule <;>
    simp [Aim.wrapped, Aim.defaultDeclaration?, Aim.defaultValue?, Aim.declarators, Aim.function?,
      defaultFunctionOrClass?, undeclared, called, Option.filter_some, Aim.acceptsReference, solid,
      Rewrite.callNode_kind]

/-- A declarator whose value is a generated call is wrapped for no name. -/
theorem Aim.wrapsDeclarator_of_callValue {argument : Node} (symbol : aim.symbol = rewrite.symbol)
    (called : node.child? .value = some (rewrite.callNode argument)) :
    aim.wrapsDeclarator node = false := by
  simp [Aim.wrapsDeclarator, Aim.acceptsInitializer, called, symbol, Rewrite.isCallTo_callNode]

theorem Aim.wrapped_defaultExportNode (rule : Rule) :
    aim.wrapped rewrite.defaultExportNode rule = [] :=
  Aim.wrapped_of_callValue rfl rfl rule

/-- The keyword and the declaration leave only the third rule for a variable declaration. -/
theorem Aim.wrapped_of_variables {declaration : Node} {rule : Rule}
    (found : node.child? .declaration = some declaration)
    (isVariables : declaration.kind = .variableDeclaration) (other : rule ≠ .namedVariable) :
    aim.wrapped node rule = [] := by
  cases rule with
  | namedVariable => exact absurd rfl other
  | defaultDeclaration =>
    simp [Aim.wrapped, Aim.defaultDeclaration?, defaultFunctionOrClass?, found, isVariables,
      Declaration.isClassKind]
  | defaultIdentifier => simp [Aim.wrapped, Aim.defaultValue?, found]
  | namedFunction =>
    simp [Aim.wrapped, Aim.function?, found, Option.filter_some, Aim.acceptsFunction, isVariables]

/-- Only an export statement is still one after losing its export. -/
theorem Rewrite.kind_of_demoted {declaration : Node}
    (exported : (Rewrite.demoted statement declaration).kind = .exportStatement) :
    declaration.kind = .exportStatement := by
  simp only [Rewrite.demoted] at exported
  unfold Rewrite.statementKind at exported
  split at exported
  · cases exported
  · cases exported
  · exact exported

@[simp] theorem Rewrite.wrapDeclarator_kind : (rewrite.wrapDeclarator node).kind = node.kind := by
  unfold Rewrite.wrapDeclarator
  split <;> rfl

@[simp] theorem Rewrite.wrapDeclarators_kind : (rewrite.wrapDeclarators node).kind = node.kind :=
  rfl

theorem Rewrite.declarators_wrapDeclarators :
    (rewrite.wrapDeclarators node).declarators = node.declarators.map rewrite.wrapDeclarator := by
  by_cases isVariables : node.kind = .variableDeclaration <;>
    simp [Node.declarators, Rewrite.wrapDeclarators, isVariables,
      List.filter_map, Function.comp_def]

theorem Aim.wrapped_namedExportNode (symbol : aim.symbol = rewrite.symbol) (rule : Rule) :
    aim.wrapped rewrite.namedExportNode rule = [] := by
  by_cases isVariables : rule = .namedVariable
  · subst isVariables
    refine List.eq_nil_iff_forall_not_mem.mpr fun declarator wraps => ?_
    obtain ⟨-, declaration, found, member, accepted⟩ := Aim.mem_declarators.mp wraps
    cases found
    obtain rfl : declarator = _ := List.mem_singleton.mp member
    rw [Aim.wrapsDeclarator_of_callValue symbol rfl] at accepted
    cases accepted
  · exact Aim.wrapped_of_variables rfl rfl isVariables

/-- A declarator that is still wrapped after an edit was left alone by it. -/
theorem Aim.of_wrapsDeclarator_wrapDeclarator (symbol : aim.symbol = rewrite.symbol)
    (isDeclarator : node.kind = .declarator)
    (wraps : aim.wrapsDeclarator (rewrite.wrapDeclarator node) = true) :
    aim.wrapsDeclarator node = true ∧ rewrite.aim.wrapsDeclarator node = false := by
  cases own : rewrite.aim.wrapsDeclarator node with
  | false => simpa [Rewrite.wrapDeclarator, own] using wraps
  | true =>
    have valued := own
    simp only [Aim.wrapsDeclarator, Bool.and_eq_true, Option.any_eq_true] at valued
    obtain ⟨-, value, valued, -⟩ := valued
    have called : (rewrite.wrapDeclarator node).child? .value = some (rewrite.callNode value) := by
      rw [Rewrite.wrapDeclarator, if_pos (by simp [isDeclarator, own]),
        Node.child?_mapChild node Rewrite.callNode_role, valued, Option.map_some]
    rw [Aim.wrapsDeclarator_of_callValue symbol called] at wraps
    cases wraps

/-- Apart from variables, no rule leaves behind an export that a rule wraps. -/
theorem Aim.wrapped_of_mem_editBy {fired rule : Rule} (symbol : aim.symbol = rewrite.symbol)
    (other : fired ≠ .namedVariable) (own : rewrite.aim.wrapped statement fired ≠ [])
    (member : node ∈ rewrite.editBy statement fired) (exported : node.kind = .exportStatement) :
    aim.wrapped node rule = [] := by
  cases fired with
  | namedVariable => exact absurd rfl other
  | defaultDeclaration =>
    simp only [Rewrite.editBy, List.mem_flatMap, List.mem_cons, List.not_mem_nil,
      or_false] at member
    obtain ⟨declaration, isWrapped, rfl | rfl⟩ := member
    · obtain ⟨-, found, -⟩ := Aim.defaultDeclaration?_eq_some.mp (Option.mem_toList.mp isWrapped)
      have isExport := Rewrite.kind_of_demoted exported
      rcases of_defaultFunctionOrClass? found with ⟨-, shape⟩ | ⟨-, -, shape⟩ <;>
        simp [isExport, Declaration.isClassKind] at shape
    · exact Aim.wrapped_defaultExportNode rule
  | defaultIdentifier =>
    obtain rfl := List.mem_singleton.mp member
    obtain ⟨value, replaces⟩ := List.exists_mem_of_ne_nil _ own
    obtain ⟨-, undeclared, valued, -⟩ :=
      Aim.defaultValue?_eq_some.mp (Option.mem_toList.mp replaces)
    have role : ∀ child : Node, ((fun _ => rewrite.nameCall) child).role = .value := fun _ => rfl
    have undeclared' := Node.child?_mapChild_of_ne statement role (by decide : .declaration ≠ _)
    have called := Node.child?_mapChild statement role
    rw [undeclared] at undeclared'
    rw [valued] at called
    exact Aim.wrapped_of_callValue undeclared' called rule
  | namedFunction =>
    simp only [Rewrite.editBy, List.mem_flatMap, List.mem_cons, List.not_mem_nil,
      or_false] at member
    obtain ⟨declaration, isWrapped, rfl | rfl⟩ := member
    · obtain ⟨-, -, accepted⟩ := Aim.function?_eq_some.mp (Option.mem_toList.mp isWrapped)
      simp [Aim.acceptsFunction, Rewrite.kind_of_demoted exported] at accepted
    · exact Aim.wrapped_namedExportNode symbol rule

/-- What is wrapped in an edited variable declaration was wrapped there before, by a declarator that
the edit left alone. -/
theorem Aim.of_wrapped_variables {rule : Rule} (symbol : aim.symbol = rewrite.symbol)
    (own : rewrite.aim.wrapped statement .namedVariable ≠ [])
    (wraps : aim.wrapped (statement.mapChild .declaration rewrite.wrapDeclarators) rule ≠ []) :
    aim.wrapped statement rule ≠ [] ∧
      ∃ declarator, aim.wrapsDeclarator declarator = true
        ∧ rewrite.aim.wrapsDeclarator declarator = false := by
  obtain ⟨declarator, isWrapped⟩ := List.exists_mem_of_ne_nil _ own
  obtain ⟨keyword, declaration, found, isDeclarator, -⟩ := Aim.mem_declarators.mp isWrapped
  have changed := Node.child?_mapChild statement
    (fun child => (rfl : (rewrite.wrapDeclarators child).role = .declaration))
  rw [found] at changed
  by_cases isVariable : rule = .namedVariable
  · subst isVariable
    obtain ⟨edited, isWrapped'⟩ := List.exists_mem_of_ne_nil _ wraps
    obtain ⟨-, declaration', found', isDeclarator', accepted⟩ := Aim.mem_declarators.mp isWrapped'
    obtain rfl := Option.some.inj (changed.symm.trans found')
    rw [Rewrite.declarators_wrapDeclarators] at isDeclarator'
    obtain ⟨kept, isKept, rfl⟩ := List.mem_map.mp isDeclarator'
    obtain ⟨accepts, rejects⟩ := Aim.of_wrapsDeclarator_wrapDeclarator symbol
      (Node.kind_of_mem_declarators' isKept) accepted
    exact ⟨List.ne_nil_of_mem
      (Aim.mem_declarators.mpr ⟨keyword, declaration, found, isKept, accepts⟩),
      kept, accepts, rejects⟩
  · have isVariables : declaration.kind = .variableDeclaration :=
      Node.kind_of_mem_declarators isDeclarator
    exact absurd (Aim.wrapped_of_variables changed isVariables isVariable) wraps

/-- What is wrapped in an edited statement was wrapped there before, for another name. -/
theorem Aim.of_mem_edit {signatures : Bool} {rule : Rule}
    (criteria : aim.criteria = rewrite.criteria) (symbol : aim.symbol = rewrite.symbol)
    (member : node ∈ rewrite.edit signatures statement) (exported : node.kind = .exportStatement)
    (wraps : aim.wrapped node rule ≠ []) :
    aim.name ≠ rewrite.name ∧ statement.kind = .exportStatement
      ∧ aim.wrapped statement rule ≠ [] := by
  have same : aim.name = rewrite.name → aim = rewrite.aim := by
    intro name
    rcases aim with ⟨_, _, _⟩
    simp_all [Rewrite.aim]
  cases fires : rewrite.fires? statement with
  | none =>
    simp only [Rewrite.edit, fires] at member
    split at member
    case isTrue signature =>
      -- A demoted signature is no export statement.
      simp only [Option.mem_toList, Option.map_eq_some_iff] at member
      obtain ⟨declaration, found, rfl⟩ := member
      simp only [exportsSignature, found, Option.any_some, Bool.and_eq_true,
        beq_iff_eq] at signature
      rw [Rewrite.kind_of_demoted exported] at signature
      cases signature.2.2.1
    case isFalse =>
      obtain rfl := List.mem_singleton.mp member
      refine ⟨fun name => ?_, exported, wraps⟩
      rw [same name] at wraps
      exact wraps (Rewrite.fires?_eq_none_iff.mp fires exported rule)
  | some fired =>
    obtain ⟨isExport, own⟩ := Rewrite.fires?_eq_some_iff.mp fires
    simp only [Rewrite.edit, fires] at member
    by_cases isVariable : fired = .namedVariable
    · subst isVariable
      obtain rfl := List.mem_singleton.mp member
      obtain ⟨before, declarator, accepts, rejects⟩ := Aim.of_wrapped_variables symbol own wraps
      refine ⟨fun name => ?_, isExport, before⟩
      rw [same name, rejects] at accepts
      cases accepts
    · exact absurd (Aim.wrapped_of_mem_editBy symbol isVariable own member exported) wraps

/-- An edit leaves nothing of its own name to wrap, and makes nothing to wrap for another. -/
theorem Aim.settled_edited {root : Node} {target : ImportTarget}
    (criteria : aim.criteria = rewrite.criteria) (symbol : aim.symbol = rewrite.symbol)
    (before : aim.name = rewrite.name ∨ aim.Settled root) :
    aim.Settled (rewrite.edited root target) := by
  intro node member exported rule
  refine Classical.byContradiction fun wraps => ?_
  rcases rewrite.mem_edited_children.mp (List.mem_filter.mp member).1 with
    imported | ⟨statement, isChild, isEdit⟩
  · have isImport : node = importNode rewrite.style target := by
      unfold Rewrite.importNodes at imported
      split at imported
      · cases imported
      · exact List.mem_singleton.mp imported
    rw [isImport] at exported
    cases exported
  · obtain ⟨otherName, isExport, wraps'⟩ := Aim.of_mem_edit criteria symbol isEdit exported wraps
    have isNamed : statement ∈ root.namedChildren :=
      List.mem_filter.mpr ⟨isChild, by simp [Node.isNamed, isExport]⟩
    rcases before with name | settled
    · exact otherName name
    · exact wraps' (settled statement isNamed isExport rule)

/-! ### The shapes of edits -/

theorem of_exportsSignature {name : String} (signature : exportsSignature name statement = true) :
    statement.kind = .exportStatement ∧ statement.hasKeyword "default" = false ∧ ∃ declaration,
      statement.child? .declaration = some declaration ∧ declaration.kind = .functionSignature
        ∧ declaration.declaredName? = some name := by
  simp only [exportsSignature, Bool.and_eq_true, Bool.not_eq_true', beq_iff_eq,
    Option.any_eq_true] at signature
  exact ⟨signature.1.1, signature.1.2, signature.2⟩

theorem unlike_of_defaultFunctionOrClass? (found : defaultFunctionOrClass? statement = some node) :
    node.kind ≠ .exportStatement ∧ node.kind ≠ .variableDeclaration
      ∧ node.kind ≠ .importStatement := by
  rcases kind_of_defaultFunctionOrClass? found with same | same | isClass
  · simp [same]
  · simp [same]
  · revert isClass
    cases node.kind <;> simp [Declaration.isClassKind]

/-- What a statement becomes by a rule that wraps something in it, with what is known of the
statement. -/
inductive Rewrite.EditShape (rewrite : Rewrite) (statement : Node) : Rule → List Node → Prop where
  /-- A default function or class of the name is demoted. -/
  | defaultDeclaration {declaration : Node} (keyword : statement.hasKeyword "default" = true)
      (found : defaultFunctionOrClass? statement = some declaration)
      (accepted : rewrite.aim.acceptsDefault declaration = true) :
      EditShape rewrite statement .defaultDeclaration
        [Rewrite.demoted statement declaration, rewrite.defaultExportNode]
  /-- A reference to the name is replaced by a call. -/
  | defaultIdentifier {value reference edited : Node}
      (keyword : statement.hasKeyword "default" = true)
      (undeclared : statement.child? .declaration = none)
      (valued : statement.child? .value = some value) (unwrapped : value.unwrap = some reference)
      (isName : reference.kind = .identifier ∧ reference.lexeme = rewrite.name)
      (kind : edited.kind = statement.kind)
      (keywords : ∀ keyword, edited.hasKeyword keyword = statement.hasKeyword keyword)
      (others : ∀ role, role ≠ .value → edited.child? role = statement.child? role)
      (called : edited.child? .value = some rewrite.nameCall) :
      EditShape rewrite statement .defaultIdentifier [edited]
  /-- The values of variables of the name are wrapped. -/
  | namedVariable {declaration edited : Node} (keyword : statement.hasKeyword "default" = false)
      (found : statement.child? .declaration = some declaration)
      (isVariables : declaration.kind = .variableDeclaration)
      (kind : edited.kind = statement.kind)
      (keywords : ∀ keyword, edited.hasKeyword keyword = statement.hasKeyword keyword)
      (others : ∀ role, role ≠ .declaration → edited.child? role = statement.child? role)
      (changed : edited.child? .declaration = some (rewrite.wrapDeclarators declaration)) :
      EditShape rewrite statement .namedVariable [edited]
  /-- A function of the name is demoted. -/
  | namedFunction {declaration : Node} (keyword : statement.hasKeyword "default" = false)
      (found : statement.child? .declaration = some declaration)
      (accepted : rewrite.aim.acceptsFunction declaration = true) :
      EditShape rewrite statement .namedFunction
        [Rewrite.demoted statement declaration, rewrite.namedExportNode]

theorem Rewrite.editShape {rule : Rule} (wraps : rewrite.aim.wrapped statement rule ≠ []) :
    rewrite.EditShape statement rule (rewrite.editBy statement rule) := by
  obtain ⟨node, wraps⟩ := List.exists_mem_of_ne_nil _ wraps
  cases rule with
  | defaultDeclaration =>
    have wraps := Option.mem_toList.mp wraps
    obtain ⟨keyword, found, accepted⟩ := Aim.defaultDeclaration?_eq_some.mp wraps
    simpa [Rewrite.editBy, Aim.wrapped, wraps] using EditShape.defaultDeclaration keyword found
      accepted
  | defaultIdentifier =>
    obtain ⟨keyword, undeclared, valued, accepted⟩ :=
      Aim.defaultValue?_eq_some.mp (Option.mem_toList.mp wraps)
    simp only [Aim.acceptsReference, Bool.and_eq_true, Option.any_eq_true, beq_iff_eq] at accepted
    obtain ⟨⟨reference, unwrapped, isName⟩, -⟩ := accepted
    have role : ∀ child : Node, ((fun _ => rewrite.nameCall) child).role = .value := fun _ => rfl
    have named : node.kind ≠ .token := by
      intro token
      rw [Node.unwrap_of_not_transparent (by rw [token]; rfl), Option.some.injEq] at unwrapped
      simp [← unwrapped, token] at isName
    refine .defaultIdentifier keyword undeclared valued unwrapped isName rfl (fun keyword => ?_)
      (fun other ne => Node.child?_mapChild_of_ne statement role ne) ?_
    · refine Node.hasKeyword_mapChild statement keyword fun child found => ?_
      obtain rfl := Option.some.inj (valued.symm.trans found)
      exact ⟨named, by simp [Rewrite.nameCall, Rewrite.callNode_kind]⟩
    · rw [Node.child?_mapChild statement role, valued, Option.map_some]
  | namedVariable =>
    obtain ⟨keyword, declaration, found, member, -⟩ := Aim.mem_declarators.mp wraps
    have isVariables := Node.kind_of_mem_declarators member
    have role : ∀ child, (rewrite.wrapDeclarators child).role = .declaration := fun _ => rfl
    refine .namedVariable keyword found isVariables rfl (fun keyword => ?_)
      (fun other ne => Node.child?_mapChild_of_ne statement role ne) ?_
    · refine Node.hasKeyword_mapChild statement keyword fun child found' => ?_
      obtain rfl := Option.some.inj (found.symm.trans found')
      simp [isVariables]
    · rw [Node.child?_mapChild statement role, found, Option.map_some]
  | namedFunction =>
    have wraps := Option.mem_toList.mp wraps
    obtain ⟨keyword, found, accepted⟩ := Aim.function?_eq_some.mp wraps
    simpa [Rewrite.editBy, Aim.wrapped, wraps] using EditShape.namedFunction keyword found accepted

end Edits

/-! ## The import of the wrapper -/

section Imports

variable (node : Node) (symbol : String)

theorem specifierBinding?_outline :
    specifierBinding? node.outline = specifierBinding? node := by
  rw [specifierBinding?, Node.child?_outline node (by decide), Node.child?_outline node (by decide)]
  cases renamed : node.child? .alias <;> cases name : node.child? .name <;>
    simp [specifierBinding?, renamed, name]

theorem itemBindings_outline : itemBindings node.outline = itemBindings node := by
  have names := (Node.outlined_kind (by decide : Kind.identifier ≠ .comment)).filter node.children
  have specifiers : node.outline.namedChildren.filterMap specifierBinding? =
      node.namedChildren.filterMap specifierBinding? := by
    simp only [List.filterMap_eq_flatMap_toList]
    exact Node.namedChildren_flatMap_outline node
      (fun child => by rw [specifierBinding?_outline])
      (fun child comment => by simp [specifierBinding?, comment])
  unfold itemBindings
  rw [Node.outline_kind, Node.outline_lexeme, Node.outline_children, names, specifiers]
  cases node.kind <;> simp [Function.comp_def]

theorem importedBindings_outline : importedBindings node.outline = importedBindings node := by
  have clauses := Node.namedChildren_filter_outline node
    (Node.outlined_kind (by decide : Kind.importClause ≠ .comment))
  rw [importedBindings, clauses, List.flatMap_map, importedBindings]
  congr 1
  funext clause
  exact Node.namedChildren_flatMap_outline clause itemBindings_outline
    (fun child comment => by simp [itemBindings, comment])

theorem bindsValue_outline : bindsValue symbol node.outline = bindsValue symbol node := by
  simp [bindsValue, importedBindings_outline]

theorem scanImports_hasBinding :
    (scanImports node symbol).hasBinding = node.children.any (bindsValue symbol) := by
  have imported : (scanImports node symbol).hasBinding =
      node.namedChildren.any (bindsValue symbol) := by
    unfold scanImports
    split <;> rfl
  rw [imported, Node.namedChildren, List.any_filter]
  congr 1
  funext child
  by_cases isImport : child.kind = .importStatement <;>
    simp [bindsValue, Node.isNamed, isImport]

/-- Whether a module binds the wrapper does not depend on layout. -/
theorem hasBinding_outline :
    (scanImports node.outline symbol).hasBinding = (scanImports node symbol).hasBinding := by
  have outlined : Node.Outlined (bindsValue symbol) :=
    ⟨fun child => bindsValue_outline child symbol,
      fun child trivia => by simp [bindsValue, Node.kind_of_isTrivia trivia]⟩
  rw [scanImports_hasBinding, scanImports_hasBinding, Node.outline_children, outlined.any]

theorem bindsValue_importNode (style : QuoteStyle) (target : ImportTarget) :
    bindsValue target.symbol (importNode style target) = true := by
  have bindings : importedBindings (importNode style target) = [target.symbol] := rfl
  have untyped : (importNode style target).hasKeyword "type" = false := rfl
  have isImport : (importNode style target).kind = .importStatement := rfl
  simp [bindsValue, bindings, untyped, isImport]

end Imports

/-- No rule changes an import. -/
theorem Rewrite.edit_import {rewrite : Rewrite} {signatures : Bool} {statement : Node}
    (isImport : statement.kind = .importStatement) :
    rewrite.edit signatures statement = [statement] := by
  simp [Rewrite.edit, Rewrite.fires?, exportsSignature, isImport]

/-- An edited module binds the wrapper. -/
theorem hasBinding_edited (rewrite : Rewrite) (root : Node) (target : ImportTarget) :
    (scanImports (rewrite.edited root target) target.symbol).hasBinding = true := by
  rw [scanImports_hasBinding, List.any_eq_true]
  cases bound : (scanImports root target.symbol).hasBinding with
  | false =>
    refine ⟨importNode rewrite.style target, ?_, bindsValue_importNode rewrite.style target⟩
    exact rewrite.mem_edited_children.mpr (.inl (by simp [Rewrite.importNodes, bound]))
  | true =>
    rw [scanImports_hasBinding, List.any_eq_true] at bound
    obtain ⟨statement, member, binds⟩ := bound
    have isImport : statement.kind = .importStatement := by
      simp only [bindsValue, Bool.and_eq_true, beq_iff_eq] at binds
      exact binds.1.1
    refine ⟨statement, rewrite.mem_edited_children.mpr (.inr ⟨statement, member, ?_⟩), binds⟩
    rw [Rewrite.edit_import isImport]
    exact List.mem_singleton.mpr rfl

end RenderProbe.Wrap
