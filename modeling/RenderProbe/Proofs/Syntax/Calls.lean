import RenderProbe.Component.Declaration
import RenderProbe.Proofs.Syntax.Outline

/-!
# Calls to a name

The calls to a name in a tree, the plain names that it is called on, and the names that a top-level
statement binds to such a call.

* `Node.calls_eq_nil_iff`: a tree has no call exactly if the node is none and no child has one.
* `Node.calledOn_outline` and `Node.boundToCalls_outline`: layout plays no part.
* `Node.boundToCalls_of_silent`: what has no call in it binds no name to one.
-/

namespace RenderProbe.Syntax.Node

mutual

/-- The calls to a name in a tree, from the outside in. -/
def calls (symbol : String) : Node → List Node
  | ⟨kind, role, span, lexeme, children⟩ =>
    (if calleeName? ⟨kind, role, span, lexeme, children⟩ == some symbol then
      [⟨kind, role, span, lexeme, children⟩] else []) ++ callsAmong symbol children

/-- The calls to a name in a row of trees. -/
def callsAmong (symbol : String) : List Node → List Node
  | [] => []
  | node :: rest => node.calls symbol ++ callsAmong symbol rest

end

/-- The plain name that is the first argument of a call. -/
def argumentName? (call : Node) : Option String :=
  (((call.children.find? (·.kind == .arguments)).bind firstMeaningful?).bind unwrap).bind
    fun argument => if argument.kind == .identifier then some argument.lexeme else none

/-- The plain names that a name is called on in a tree. -/
def calledOn (symbol : String) (node : Node) : List String :=
  (node.calls symbol).filterMap argumentName?

/-- The names that a top-level statement binds to values, with the values. -/
def valueBindings (statement : Node) : List (String × Node) :=
  (Declaration.declarationIn statement).toList.flatMap Declaration.bindingsOf

/-- The names that a top-level statement binds to calls to a name. -/
def boundToCalls (symbol : String) (statement : Node) : List String :=
  ((valueBindings statement).filter (·.2.isCallTo symbol)).map (·.1)

section Calls

variable {symbol : String} {node child inner : Node}

theorem callsAmong_eq_flatMap (symbol : String) (nodes : List Node) :
    callsAmong symbol nodes = nodes.flatMap (calls symbol) := by
  induction nodes with
  | nil => rfl
  | cons node rest ih => rw [callsAmong, ih, List.flatMap_cons]

theorem calls_eq (symbol : String) (node : Node) :
    node.calls symbol =
      (if node.calleeName? == some symbol then [node] else [])
        ++ node.children.flatMap (calls symbol) := by
  cases node
  rw [calls, callsAmong_eq_flatMap]

theorem calls_eq_nil_iff : node.calls symbol = [] ↔
    node.calleeName? ≠ some symbol ∧ ∀ child ∈ node.children, child.calls symbol = [] := by
  rw [calls_eq, List.append_eq_nil_iff, List.flatMap_eq_nil_iff]
  by_cases called : node.calleeName? = some symbol <;> simp [called]

theorem calleeName?_of_kind (other : node.kind ≠ .call) : node.calleeName? = none := by
  simp [calleeName?, other]

/-- The calls in a node that is none are those in its children. -/
theorem calls_of_kind (other : node.kind ≠ .call) :
    node.calls symbol = node.children.flatMap (calls symbol) := by
  rw [calls_eq, calleeName?_of_kind other]
  rfl

theorem calls_of_isTrivia (trivia : node.isTrivia = true) : node.calls symbol = [] := by
  rw [calls_of_kind (by simp [kind_of_isTrivia trivia]), children_of_isTrivia trivia]
  rfl

theorem calls_of_child {role : Role} (silent : node.calls symbol = [])
    (found : node.child? role = some child) : child.calls symbol = [] :=
  (calls_eq_nil_iff.mp silent).2 child (List.mem_of_find?_eq_some found)

theorem calls_withRole_eq_nil (silent : node.calls symbol = []) (role : Role) :
    (node.withRole role).calls symbol = [] := by
  obtain ⟨uncalled, children⟩ := calls_eq_nil_iff.mp silent
  exact calls_eq_nil_iff.mpr ⟨uncalled, children⟩

mutual

/-- What is inside parentheses has no call if the whole has none. -/
theorem calls_of_unwrap : ∀ node : Node, node.calls symbol = [] → node.unwrap = some inner →
    inner.calls symbol = []
  | ⟨kind, role, span, lexeme, children⟩, silent, unwrapped => by
    rw [unwrap] at unwrapped
    split at unwrapped
    · exact calls_of_unwrapFirst children (calls_eq_nil_iff.mp silent).2 unwrapped
    · obtain rfl := Option.some.inj unwrapped
      exact silent

theorem calls_of_unwrapFirst : ∀ nodes : List Node, (∀ node ∈ nodes, node.calls symbol = []) →
    unwrapFirst nodes = some inner → inner.calls symbol = []
  | [], _, unwrapped => by cases unwrapped
  | node :: rest, silent, unwrapped => by
    rw [unwrapFirst] at unwrapped
    split at unwrapped
    · exact calls_of_unwrap node (silent node List.mem_cons_self) unwrapped
    · exact calls_of_unwrapFirst rest
        (fun other later => silent other (List.mem_cons_of_mem _ later)) unwrapped

end

/-- What has no call in it is none, parentheses or not. A name that the module binds to such a value
is not wrapped before the wrap. -/
theorem isCallTo_of_silent (silent : node.calls symbol = []) : node.isCallTo symbol = false := by
  unfold isCallTo
  split
  · rfl
  · next call unwrapped =>
    have uncalled := (calls_eq_nil_iff.mp (calls_of_unwrap node silent unwrapped)).1
    simp [uncalled]

theorem calledOn_of_silent (silent : node.calls symbol = []) : node.calledOn symbol = [] := by
  rw [calledOn, silent]
  rfl

/-! ## Bindings -/

theorem mem_bindingsOf {declaration value : Node} {name : String}
    (isVariables : declaration.kind = .variableDeclaration) :
    (name, value) ∈ Declaration.bindingsOf declaration ↔
      ∃ declarator ∈ declaration.declarators, ∃ written, declarator.child? .name = some written
        ∧ written.kind = .identifier ∧ written.lexeme = name
        ∧ declarator.child? .value = some value := by
  rw [Declaration.bindingsOf, if_neg (by simp [isVariables, Declaration.isClassKind]),
    List.mem_filterMap]
  refine exists_congr fun declarator => and_congr_right fun _ => ?_
  cases declarator.child? .name <;> cases declarator.child? .value <;> simp

/-- A value that is bound at the top level is the declaration itself, or a value in it. -/
theorem silent_of_mem_valueBindings {statement value : Node} {name : String}
    (silent : statement.calls symbol = []) (bound : (name, value) ∈ valueBindings statement) :
    value.calls symbol = [] := by
  obtain ⟨declaration, isDeclaration, binds⟩ := List.mem_flatMap.mp bound
  have silent' : declaration.calls symbol = [] := by
    simp only [Declaration.declarationIn, Option.mem_toList] at isDeclaration
    split at isDeclaration
    · exact calls_of_child silent isDeclaration
    · obtain rfl := Option.some.inj isDeclaration
      exact silent
  unfold Declaration.bindingsOf at binds
  split at binds
  · split at binds
    · obtain rfl := congrArg Prod.snd (List.mem_singleton.mp binds)
      exact silent'
    · cases binds
  · obtain ⟨declarator, isDeclarator, binds⟩ := List.mem_filterMap.mp binds
    have isChild := mem_children_of_mem_declarators isDeclarator
    have inner := (calls_eq_nil_iff.mp silent').2 declarator isChild
    split at binds
    · next valued =>
      split at binds
      · obtain rfl := congrArg Prod.snd (Option.some.inj binds)
        exact calls_of_child inner valued
      · cases binds
    · cases binds

/-- What has no call in it binds no name to one. -/
theorem boundToCalls_of_silent (silent : node.calls symbol = []) :
    node.boundToCalls symbol = [] := by
  rw [boundToCalls, List.map_eq_nil_iff, List.filter_eq_nil_iff]
  rintro ⟨name, value⟩ bound
  simp [isCallTo_of_silent (silent_of_mem_valueBindings silent bound)]

theorem mem_boundToCalls {name : String} : name ∈ node.boundToCalls symbol ↔
    ∃ value, (name, value) ∈ node.valueBindings ∧ value.isCallTo symbol = true := by
  simp [boundToCalls]

/-- The names bound at the top level of a module, statement by statement. -/
theorem localBindings_eq (root : Node) :
    Declaration.localBindings root = root.children.flatMap valueBindings := by
  have each : Declaration.localBindings root = root.namedChildren.flatMap valueBindings := by
    unfold Declaration.localBindings
    congr 1
    funext statement
    cases found : Declaration.declarationIn statement <;> simp [valueBindings, found]
  rw [each]
  refine namedChildren_flatMap (fun statement token => ?_) root
  simp [valueBindings, Declaration.declarationIn, Declaration.bindingsOf, declarators, token,
    Declaration.isClassKind]

theorem mem_localBindings {root value : Node} {name : String} :
    (name, value) ∈ Declaration.localBindings root ↔
      ∃ statement ∈ root.children, (name, value) ∈ statement.valueBindings := by
  rw [localBindings_eq, List.mem_flatMap]

end Calls

/-! ## Layout -/

section Layout

variable (symbol : String)

mutual

theorem calls_outline : ∀ node : Node, node.outline.calls symbol = (node.calls symbol).map outline
  | ⟨kind, role, span, lexeme, children⟩ => by
    have ih := callsAmong_outlineAll children
    have callee := calleeName?_outline ⟨kind, role, span, lexeme, children⟩
    simp only [outline] at callee
    rw [outline, calls, calls, callee, ih]
    split <;> simp [outline]

theorem callsAmong_outlineAll : ∀ nodes : List Node,
    callsAmong symbol (outlineAll nodes) = (callsAmong symbol nodes).map outline
  | [] => rfl
  | node :: rest => by
    have ih := callsAmong_outlineAll rest
    cases trivia : node.isTrivia with
    | true => simp [outlineAll, callsAmong, trivia, calls_of_isTrivia trivia, ih]
    | false => simp [outlineAll, callsAmong, trivia, calls_outline node, ih]

end

variable (node : Node)

theorem argumentName?_outline : node.outline.argumentName? = node.argumentName? := by
  rw [argumentName?, outline_children,
    (outlined_kind (by decide : Kind.arguments ≠ .comment)).find?, argumentName?]
  cases node.children.find? (·.kind == .arguments) with
  | none => rfl
  | some arguments =>
    simp only [Option.map_some, Option.bind_some, firstMeaningful?_outline]
    cases arguments.firstMeaningful? with
    | none => rfl
    | some argument =>
      simp only [Option.map_some, Option.bind_some, unwrap_outline]
      cases argument.unwrap <;> simp

theorem calledOn_outline : node.outline.calledOn symbol = node.calledOn symbol := by
  rw [calledOn, calls_outline, List.filterMap_map, calledOn]
  congr 1
  funext call
  exact argumentName?_outline call

theorem bindingsOf_outline :
    Declaration.bindingsOf node.outline =
      (Declaration.bindingsOf node).map fun binding => (binding.1, binding.2.outline) := by
  simp only [Declaration.bindingsOf, outline_kind, declaredName?_outline, declarators_outline]
  split
  · cases node.declaredName? <;> rfl
  · rw [List.filterMap_map, List.map_filterMap]
    congr 1
    funext declarator
    simp only [Function.comp_apply, child?_outline declarator (by decide : Role.name ≠ .plain),
      child?_outline declarator (by decide : Role.value ≠ .plain)]
    cases declarator.child? .name with
    | none => rfl
    | some name =>
      cases declarator.child? .value with
      | none => rfl
      | some value => by_cases isName : name.kind = .identifier <;> simp [isName]

theorem valueBindings_outline :
    node.outline.valueBindings =
      node.valueBindings.map fun binding => (binding.1, binding.2.outline) := by
  have declaration : Declaration.declarationIn node.outline =
      (Declaration.declarationIn node).map outline := by
    simp only [Declaration.declarationIn, outline_kind, child?_outline node
      (by decide : Role.declaration ≠ .plain)]
    split <;> rfl
  rw [valueBindings, declaration, valueBindings]
  cases Declaration.declarationIn node <;> simp [bindingsOf_outline]

theorem boundToCalls_outline : node.outline.boundToCalls symbol = node.boundToCalls symbol := by
  simp [boundToCalls, valueBindings_outline, List.filter_map, Function.comp_def]

end Layout

end RenderProbe.Syntax.Node
