import Mathlib.Data.List.Pairwise
import RenderProbe.Proofs.Syntax.Calls
import RenderProbe.Proofs.Wrap.Agreement
import RenderProbe.Proofs.Wrap.PatchOrder
import RenderProbe.Proofs.Wrap.Redeclaration

/-!
# Wraps of wraps

Each rule looks at one export statement, so a component that leaves its module through two
statements is wrapped at both. Some rules call the wrapper on the component's name (`Rule.refers`),
some bind the name to a call (`Rule.binds`); where one of each fires, the wrapper is called on what
it returned.

* `Rewrite.edit_of_fires`: the calls to the wrapper in an edited statement, by the rule that fired.
* `wraps_twice_iff`: when a wrap makes a module call the wrapper on a name bound to such a call.
-/

namespace RenderProbe.Wrap

open Syntax (Node Forest Role ExportShape)
open Syntax.Node (calls_eq calls_eq_nil_iff calls_of_kind calls_of_child)

/-- The edit of the rule calls the wrapper on the component's name. -/
def Rule.refers : Rule → Bool
  | .namedVariable => false
  | _ => true

/-- The edit of the rule binds the component's name to a call to the wrapper. -/
def Rule.binds : Rule → Bool
  | .namedVariable | .namedFunction => true
  | _ => false

/-- Of two rules none binds a call while the other calls the wrapper on the name. -/
def Rule.Apart (rule other : Rule) : Prop :=
  ¬ (rule.refers = true ∧ other.binds = true) ∧ ¬ (other.refers = true ∧ rule.binds = true)

/-- A statement calls the wrapper on a name that another one binds to a call to it. -/
def WrapsResult (symbol : String) (statement other : Node) : Prop :=
  ∃ name ∈ statement.calledOn symbol, name ∈ other.boundToCalls symbol

/-- Neither of two statements calls the wrapper on what the other one binds to a call. -/
def Apart (symbol : String) (statement other : Node) : Prop :=
  ¬ WrapsResult symbol statement other ∧ ¬ WrapsResult symbol other statement

theorem Apart.of_silent {symbol : String} {first second : Node}
    (silent : first.calls symbol = [] ∨ second.calls symbol = []) : Apart symbol first second := by
  rcases silent with silent | silent <;>
    simp [Apart, WrapsResult, Syntax.Node.calledOn_of_silent silent,
      Syntax.Node.boundToCalls_of_silent silent]

theorem Apart.symm {symbol : String} {first second : Node} (apart : Apart symbol first second) :
    Apart symbol second first :=
  And.symm apart

namespace Rewrite

variable {rewrite : Rewrite} {statement declaration node : Node} {signatures : Bool} {rule : Rule}

/-! ## Calls in edited nodes -/

section Children

variable {symbol : String} {role : Role} {change : Node → Node} {child : Node}

/-- Where nothing else has a call, the calls are those of the child that is replaced. -/
theorem calls_mapChild (silent : node.calls symbol = []) (other : node.kind ≠ .call)
    (found : node.child? role = some child) :
    (node.mapChild role change).calls symbol = (change child).calls symbol := by
  have children := (calls_eq_nil_iff.mp silent).2
  rw [calls_of_kind (by simpa using other)]
  simp only [Node.mapChild, Node.child?] at found ⊢
  generalize node.children = nodes at children found
  induction nodes with
  | nil => cases found
  | cons first rest ih =>
    have silentRest := fun other later => children other (List.mem_cons_of_mem first later)
    by_cases here : first.role = role
    · have rest' := List.flatMap_eq_nil_iff.mpr silentRest
      obtain rfl : first = child := by simpa [here] using found
      simp [Forest.mapRole, here, rest']
    · have found' : rest.find? (·.role == role) = some child := by simpa [here] using found
      simp [Forest.mapRole, here, children first List.mem_cons_self, ih silentRest found']

theorem calls_leafNode {kind : Syntax.Kind} (lexeme : String) (other : kind ≠ .call) :
    (leafNode kind role lexeme).calls symbol = [] := by
  rw [calls_of_kind (by simpa [leafNode] using other)]
  rfl

theorem calls_branchNode {kind : Syntax.Kind} {children : List Node} (other : kind ≠ .call) :
    (branchNode kind role children).calls symbol = children.flatMap (Node.calls symbol) :=
  calls_of_kind (by simpa [branchNode] using other)

theorem calls_tokenNode (lexeme : String) : (tokenNode lexeme).calls symbol = [] :=
  calls_leafNode lexeme (by decide)

end Children

theorem calleeName?_callNode (argument : Node) :
    (rewrite.callNode argument).calleeName? = some rewrite.symbol := by
  simp [callNode, Node.calleeName?, branchNode, leafNode, Node.child?, Node.unwrap,
    Syntax.Kind.isTransparent]

/-- A generated call has no other call in it than itself. -/
theorem calls_callNode {argument : Node} (silent : argument.calls rewrite.symbol = []) :
    (rewrite.callNode argument).calls rewrite.symbol = [rewrite.callNode argument] := by
  have inner := Syntax.Node.calls_withRole_eq_nil silent .plain
  have children :
      (rewrite.callNode argument).children.flatMap (Node.calls rewrite.symbol) = [] := by
    simp [callNode, branchNode, calls_leafNode, calls_of_kind, calls_tokenNode, inner]
  rw [calls_eq, calleeName?_callNode, children]
  simp

theorem calls_nameCall : rewrite.nameCall.calls rewrite.symbol = [rewrite.nameCall] :=
  calls_callNode (calls_leafNode _ (by decide))

theorem argumentName?_nameCall : rewrite.nameCall.argumentName? = some rewrite.name := by
  simp [nameCall, callNode, Node.argumentName?, branchNode, leafNode, tokenNode, Node.withRole,
    Node.firstMeaningful?, Node.isNamed, Node.unwrap, Syntax.Kind.isTransparent]

theorem kind_of_unwrap_withRole {value inner inner' : Node} {role : Role}
    (unwrapped : value.unwrap = some inner)
    (unwrapped' : (value.withRole role).unwrap = some inner') :
    inner'.kind = inner.kind := by
  cases value
  simp only [Node.withRole, Node.unwrap] at unwrapped unwrapped'
  split at unwrapped
  · next transparent =>
    rw [if_pos transparent, unwrapped] at unwrapped'
    rw [Option.some.inj unwrapped']
  · next solid =>
    rw [if_neg solid] at unwrapped'
    rw [← Option.some.inj unwrapped, ← Option.some.inj unwrapped']

/-- A value that looks like a component is no plain name. -/
theorem argumentName?_callNode {helpers : List String} {value : Node}
    (likely : isLikelyComponent helpers value = true) :
    (rewrite.callNode value).argumentName? = none := by
  obtain ⟨inner, unwrapped, shape⟩ := isLikelyComponent_iff.mp likely
  have other : inner.kind ≠ .identifier ∧ inner.kind ≠ .token ∧ inner.kind ≠ .comment := by
    rcases shape with same | same | ⟨same, -⟩ <;> simp [same]
  -- A mark or a comment is not looked through, so the value is neither.
  have meaningful : value.kind ≠ .token ∧ value.kind ≠ .comment := by
    constructor <;> intro same <;>
      simp_all [Node.unwrap_of_not_transparent, Syntax.Kind.isTransparent]
  have first : (branchNode .arguments .plain [tokenNode "(", value.withRole .plain, tokenNode ",",
      leafNode .stringLiteral .plain (Snippet.stringLiteral rewrite.style rewrite.name),
      tokenNode ")"]).firstMeaningful? = some (value.withRole .plain) := by
    simp [Node.firstMeaningful?, branchNode, tokenNode, leafNode, Node.isNamed, Node.withRole,
      meaningful.1, meaningful.2]
  have found : (rewrite.callNode value).children.find? (·.kind == .arguments) =
      some (branchNode .arguments .plain [tokenNode "(", value.withRole .plain, tokenNode ",",
        leafNode .stringLiteral .plain (Snippet.stringLiteral rewrite.style rewrite.name),
        tokenNode ")"]) := rfl
  rw [Node.argumentName?, found, Option.bind_some, first, Option.bind_some]
  cases unwrapped' : (value.withRole .plain).unwrap with
  | none => rfl
  | some inner' =>
    have same := kind_of_unwrap_withRole unwrapped unwrapped'
    simp [same, other.1]

/-! ## Edited statements -/

/-- What a rule leaves where it puts the wrapper: the statement calls it on the name if the rule
refers to it, and binds the name to a call if the rule binds it. -/
structure Live (rewrite : Rewrite) (rule : Rule) (statement : Node) : Prop where
  calledOn : ∀ name, name ∈ statement.calledOn rewrite.symbol ↔
    name = rewrite.name ∧ rule.refers = true
  boundToCalls : ∀ name, name ∈ statement.boundToCalls rewrite.symbol ↔
    name = rewrite.name ∧ rule.binds = true

/-- Where both wrap something, statements stay apart exactly if their rules do. -/
theorem Live.apart_iff {other : Node} {rule' : Rule} (live : rewrite.Live rule node)
    (live' : rewrite.Live rule' other) :
    Apart rewrite.symbol node other ↔ rule.Apart rule' := by
  have wraps : ∀ {rule rule' node other}, rewrite.Live rule node → rewrite.Live rule' other →
      (WrapsResult rewrite.symbol node other ↔ rule.refers = true ∧ rule'.binds = true) := by
    intro rule rule' node other live live'
    simp only [WrapsResult, live.calledOn, live'.boundToCalls]
    constructor
    · rintro ⟨name, ⟨-, refers⟩, -, binds⟩
      exact ⟨refers, binds⟩
    · rintro ⟨refers, binds⟩
      exact ⟨rewrite.name, ⟨rfl, refers⟩, rfl, binds⟩
  rw [Apart, wraps live live', wraps live' live]
  rfl

theorem silent_demoted (silent : statement.calls rewrite.symbol = [])
    (isChild : declaration ∈ statement.children) (other : declaration.kind ≠ .call) :
    (demoted statement declaration).calls rewrite.symbol = [] := by
  have children := (calls_eq_nil_iff.mp silent).2
  have inner := (calls_eq_nil_iff.mp (children declaration isChild)).2
  have kind : (demoted statement declaration).kind ≠ .call := by
    simp only [demoted]
    unfold statementKind
    split
    · decide
    · decide
    · exact other
  refine calls_eq_nil_iff.mpr ⟨by simp [Syntax.Node.calleeName?_of_kind kind],
    fun child member => ?_⟩
  rcases List.mem_append.mp member with decorator | inside
  · exact children child (List.mem_filter.mp decorator).1
  · exact inner child inside

theorem calledOn_of_nameCall (called : node.calls rewrite.symbol = [rewrite.nameCall]) :
    node.calledOn rewrite.symbol = [rewrite.name] := by
  simp [Node.calledOn, called, argumentName?_nameCall]

theorem live_defaultExportNode (refers : rule.refers = true) (unbound : rule.binds = false) :
    rewrite.Live rule rewrite.defaultExportNode := by
  have called : rewrite.defaultExportNode.calls rewrite.symbol = [rewrite.nameCall] := by
    simp [defaultExportNode, calls_branchNode, calls_tokenNode, calls_nameCall]
  have bindings : rewrite.defaultExportNode.boundToCalls rewrite.symbol = [] := rfl
  exact ⟨by simp [calledOn_of_nameCall called, refers], by simp [bindings, unbound]⟩

theorem live_namedExportNode : rewrite.Live .namedFunction rewrite.namedExportNode := by
  have called : rewrite.namedExportNode.calls rewrite.symbol = [rewrite.nameCall] := by
    simp [namedExportNode, calls_branchNode, calls_tokenNode, calls_leafNode, calls_nameCall]
  have bindings : rewrite.namedExportNode.valueBindings = [(rewrite.name, rewrite.nameCall)] := rfl
  have isCall : rewrite.nameCall.isCallTo rewrite.symbol = true := isCallTo_callNode _
  exact ⟨by simp [calledOn_of_nameCall called, Rule.refers],
    by simp [Node.boundToCalls, bindings, isCall, Rule.binds]⟩

/-- A default export of the name calls the wrapper on it. -/
theorem live_nameValue {value : Node} (exported : statement.kind = .exportStatement)
    (silent : statement.calls rewrite.symbol = [])
    (undeclared : statement.child? .declaration = none)
    (valued : statement.child? .value = some value) :
    rewrite.Live .defaultIdentifier (statement.mapChild .value fun _ => rewrite.nameCall) := by
  have called : (statement.mapChild .value fun _ => rewrite.nameCall).calls rewrite.symbol =
      [rewrite.nameCall] := by
    rw [calls_mapChild silent (by simp [exported]) valued, calls_nameCall]
  have role : ∀ child : Node, ((fun _ => rewrite.nameCall) child).role = .value := fun _ => rfl
  have undeclared' := Node.child?_mapChild_of_ne statement role (by decide : .declaration ≠ _)
  have bindings : (statement.mapChild .value fun _ => rewrite.nameCall).valueBindings = [] := by
    simp [Node.valueBindings, Declaration.declarationIn, exported, undeclared', undeclared]
  exact ⟨by simp [calledOn_of_nameCall called, Rule.refers],
    by simp [Node.boundToCalls, bindings, Rule.binds]⟩

/-! ## Variables -/

section Variables

/-- A declarator calls the wrapper on its value, which is no plain name. -/
theorem calledOn_wrapDeclarator {declarator : Node}
    (silent : declarator.calls rewrite.symbol = []) :
    (rewrite.wrapDeclarator declarator).calledOn rewrite.symbol = [] := by
  unfold wrapDeclarator
  split
  · next wraps =>
    simp only [Bool.and_eq_true, beq_iff_eq, Aim.wrapsDeclarator, Aim.acceptsInitializer,
      Option.any_eq_true] at wraps
    obtain ⟨isDeclarator, -, value, valued, ⟨-, likely⟩, -⟩ := wraps
    rw [Node.calledOn, calls_mapChild silent (by simp [isDeclarator]) valued,
      calls_callNode (calls_of_child silent valued)]
    simp [argumentName?_callNode likely]
  · exact Syntax.Node.calledOn_of_silent silent

theorem calledOn_wrapDeclarators (isVariables : declaration.kind = .variableDeclaration)
    (silent : declaration.calls rewrite.symbol = []) :
    (rewrite.wrapDeclarators declaration).calledOn rewrite.symbol = [] := by
  have children := (calls_eq_nil_iff.mp silent).2
  have kind : (rewrite.wrapDeclarators declaration).kind ≠ .call := by
    simp [wrapDeclarators, isVariables]
  rw [Node.calledOn, calls_of_kind kind, wrapDeclarators, List.flatMap_map, List.filterMap_flatMap,
    List.flatMap_eq_nil_iff]
  exact fun child member => calledOn_wrapDeclarator (children child member)

/-- A declarator binds its name to a call to the wrapper exactly if it is wrapped. -/
theorem isCallTo_wrapDeclarator {declarator value : Node}
    (isDeclarator : declarator.kind = .declarator) (silent : declarator.calls rewrite.symbol = [])
    (valued : (rewrite.wrapDeclarator declarator).child? .value = some value) :
    value.isCallTo rewrite.symbol = rewrite.aim.wrapsDeclarator declarator := by
  cases wraps : rewrite.aim.wrapsDeclarator declarator with
  | false =>
    simp only [wrapDeclarator, wraps, Bool.and_false, Bool.false_eq_true, if_false] at valued
    exact Syntax.Node.isCallTo_of_silent (calls_of_child silent valued)
  | true =>
    simp only [wrapDeclarator, wraps, isDeclarator, beq_self_eq_true, Bool.and_self, if_true,
      Node.child?_mapChild declarator callNode_role, Option.map_eq_some_iff] at valued
    obtain ⟨before, -, rfl⟩ := valued
    exact isCallTo_callNode before

theorem child?_name_wrapDeclarator (declarator : Node) :
    (rewrite.wrapDeclarator declarator).child? .name = declarator.child? .name := by
  unfold wrapDeclarator
  split
  · exact Node.child?_mapChild_of_ne declarator callNode_role (by decide)
  · rfl

/-- Behind the edit only the name is bound to a call of the wrapper: other variables hold what they
held, and none of that calls it. -/
theorem name_of_boundToCall {name : String} {value : Node}
    (isVariables : declaration.kind = .variableDeclaration)
    (silent : declaration.calls rewrite.symbol = [])
    (bound : (name, value) ∈ Declaration.bindingsOf (rewrite.wrapDeclarators declaration))
    (isCall : value.isCallTo rewrite.symbol = true) : name = rewrite.name := by
  have kind := rewrite.wrapDeclarators_kind.trans isVariables
  obtain ⟨edited, isEdited, written, named, -, rfl, valued⟩ :=
    (Syntax.Node.mem_bindingsOf kind).mp bound
  rw [declarators_wrapDeclarators] at isEdited
  obtain ⟨declarator, isDeclarator, rfl⟩ := List.mem_map.mp isEdited
  have inner : declarator.calls rewrite.symbol = [] :=
    (calls_eq_nil_iff.mp silent).2 declarator (Node.mem_children_of_mem_declarators isDeclarator)
  rw [isCallTo_wrapDeclarator (Node.kind_of_mem_declarators' isDeclarator) inner valued] at isCall
  rw [child?_name_wrapDeclarator] at named
  simp only [Aim.wrapsDeclarator, named, Option.any_some, Bool.and_eq_true, beq_iff_eq] at isCall
  exact isCall.1

/-- A variable whose value is wrapped binds the name to the call. -/
theorem exists_boundToCall {wrapped : Node}
    (isVariables : declaration.kind = .variableDeclaration) (plainly : declaration.DeclaresPlainly)
    (isDeclarator : wrapped ∈ declaration.declarators)
    (wraps : rewrite.aim.wrapsDeclarator wrapped = true) :
    ∃ value, (rewrite.name, value) ∈ Declaration.bindingsOf (rewrite.wrapDeclarators declaration)
      ∧ value.isCallTo rewrite.symbol = true := by
  have accepted := wraps
  simp only [Aim.wrapsDeclarator, Aim.acceptsInitializer, Bool.and_eq_true, Option.any_eq_true,
    beq_iff_eq] at accepted
  obtain ⟨⟨written, named, lexeme⟩, value, valued, -, accepted⟩ := accepted
  have isName : written.kind = .identifier := by
    rcases plainly wrapped isDeclarator written named with isName | empty
    · exact isName
    · exact absurd (lexeme.symm.trans empty) (Component.ne_empty_of_accepts accepted)
  have valued' :
      (rewrite.wrapDeclarator wrapped).child? .value = some (rewrite.callNode value) := by
    rw [wrapDeclarator, if_pos (by simp [Node.kind_of_mem_declarators' isDeclarator, wraps]),
      Node.child?_mapChild wrapped callNode_role, valued, Option.map_some]
  have kind := rewrite.wrapDeclarators_kind.trans isVariables
  refine ⟨_, (Syntax.Node.mem_bindingsOf kind).mpr ⟨rewrite.wrapDeclarator wrapped, ?_, written, ?_,
    isName, lexeme, valued'⟩, isCallTo_callNode value⟩
  · rw [declarators_wrapDeclarators]
    exact List.mem_map_of_mem isDeclarator
  · rw [child?_name_wrapDeclarator, named]

/-- An export of variables binds the name to a call, and calls the wrapper on no name. -/
theorem live_variables (exported : statement.kind = .exportStatement)
    (shape : ExportShape statement) (silent : statement.calls rewrite.symbol = [])
    (wraps : rewrite.aim.wrapped statement .namedVariable ≠ []) :
    rewrite.Live .namedVariable (statement.mapChild .declaration rewrite.wrapDeclarators) := by
  obtain ⟨wrapped, isWrapped⟩ := List.exists_mem_of_ne_nil _ wraps
  obtain ⟨-, declaration, found, inVariables, wrapsIt⟩ := Aim.mem_declarators.mp isWrapped
  have isVariables := Node.kind_of_mem_declarators inVariables
  have silent' := calls_of_child silent found
  have declared := Node.child?_mapChild statement
    (fun child => (rfl : (rewrite.wrapDeclarators child).role = .declaration))
  rw [found, Option.map_some] at declared
  have bindings : (statement.mapChild .declaration rewrite.wrapDeclarators).valueBindings =
      Declaration.bindingsOf (rewrite.wrapDeclarators declaration) := by
    simp [Node.valueBindings, Declaration.declarationIn, exported, declared]
  have calledOn : (statement.mapChild .declaration rewrite.wrapDeclarators).calledOn
      rewrite.symbol = [] := by
    rw [Node.calledOn, calls_mapChild silent (by simp [exported]) found]
    exact calledOn_wrapDeclarators isVariables silent'
  refine ⟨by simp [calledOn, Rule.refers], fun name => ?_⟩
  rw [Syntax.Node.mem_boundToCalls, bindings]
  simp only [Rule.binds, and_true]
  constructor
  · rintro ⟨value, bound, isCall⟩
    exact name_of_boundToCall isVariables silent' bound isCall
  · rintro rfl
    exact exists_boundToCall isVariables (shape.named declaration found) inVariables wrapsIt

end Variables

/-! ## All edits -/

section Edits

variable (shape : statement.kind = .exportStatement → ExportShape statement)
  (silent : statement.calls rewrite.symbol = [])

include silent

/-- Without a rule nothing calls the wrapper. -/
theorem silent_of_not_fires (unfired : rewrite.fires? statement = none)
    (member : node ∈ rewrite.edit signatures statement) : node.calls rewrite.symbol = [] := by
  simp only [edit, unfired] at member
  split at member
  · next signature =>
    simp only [Option.mem_toList, Option.map_eq_some_iff] at member
    obtain ⟨declaration, found, rfl⟩ := member
    simp only [exportsSignature, found, Option.any_some, Bool.and_eq_true, beq_iff_eq] at signature
    exact silent_demoted silent (List.mem_of_find?_eq_some found) (by simp [signature.2.2.1])
  · obtain rfl := List.mem_singleton.mp member
    exact silent

include shape

/-- A rule leaves nodes without a call and behind them the one that calls the wrapper. -/
theorem edit_of_fires (signatures : Bool) (fires : rewrite.fires? statement = some rule) :
    ∃ before live, rewrite.edit signatures statement = before ++ [live]
      ∧ (∀ node ∈ before, node.calls rewrite.symbol = []) ∧ rewrite.Live rule live := by
  obtain ⟨exported, wraps⟩ := fires?_eq_some_iff.mp fires
  rw [edit, fires]
  cases rule with
  | defaultDeclaration =>
    obtain ⟨declaration, wraps⟩ := List.exists_mem_of_ne_nil _ wraps
    have wraps := Option.mem_toList.mp wraps
    obtain ⟨-, found, -⟩ := Aim.defaultDeclaration?_eq_some.mp wraps
    have isChild : declaration ∈ statement.children := by
      rcases of_defaultFunctionOrClass? found with ⟨declared, -⟩ | ⟨-, valued, -⟩
      · exact List.mem_of_find?_eq_some declared
      · exact List.mem_of_find?_eq_some valued
    have other : declaration.kind ≠ .call := by
      rcases kind_of_defaultFunctionOrClass? found with same | same | isClass
      · simp [same]
      · simp [same]
      · rintro same
        simp [same, Declaration.isClassKind] at isClass
    refine ⟨[demoted statement declaration], rewrite.defaultExportNode, ?_, ?_,
      live_defaultExportNode rfl rfl⟩
    · simp [editBy, Aim.wrapped, wraps]
    · simpa using silent_demoted silent isChild other
  | defaultIdentifier =>
    obtain ⟨value, replaces⟩ := List.exists_mem_of_ne_nil _ wraps
    obtain ⟨-, undeclared, valued, -⟩ :=
      Aim.defaultValue?_eq_some.mp (Option.mem_toList.mp replaces)
    exact ⟨[], _, rfl, by simp, live_nameValue exported silent undeclared valued⟩
  | namedVariable =>
    exact ⟨[], _, rfl, by simp, live_variables exported (shape exported) silent wraps⟩
  | namedFunction =>
    obtain ⟨declaration, wraps⟩ := List.exists_mem_of_ne_nil _ wraps
    have wraps := Option.mem_toList.mp wraps
    obtain ⟨-, declared, accepted⟩ := Aim.function?_eq_some.mp wraps
    simp only [Aim.acceptsFunction, Bool.and_eq_true, beq_iff_eq] at accepted
    refine ⟨[demoted statement declaration], rewrite.namedExportNode, ?_, ?_, live_namedExportNode⟩
    · simp [editBy, Aim.wrapped, wraps]
    · simpa using silent_demoted silent (List.mem_of_find?_eq_some declared)
        (by simp [accepted.1.1])

/-- What is gathered from an edited statement, where nothing is gathered without a call. -/
theorem exists_mem_edit (signatures : Bool) {gather : Node → List String} {marks : Rule → Bool}
    (quiet : ∀ {node : Node}, node.calls rewrite.symbol = [] → gather node = [])
    (live : ∀ {rule node}, rewrite.Live rule node → ∀ name, name ∈ gather node ↔
      name = rewrite.name ∧ marks rule = true) (name : String) :
    (∃ node ∈ rewrite.edit signatures statement, name ∈ gather node) ↔
      name = rewrite.name ∧ ∃ rule, rewrite.fires? statement = some rule ∧ marks rule = true := by
  cases fires : rewrite.fires? statement with
  | none =>
    refine iff_of_false ?_ (by simp)
    rintro ⟨node, member, gathered⟩
    simp [quiet (silent_of_not_fires silent fires member)] at gathered
  | some rule =>
    obtain ⟨before, wraps, edited, early, isLive⟩ :=
      edit_of_fires shape silent signatures fires
    simp only [edited, List.mem_append, List.mem_singleton, Option.some.injEq, exists_eq_left']
    rw [← live isLive]
    refine ⟨?_, fun gathered => ⟨wraps, .inr rfl, gathered⟩⟩
    rintro ⟨node, isEarly | rfl, gathered⟩
    · simp [quiet (early node isEarly)] at gathered
    · exact gathered

end Edits

/-! ## Modules -/

section Modules

variable {root : Node} {target : ImportTarget} (symbol : target.symbol = rewrite.symbol)
  (shapes : ∀ statement ∈ root.children, statement.kind = .exportStatement → ExportShape statement)
  (silent : root.calls rewrite.symbol = [])

theorem silent_importNodes (imports : ImportState)
    (member : node ∈ rewrite.importNodes imports target) : node.calls rewrite.symbol = [] := by
  unfold importNodes at member
  split at member
  · cases member
  · obtain rfl := List.mem_singleton.mp member
    simp [importNode, calls_branchNode, calls_tokenNode, calls_leafNode]

theorem mem_rules {rule : Rule} : rule ∈ (rewrite.firing root).map (·.2) ↔
    ∃ statement ∈ root.children, rewrite.fires? statement = some rule := by
  simp [firing_eq]

include shapes silent

theorem exists_mem_edited {gather : Node → List String} {marks : Rule → Bool}
    (quiet : ∀ {node : Node}, node.calls rewrite.symbol = [] → gather node = [])
    (live : ∀ {rule node}, rewrite.Live rule node → ∀ name, name ∈ gather node ↔
      name = rewrite.name ∧ marks rule = true) (name : String) :
    (∃ node ∈ (rewrite.edited root target).children, name ∈ gather node) ↔
      name = rewrite.name ∧ ∃ rule ∈ (rewrite.firing root).map (·.2), marks rule = true := by
  have children := (calls_eq_nil_iff.mp silent).2
  have perStatement := fun statement (member : statement ∈ root.children) =>
    exists_mem_edit (shapes statement member) (children statement member)
      (rewrite.demotesSignatures root) quiet live name
  constructor
  · rintro ⟨node, member, gathered⟩
    rcases rewrite.mem_edited_children.mp member with imported | ⟨statement, isChild, isEdit⟩
    · simp [quiet (silent_importNodes _ imported)] at gathered
    · obtain ⟨same, rule, fires, marked⟩ :=
        (perStatement statement isChild).mp ⟨node, isEdit, gathered⟩
      exact ⟨same, rule, mem_rules.mpr ⟨statement, isChild, fires⟩, marked⟩
  · rintro ⟨same, rule, isRule, marked⟩
    obtain ⟨statement, isChild, fires⟩ := mem_rules.mp isRule
    obtain ⟨node, isEdit, gathered⟩ :=
      (perStatement statement isChild).mpr ⟨same, rule, fires, marked⟩
    exact ⟨node, rewrite.mem_edited_children.mpr (.inr ⟨statement, isChild, isEdit⟩), gathered⟩

/-- Statements after their edits stay apart exactly if the rules that fired on them do. -/
theorem apart_edit_iff {first second : Node} (isFirst : first ∈ root.children)
    (isSecond : second ∈ root.children) :
    (∀ node ∈ rewrite.edit signatures first, ∀ other ∈ rewrite.edit signatures second,
        Apart rewrite.symbol node other) ↔
      ∀ rule, rewrite.fires? first = some rule → ∀ other, rewrite.fires? second = some other →
        rule.Apart other := by
  have children := (calls_eq_nil_iff.mp silent).2
  cases fires : rewrite.fires? first with
  | none =>
    refine iff_of_true (fun node member other _ => .of_silent (.inl ?_)) (by simp)
    exact silent_of_not_fires (children first isFirst) fires member
  | some rule =>
    cases fires' : rewrite.fires? second with
    | none =>
      refine iff_of_true (fun node _ other member => .of_silent (.inr ?_)) (by simp)
      exact silent_of_not_fires (children second isSecond) fires' member
    | some rule' =>
      obtain ⟨before, live, edited, early, isLive⟩ := edit_of_fires
        (shapes first isFirst) (children first isFirst) signatures fires
      obtain ⟨before', live', edited', early', isLive'⟩ := edit_of_fires
        (shapes second isSecond) (children second isSecond) signatures fires'
      have verdict := isLive.apart_iff isLive'
      simp only [Option.some.injEq, forall_eq', ← verdict, edited, edited', List.mem_append,
        List.mem_singleton]
      refine ⟨fun apart => apart live (.inr rfl) live' (.inr rfl), fun apart => ?_⟩
      rintro node (isEarly | rfl) other (isEarly' | rfl)
      · exact .of_silent (.inl (early node isEarly))
      · exact .of_silent (.inl (early node isEarly))
      · exact .of_silent (.inr (early' other isEarly'))
      · exact apart

/-- The nodes of one edit stay apart: only the last one has a call. -/
theorem pairwise_apart_edit (isChild : statement ∈ root.children) :
    (rewrite.edit signatures statement).Pairwise (Apart rewrite.symbol) := by
  have silent' := (calls_eq_nil_iff.mp silent).2 statement isChild
  cases fires : rewrite.fires? statement with
  | none =>
    refine List.pairwise_of_forall_mem_list fun node member other _ => .of_silent (.inl ?_)
    exact silent_of_not_fires silent' fires member
  | some rule =>
    obtain ⟨before, live, edited, early, -⟩ :=
      edit_of_fires (shapes statement isChild) silent' signatures fires
    rw [edited]
    refine List.pairwise_append.mpr ⟨?_, List.pairwise_singleton _ _, ?_⟩
    · exact List.pairwise_of_forall_mem_list fun node member _ _ =>
        .of_silent (.inl (early node member))
    · exact fun node member other _ => .of_silent (.inl (early node member))

/-- The statements of an edited module stay apart exactly if the rules that fired do. -/
theorem pairwise_apart_edited :
    (rewrite.edited root target).children.Pairwise (Apart rewrite.symbol) ↔
      ((rewrite.firing root).map (·.2)).Pairwise Rule.Apart := by
  have rules : (rewrite.firing root).map (·.2) = root.children.filterMap rewrite.fires? := by
    rw [firing_eq, List.map_filterMap]
    congr 1
    funext statement
    cases rewrite.fires? statement <;> rfl
  have imports : ∀ node ∈ rewrite.importNodes (scanImports root target.symbol) target,
      node.calls rewrite.symbol = [] := fun _ => silent_importNodes _
  -- The import has no calls, so it may stand in front.
  have moved : (rewrite.edited root target).children.Perm
      (rewrite.importNodes (scanImports root target.symbol) target
        ++ root.children.flatMap (rewrite.edit (rewrite.demotesSignatures root))) := by
    have split := List.takeWhile_append_dropWhile
      (p := fun child : Node => decide (child.span.stop ≤ (scanImports root target.symbol).offset))
      (l := root.children)
    conv_rhs => rw [← split, List.flatMap_append]
    simp only [edited, List.append_assoc]
    exact List.perm_append_comm_assoc _ _ _
  rw [moved.pairwise_iff Apart.symm, List.pairwise_append, List.pairwise_flatMap, rules,
    List.pairwise_filterMap]
  constructor
  · rintro ⟨-, ⟨-, across⟩, -⟩
    exact across.imp_of_mem fun {first second} isFirst isSecond apart =>
      (apart_edit_iff shapes silent isFirst isSecond).mp apart
  · intro apart
    refine ⟨?_, ⟨fun statement member => pairwise_apart_edit shapes silent member, ?_⟩, ?_⟩
    · exact List.pairwise_of_forall_mem_list fun node member _ _ =>
        .of_silent (.inl (imports node member))
    · exact apart.imp_of_mem fun {first second} isFirst isSecond apart =>
        (apart_edit_iff shapes silent isFirst isSecond).mpr apart
    · exact fun node member _ _ => .of_silent (.inl (imports node member))

end Modules

end Rewrite

/-! ## Rules -/

instance : Std.Symm Rule.Apart :=
  ⟨fun _ _ => And.symm⟩

/-- Rules that fired stay apart unless there are several, one that refers to the name and one that
binds it. -/
theorem pairwise_apart_rules {rules : List Rule} : rules.Pairwise Rule.Apart ↔
    ¬ (((∃ rule ∈ rules, rule.refers = true) ∧ ∃ rule ∈ rules, rule.binds = true)
      ∧ 2 ≤ rules.length) := by
  constructor
  · rintro apart ⟨⟨⟨rule, isRule, refers⟩, other, isOther, binds⟩, two⟩
    by_cases same : rule = other
    · -- A rule that does both clashes with any other, since that one does one of the two.
      subst same
      obtain ⟨third, clash⟩ : ∃ third, rule.Apart third := by
        match rules, two with
        | first :: second :: rest, _ =>
          by_cases here : rule = first
          · exact ⟨second, here ▸ List.rel_of_pairwise_cons apart List.mem_cons_self⟩
          · exact ⟨first, apart.forall isRule List.mem_cons_self here⟩
      simp only [Rule.Apart, refers, binds, true_and, and_true] at clash
      cases third <;> simp [Rule.refers, Rule.binds] at clash
    · exact (apart.forall isRule isOther same).1 ⟨refers, binds⟩
  · intro harmless
    by_cases two : 2 ≤ rules.length
    · refine List.pairwise_of_forall_mem_list fun rule isRule other isOther => ⟨?_, ?_⟩
      · rintro ⟨refers, binds⟩
        exact harmless ⟨⟨⟨rule, isRule, refers⟩, other, isOther, binds⟩, two⟩
      · rintro ⟨refers, binds⟩
        exact harmless ⟨⟨⟨other, isOther, refers⟩, rule, isRule, binds⟩, two⟩
    · match rules, two with
      | [], _ => exact .nil
      | [rule], _ => exact List.pairwise_singleton _ _
      | _ :: _ :: _, few => exact absurd (by simp) few

/-! ## Layout -/

theorem exists_mem_outlineAll {nodes : List Node} {symbol name : String}
    {gather : Node → List String} (same : ∀ node : Node, gather node.outline = gather node)
    (quiet : ∀ {node : Node}, node.calls symbol = [] → gather node = []) :
    (∃ node ∈ Node.outlineAll nodes, name ∈ gather node) ↔ ∃ node ∈ nodes, name ∈ gather node := by
  constructor
  · rintro ⟨outlined, member, gathered⟩
    obtain ⟨node, isNode, -, rfl⟩ := (Node.mem_outlineAll nodes).mp member
    exact ⟨node, isNode, by rwa [same] at gathered⟩
  · rintro ⟨node, isNode, gathered⟩
    cases trivia : node.isTrivia with
    | true => simp [quiet (Syntax.Node.calls_of_isTrivia trivia)] at gathered
    | false =>
      exact ⟨node.outline, (Node.mem_outlineAll nodes).mpr ⟨node, isNode, trivia, rfl⟩,
        by rwa [same]⟩

theorem apart_outline {symbol : String} {first second : Node} :
    Apart symbol first.outline second.outline ↔ Apart symbol first second := by
  simp only [Apart, WrapsResult, Syntax.Node.calledOn_outline, Syntax.Node.boundToCalls_outline]

theorem pairwise_apart_outlineAll {nodes : List Node} {symbol : String} :
    (Node.outlineAll nodes).Pairwise (Apart symbol) ↔ nodes.Pairwise (Apart symbol) := by
  rw [Node.outlineAll_eq_map, List.pairwise_map, List.pairwise_filter]
  simp only [apart_outline]
  refine ⟨fun apart => apart.imp fun {first second} solid => ?_,
    fun apart => apart.imp fun apart _ _ => apart⟩
  cases trivia : first.isTrivia with
  | true => exact .of_silent (.inl (Syntax.Node.calls_of_isTrivia trivia))
  | false =>
    cases trivia' : second.isTrivia with
    | true => exact .of_silent (.inr (Syntax.Node.calls_of_isTrivia trivia'))
    | false => exact solid (by simp [trivia]) (by simp [trivia'])

/-! ## Answers -/

section Answers

variable {criteria : Component.Criteria} {style : QuoteStyle} {markup : Bool}
  {text name output : String} {root : Node} {target : ImportTarget} {rules : List Rule}

theorem kind_of_parse (parsed : Syntax.parse markup text = some root) : root.kind = .program := by
  unfold Syntax.parse at parsed
  dsimp only at parsed
  split at parsed
  · cases parsed
  · rw [← Option.some.inj parsed]

/-- The calls on names that are bound to calls, statement by statement. -/
theorem calls_on_bound_iff {symbol : String} (isProgram : root.kind = .program) :
    (∃ call ∈ root.calls symbol, ∃ bound value, call.argumentName? = some bound
        ∧ (bound, value) ∈ Declaration.localBindings root ∧ value.isCallTo symbol = true) ↔
      ∃ bound, (∃ node ∈ root.children, bound ∈ node.calledOn symbol)
        ∧ ∃ node ∈ root.children, bound ∈ node.boundToCalls symbol := by
  have calls : root.calls symbol = root.children.flatMap (Node.calls symbol) :=
    calls_of_kind (by simp [isProgram])
  simp only [calls, List.mem_flatMap, Syntax.Node.mem_localBindings, Syntax.Node.mem_boundToCalls,
    Node.calledOn, List.mem_filterMap]
  constructor
  · rintro ⟨call, ⟨node, isChild, isCall⟩, bound, value, named, ⟨binder, isChild', binds⟩, wrapped⟩
    exact ⟨bound, ⟨node, isChild, call, isCall, named⟩, binder, isChild', value, binds, wrapped⟩
  · rintro ⟨bound, ⟨node, isChild, call, isCall, named⟩, binder, isChild', value, binds, wrapped⟩
    exact ⟨call, ⟨node, isChild, isCall⟩, bound, value, named, ⟨binder, isChild', binds⟩, wrapped⟩

/-- In a module that does not call the wrapper, a wrap makes the module call it on a name that is
bound to a call to it exactly if some rule that fires refers to the name and some rule binds it.
Unless a function alone is wrapped, whose own export is both, the two are then different
statements. -/
theorem wraps_twice_iff (parsed : Syntax.parse markup text = some root)
    (uncalled : root.calls target.symbol = [])
    (answer : transform criteria style text root name target = .ok (.wrapped output rules))
    (readsBack : (Rewrite.of criteria style text root name target.symbol).ReadsBack markup root
      target output) :
    ∃ outputRoot, Syntax.parse markup output = some outputRoot
      ∧ ((∃ call ∈ outputRoot.calls target.symbol, ∃ bound value,
            call.argumentName? = some bound
            ∧ (bound, value) ∈ Declaration.localBindings outputRoot
            ∧ value.isCallTo target.symbol = true) ↔
          (∃ rule ∈ rules, rule.refers = true) ∧ ∃ rule ∈ rules, rule.binds = true)
      ∧ (¬ outputRoot.children.Pairwise (Apart target.symbol) ↔
          ((∃ rule ∈ rules, rule.refers = true) ∧ ∃ rule ∈ rules, rule.binds = true)
            ∧ 2 ≤ rules.length) := by
  obtain ⟨outputRoot, reads, outlined⟩ := Option.map_eq_some_iff.mp readsBack
  obtain ⟨-, -, -, rfl⟩ := transform_eq_wrapped_iff.mp answer
  generalize isRewrite :
    Rewrite.of criteria style text root name target.symbol = rewrite at outlined
  have symbol : rewrite.symbol = target.symbol := by rw [← isRewrite]; rfl
  rw [← symbol] at uncalled ⊢
  have shapes := fun statement (member : statement ∈ root.children) =>
    Syntax.exportShape_of_parse parsed member
  have children : Node.outlineAll outputRoot.children =
      Node.outlineAll (rewrite.edited root target).children := by
    simpa using congrArg Node.children outlined
  refine ⟨outputRoot, reads, ?_, ?_⟩
  · have called : ∀ bound, (∃ node ∈ outputRoot.children, bound ∈ node.calledOn rewrite.symbol) ↔
        bound = rewrite.name ∧ ∃ rule ∈ (rewrite.firing root).map (·.2), rule.refers = true := by
      intro bound
      have same := Syntax.Node.calledOn_outline rewrite.symbol
      have quiet := @Syntax.Node.calledOn_of_silent rewrite.symbol
      rw [← exists_mem_outlineAll same quiet, children, exists_mem_outlineAll same quiet]
      exact Rewrite.exists_mem_edited shapes uncalled quiet Rewrite.Live.calledOn bound
    have binds : ∀ bound,
        (∃ node ∈ outputRoot.children, bound ∈ node.boundToCalls rewrite.symbol) ↔
          bound = rewrite.name ∧ ∃ rule ∈ (rewrite.firing root).map (·.2), rule.binds = true := by
      intro bound
      have same := Syntax.Node.boundToCalls_outline rewrite.symbol
      have quiet := @Syntax.Node.boundToCalls_of_silent rewrite.symbol
      rw [← exists_mem_outlineAll same quiet, children, exists_mem_outlineAll same quiet]
      exact Rewrite.exists_mem_edited shapes uncalled quiet Rewrite.Live.boundToCalls bound
    rw [calls_on_bound_iff (kind_of_parse reads)]
    simp only [called, binds]
    constructor
    · rintro ⟨bound, ⟨-, refers⟩, -, binds⟩
      exact ⟨refers, binds⟩
    · rintro ⟨refers, binds⟩
      exact ⟨rewrite.name, ⟨rfl, refers⟩, rfl, binds⟩
  · rw [← pairwise_apart_outlineAll, children, pairwise_apart_outlineAll,
      Rewrite.pairwise_apart_edited shapes uncalled, pairwise_apart_rules, Classical.not_not]

end Answers

/-- A default reference alone is wrapped once. -/
theorem wraps_reference_once :
    ∃ root output outputRoot, Syntax.parse true exportedBinding = some root
      ∧ transform .standard .single exportedBinding root "A" ⟨"w", "m"⟩ =
        .ok (.wrapped output [.defaultIdentifier])
      ∧ Syntax.parse true output = some outputRoot
      ∧ ¬ (∃ call ∈ outputRoot.calls "w", ∃ bound value, call.argumentName? = some bound
        ∧ (bound, value) ∈ Declaration.localBindings outputRoot ∧ value.isCallTo "w" = true)
      ∧ outputRoot.children.Pairwise (Apart "w") := by
  have passes : wrapPasses exportedBinding (fun root output rules =>
      decide (root.calls "w" = [] ∧ rules = [.defaultIdentifier]
        ∧ (Rewrite.of .standard .single exportedBinding root "A" "w").ReadsBack true root ⟨"w", "m"⟩
          output)) = true := by
    decide +kernel
  obtain ⟨root, output, _, parsed, answer, holds⟩ := exists_of_wrapPasses passes
  obtain ⟨uncalled, rfl, readsBack⟩ := of_decide_eq_true holds
  obtain ⟨outputRoot, reads, wrapsBound, clashes⟩ :=
    wraps_twice_iff parsed uncalled answer readsBack
  refine ⟨root, output, outputRoot, parsed, answer, reads, mt wrapsBound.mp (by decide), ?_⟩
  exact Classical.not_not.mp (mt clashes.mp (by decide))

/-- An exported variable, and a default export that refers to it. -/
def exportedTwice : String :=
  "export let A=memo();export default A"

/-- What a wrap makes of the two. -/
def wrappedTwice : String :=
  "import \x7b w \x7d from 'm';\nexport let A=w(memo(), 'A');export default w(A, 'A')"

/-- The reference wraps what the variable already is. -/
theorem wraps_variable_and_reference :
    ∃ root outputRoot, Syntax.parse true exportedTwice = some root ∧ root.calls "w" = []
      ∧ transform .standard .single exportedTwice root "A" ⟨"w", "m"⟩ =
        .ok (.wrapped wrappedTwice [.namedVariable, .defaultIdentifier])
      ∧ Syntax.parse true wrappedTwice = some outputRoot
      ∧ ∃ call ∈ outputRoot.calls "w", ∃ bound value, call.argumentName? = some bound
        ∧ (bound, value) ∈ Declaration.localBindings outputRoot ∧ value.isCallTo "w" = true := by
  have passes : wrapPasses exportedTwice (fun root output rules =>
      decide (root.calls "w" = [] ∧ output = wrappedTwice
          ∧ rules = [.namedVariable, .defaultIdentifier])
        && (Syntax.parse true output).any fun outputRoot => (outputRoot.calls "w").any fun call =>
          (Declaration.localBindings outputRoot).any fun binding =>
            call.argumentName? == some binding.1 && binding.2.isCallTo "w") = true := by
    decide +kernel
  obtain ⟨root, output, _, parsed, answer, holds⟩ := exists_of_wrapPasses passes
  simp only [Option.any_eq_true, List.any_eq_true, Bool.and_eq_true, decide_eq_true_eq,
    beq_iff_eq] at holds
  obtain ⟨⟨uncalled, rfl, rfl⟩, outputRoot, reads, call, isCall, ⟨bound, value⟩, binds, named,
    wrapped⟩ := holds
  exact ⟨root, outputRoot, parsed, uncalled, answer, reads, call, isCall, bound, value, named,
    binds, wrapped⟩

end RenderProbe.Wrap
