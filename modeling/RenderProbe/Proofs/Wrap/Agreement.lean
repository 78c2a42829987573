import RenderProbe.Proofs.Component.Exports
import RenderProbe.Proofs.Syntax.ExportShape
import RenderProbe.Proofs.Wrap.Firing

/-!
# Detection and wrapping agree

Detection collects the exports of a module and judges each of them; the rewriting rules look for the
wanted name in the export statements on their own. Both come to the same verdict on every statement
of a parsed source: a rule wraps something in it exactly when detection accepts one of its exports
of the name that is `Wrappable`.

* `wraps_iff_accepted`: the two verdicts on one statement.
* `agrees_with_detection`: what follows for a whole module and its candidates.
-/

namespace RenderProbe.Wrap

open Syntax (Node ExportShape)
open Component (Criteria)

/-- A value that looks through to a function, or to a call of one of the helpers. -/
def IsFunctionOrHelperCall (helpers : List String) (value : Node) : Prop :=
  ∃ inner, value.unwrap = some inner
    ∧ (inner.kind = .arrowFunction ∨ inner.kind = .functionExpression
      ∨ inner.kind = .call ∧ ∃ callee ∈ helpers, inner.calleeName? = some callee)

/-- The exports of a statement that can be wrapped: functions, classes, variables with a component
as their value, and default references. -/
inductive Wrappable (helpers : List String) (symbol : String) (statement : Node) :
    Declaration → Prop
  /-- A default function or class that stands directly in the statement, not in parentheses. -/
  | defaultDeclaration {name : String} {kind : DeclarationKind} {node : Node}
    (shape : kind = .function ∨ kind = .classDeclaration)
    (direct : statement.child? .declaration = some node ∨ statement.child? .value = some node) :
    Wrappable helpers symbol statement ⟨name, kind, .default, some node⟩
  /-- A default value that looks through to the name. -/
  | defaultReference {name : String} {value reference : Node} {defined : Option Node}
    (keyword : statement.hasKeyword "default" = true)
    (valued : statement.child? .value = some value) (unwrapped : value.unwrap = some reference)
    (isName : reference.kind = .identifier) (named : reference.lexeme = name) :
    Wrappable helpers symbol statement ⟨name, .reference, .default, defined⟩
  /-- A function declaration that is exported by its name. -/
  | namedFunction {name : String} {node : Node} (isFunction : node.kind = .functionDeclaration) :
    Wrappable helpers symbol statement ⟨name, .function, .named, some node⟩
  /-- A variable with a component as its value that is not wrapped yet. -/
  | namedVariable {name : String} {value : Node} (likely : IsFunctionOrHelperCall helpers value)
    (unwrapped : value.isCallTo symbol = false) :
    Wrappable helpers symbol statement ⟨name, .initializer, .named, some value⟩

section Statements

variable {aim : Aim} {statement : Node} {bindings : List (String × Node)}

theorem isLikelyComponent_iff {helpers : List String} {value : Node} :
    isLikelyComponent helpers value = true ↔ IsFunctionOrHelperCall helpers value := by
  simp only [isLikelyComponent, IsFunctionOrHelperCall, Option.any_eq_true]
  refine exists_congr fun inner => and_congr_right fun _ => ?_
  cases inner.kind <;> simp [Option.any_eq_true, and_comm]

/-- A default reference is judged by its name alone. -/
theorem accepts_reference (criteria : Criteria) (name : String) (node : Option Node) :
    criteria.accepts ⟨name, .reference, .default, node⟩ = Component.isComponentName name := by
  simp [Criteria.accepts, Component.acceptingRules, Criteria.holds]

/-- An export that detection accepts and that can be wrapped. -/
def AcceptedIn (aim : Aim) (bindings : List (String × Node)) (statement : Node) : Prop :=
  ∃ declaration ∈ Declaration.statementExports bindings statement,
    declaration.name = aim.name ∧ aim.criteria.accepts declaration = true
      ∧ Wrappable aim.criteria.helpers aim.symbol statement declaration

/-- A function or class declares itself in the shape that the first rule judges. -/
theorem mem_declared_default {exportKind : ExportKind} {node : Node} {name : String}
    (named : node.declaredName? = some name)
    (isKind : node.kind = .functionDeclaration ∨ node.kind = .functionExpression
      ∨ Declaration.isClassKind node.kind = true) :
    ⟨name, Aim.defaultKind node, exportKind, some node⟩ ∈ Declaration.declared exportKind node := by
  rw [Declaration.mem_declared]
  cases isClass : Declaration.isClassKind node.kind with
  | true => exact .inr (.inl ⟨rfl, name, named, by simp [Aim.defaultKind, isClass]⟩)
  | false =>
    simp only [isClass, Bool.false_eq_true, or_false] at isKind
    exact .inl ⟨isKind, name, named, by simp [Aim.defaultKind, isClass]⟩

/-! ## From a rule to detection -/

section Wrapped

variable {node : Node} (exported : statement.kind = .exportStatement)
  (shape : ExportShape statement)
include exported shape

theorem accepted_of_defaultDeclaration (wraps : aim.defaultDeclaration? statement = some node) :
    AcceptedIn aim bindings statement := by
  obtain ⟨keyword, found, accepted⟩ := Aim.defaultDeclaration?_eq_some.mp wraps
  simp only [Aim.acceptsDefault, Bool.and_eq_true, beq_iff_eq] at accepted
  obtain ⟨named, accepted⟩ := accepted
  have kind : Aim.defaultKind node = .function ∨ Aim.defaultKind node = .classDeclaration := by
    unfold Aim.defaultKind
    split
    · exact .inr rfl
    · exact .inl rfl
  have isNode := kind_of_defaultFunctionOrClass? found
  rcases of_defaultFunctionOrClass? found with ⟨declared, -⟩ | ⟨undeclared, valued, isKind⟩
  · refine ⟨_, ?_, rfl, accepted, .defaultDeclaration kind (.inl declared)⟩
    refine (Declaration.mem_statementExports exported (shape.untyped_of_declaration declared)).mpr
      (.inr (.inr (.inl ⟨node, declared, ?_⟩)))
    simpa [Declaration.exportKindOf, keyword] using mem_declared_default named isNode
  · -- A function or class is not looked through, so it is the value that detection judges.
    have direct : node.unwrap = some node ∧ node.kind ≠ .identifier := by
      refine ⟨Node.unwrap_of_not_transparent ?_, ?_⟩ <;> rcases isKind with same | same <;>
        simp [same, Syntax.Kind.isTransparent]
    have value :=
      Declaration.defaultValue?_eq_some.mpr ⟨keyword, undeclared, node, valued, direct.1⟩
    refine ⟨_, ?_, rfl, accepted, .defaultDeclaration kind (.inr valued)⟩
    exact (Declaration.mem_statementExports exported (shape.untyped_of_value valued)).mpr
      (.inr (.inl ⟨node, value, direct.2, mem_declared_default named isNode⟩))

theorem accepted_of_defaultValue (replaces : aim.defaultValue? statement = some node) :
    AcceptedIn aim bindings statement := by
  obtain ⟨keyword, undeclared, valued, accepted⟩ := Aim.defaultValue?_eq_some.mp replaces
  simp only [Aim.acceptsReference, Bool.and_eq_true, Option.any_eq_true, beq_iff_eq] at accepted
  obtain ⟨⟨reference, unwrapped, isName, named⟩, accepted⟩ := accepted
  have value := Declaration.defaultValue?_eq_some.mpr ⟨keyword, undeclared, node, valued, unwrapped⟩
  rw [accepts_reference] at accepted
  have handedOut : ⟨reference.lexeme, .reference, .default, bindings.lookup reference.lexeme⟩ ∈
      Declaration.statementExports bindings statement :=
    (Declaration.mem_statementExports exported (shape.untyped_of_value valued)).mpr
      (.inl ⟨reference, value, isName, rfl⟩)
  refine ⟨_, handedOut, named, ?_, .defaultReference keyword valued unwrapped isName rfl⟩
  rw [accepts_reference, named]
  exact accepted

theorem accepted_of_declarator (wraps : node ∈ aim.declarators statement) :
    AcceptedIn aim bindings statement := by
  obtain ⟨keyword, declaration, found, member, wraps⟩ := Aim.mem_declarators.mp wraps
  simp only [Aim.wrapsDeclarator, Bool.and_eq_true, Option.any_eq_true, beq_iff_eq] at wraps
  obtain ⟨⟨name, named, lexeme⟩, value, valued, accepted⟩ := wraps
  simp only [Aim.acceptsInitializer, Bool.and_eq_true, Bool.not_eq_true'] at accepted
  obtain ⟨⟨unwrapped, likely⟩, accepted⟩ := accepted
  have isName : name.kind = .identifier := by
    rcases shape.named declaration found node member name named with isName | empty
    · exact isName
    · exact absurd (lexeme.symm.trans empty) (Component.ne_empty_of_accepts accepted)
  refine ⟨⟨aim.name, .initializer, .named, some value⟩, ?_, rfl, accepted,
    .namedVariable (isLikelyComponent_iff.mp likely) unwrapped⟩
  refine (Declaration.mem_statementExports exported (shape.untyped_of_declaration found)).mpr
    (.inr (.inr (.inl ⟨declaration, found, Declaration.mem_declared.mpr (.inr (.inr ?_))⟩)))
  exact ⟨node, member, name, named, isName, by
    simp [lexeme, valued, Declaration.exportKindOf, keyword]⟩

theorem accepted_of_function (wraps : aim.function? statement = some node) :
    AcceptedIn aim bindings statement := by
  obtain ⟨keyword, found, accepted⟩ := Aim.function?_eq_some.mp wraps
  simp only [Aim.acceptsFunction, Bool.and_eq_true, beq_iff_eq] at accepted
  obtain ⟨⟨isFunction, named⟩, accepted⟩ := accepted
  refine ⟨_, ?_, rfl, accepted, .namedFunction isFunction⟩
  refine (Declaration.mem_statementExports exported (shape.untyped_of_declaration found)).mpr
    (.inr (.inr (.inl ⟨node, found, Declaration.mem_declared.mpr (.inl ⟨.inl isFunction, ?_⟩)⟩)))
  exact ⟨aim.name, named, by simp [Declaration.exportKindOf, keyword]⟩

end Wrapped

/-! ## From detection to a rule -/

section Accepted

variable {declaration : Declaration}
  (member : declaration ∈ Declaration.statementExports bindings statement)
  (accepted : aim.criteria.accepts declaration = true)
include member accepted

theorem wraps_named_function {node : Node} (isFunction : node.kind = .functionDeclaration)
    (same : declaration = ⟨aim.name, .function, .named, some node⟩) :
    aim.function? statement = some node := by
  subst same
  obtain ⟨keyword, declared, found, inNode⟩ :=
    Declaration.declared_of_named member rfl (by simp)
  refine Aim.function?_eq_some.mpr ?_
  rcases Declaration.mem_declared.mp inNode with
    ⟨-, name, named, same⟩ | ⟨-, _, -, same⟩ | ⟨_, -, _, -, -, same⟩
  · cases same
    exact ⟨keyword, found, by simp [Aim.acceptsFunction, isFunction, named, accepted]⟩
  · cases same
  · simp at same

theorem wraps_named_variable {value : Node} (unwrapped : value.isCallTo aim.symbol = false)
    (likely : IsFunctionOrHelperCall aim.criteria.helpers value)
    (same : declaration = ⟨aim.name, .initializer, .named, some value⟩) :
    ∃ declarator, declarator ∈ aim.declarators statement := by
  subst same
  obtain ⟨keyword, declared, found, inNode⟩ :=
    Declaration.declared_of_named member rfl (by simp)
  rcases Declaration.mem_declared.mp inNode with
    ⟨-, name, -, same⟩ | ⟨-, _, -, same⟩ | ⟨declarator, inVariables, name, named, -, same⟩
  · cases same
  · cases same
  · simp only [Declaration.mk.injEq, true_and] at same
    refine ⟨declarator, Aim.mem_declarators.mpr ⟨keyword, declared, found, inVariables, ?_⟩⟩
    simp [Aim.wrapsDeclarator, Aim.acceptsInitializer, named, ← same.1, ← same.2, unwrapped,
      accepted, isLikelyComponent_iff.mpr likely]

theorem wraps_default_reference {defined : Option Node} {value reference : Node}
    (keyword : statement.hasKeyword "default" = true)
    (valued : statement.child? .value = some value) (unwrapped : value.unwrap = some reference)
    (isName : reference.kind = .identifier) (named : reference.lexeme = aim.name)
    (same : declaration = ⟨aim.name, .reference, .default, defined⟩) :
    aim.defaultValue? statement = some value := by
  subst same
  obtain ⟨exported, untyped⟩ := Declaration.exported_of_mem_statementExports member
  have undeclared : statement.child? .declaration = none := by
    rcases (Declaration.mem_statementExports exported untyped).mp member with
      ⟨_, found, -⟩ | ⟨_, -, -, inValue⟩ | ⟨_, -, inNode⟩ | ⟨-, undeclared, -⟩
    · exact (Declaration.defaultValue?_eq_some.mp found).2.1
    · exact absurd rfl (Declaration.kind_of_mem_declared inValue)
    · exact absurd rfl (Declaration.kind_of_mem_declared inNode)
    · exact undeclared
  refine Aim.defaultValue?_eq_some.mpr ⟨keyword, undeclared, valued, ?_⟩
  rw [accepts_reference] at accepted
  simp [Aim.acceptsReference, unwrapped, isName, named, accepts_reference, accepted]

/-- A function or class that detection accepts is one that the first rule judges. -/
theorem accepts_default_function_or_class {kind : DeclarationKind} {node : Node}
    (same : declaration = ⟨aim.name, kind, .default, some node⟩)
    (isKind : kind = .function ∨ kind = .classDeclaration) :
    aim.acceptsDefault node = true
      ∧ (node.kind = .functionDeclaration ∨ node.kind = .functionExpression
        ∨ Declaration.isClassKind node.kind = true)
      ∧ statement.hasKeyword "default" = true
      ∧ (statement.child? .declaration = some node
        ∨ statement.child? .declaration = none ∧ ∃ written,
          statement.child? .value = some written ∧ written.unwrap = some node) := by
  subst same
  obtain ⟨keyword, declared, inNode, place⟩ := Declaration.declared_of_default member rfl
    (by rcases isKind with rfl | rfl <;> simp)
  rcases Declaration.mem_declared.mp inNode with
    ⟨isFunction, _, named, same⟩ | ⟨isClass, _, named, same⟩ | ⟨_, -, _, -, -, same⟩
  · cases same
    have unclassed : Declaration.isClassKind node.kind = false := by
      rcases isFunction with same | same <;> rw [same] <;> rfl
    refine ⟨?_, ?_, keyword, place⟩
    · simp [Aim.acceptsDefault, Aim.defaultKind, named, unclassed, accepted]
    · rcases isFunction with same | same
      · exact .inl same
      · exact .inr (.inl same)
  · cases same
    refine ⟨?_, .inr (.inr isClass), keyword, place⟩
    simp [Aim.acceptsDefault, Aim.defaultKind, named, isClass, accepted]
  · simp only [Declaration.mk.injEq] at same
    rw [same.2.1] at isKind
    rcases isKind with impossible | impossible <;> cases impossible

theorem wraps_default_declaration (shape : ExportShape statement) {kind : DeclarationKind}
    {node : Node} (isKind : kind = .function ∨ kind = .classDeclaration)
    (direct : statement.child? .declaration = some node ∨ statement.child? .value = some node)
    (same : declaration = ⟨aim.name, kind, .default, some node⟩) :
    aim.defaultDeclaration? statement = some node := by
  obtain ⟨accepted, isNode, keyword, place⟩ :=
    accepts_default_function_or_class member accepted same isKind
  refine Aim.defaultDeclaration?_eq_some.mpr ⟨keyword, ?_, accepted⟩
  rcases place with declared | ⟨undeclared, written, valued, -⟩
  · rw [defaultFunctionOrClass?, declared]
    rcases isNode with same | same | same <;> simp [same]
  · rcases direct with declared | valued
    · simp [undeclared] at declared
    -- A value is an expression, so it is no declaration of a function or class.
    · have expression : node.kind = .functionExpression ∨ node.kind = .classExpression := by
        have undeclaring := shape.valued node valued
        rcases isNode with same | same | same
        · simp [same, Syntax.declarationKinds] at undeclaring
        · exact .inl same
        · revert same undeclaring
          cases node.kind <;> simp [Declaration.isClassKind, Syntax.declarationKinds]
      rw [defaultFunctionOrClass?, undeclared, valued]
      rcases expression with same | same <;> simp [same]

end Accepted

/-- A rule wraps something in an export statement exactly when detection accepts one of its exports
of the name that can be wrapped. -/
theorem wraps_iff_accepted (exported : statement.kind = .exportStatement)
    (shape : ExportShape statement) :
    (∃ rule, aim.wrapped statement rule ≠ []) ↔ AcceptedIn aim bindings statement := by
  constructor
  · rintro ⟨rule, wraps⟩
    obtain ⟨node, wraps⟩ := List.exists_mem_of_ne_nil _ wraps
    cases rule with
    | defaultDeclaration =>
      exact accepted_of_defaultDeclaration exported shape (Option.mem_toList.mp wraps)
    | defaultIdentifier =>
      exact accepted_of_defaultValue exported shape (Option.mem_toList.mp wraps)
    | namedVariable => exact accepted_of_declarator exported shape wraps
    | namedFunction => exact accepted_of_function exported shape (Option.mem_toList.mp wraps)
  · rintro ⟨declaration, member, named, accepted, wrappable⟩
    cases wrappable with
    | defaultDeclaration isKind direct =>
      subst named
      exact ⟨.defaultDeclaration, by
        simp [Aim.wrapped, wraps_default_declaration member accepted shape isKind direct rfl]⟩
    | defaultReference keyword valued unwrapped isName reference =>
      subst named
      exact ⟨.defaultIdentifier, by
        simp [Aim.wrapped, wraps_default_reference member accepted keyword valued unwrapped isName
          reference rfl]⟩
    | namedFunction isFunction =>
      subst named
      exact ⟨.namedFunction, by
        simp [Aim.wrapped, wraps_named_function member accepted isFunction rfl]⟩
    | namedVariable likely unwrapped =>
      subst named
      obtain ⟨declarator, wraps⟩ := wraps_named_variable member accepted unwrapped likely rfl
      exact ⟨.namedVariable, List.ne_nil_of_mem wraps⟩

end Statements

/-! ## Modules -/

section Modules

variable {criteria : Criteria} {style : QuoteStyle} {markup : Bool} {text name : String}
  {root : Node} {target : ImportTarget}

/-- The rules have patches for a name exactly when detection accepts an export of the name that can
be wrapped. -/
theorem rulePatches_ne_nil_iff (parsed : Syntax.parse markup text = some root) :
    (Rewrite.of criteria style text root name target.symbol).rulePatches root ≠ [] ↔
      ∃ statement ∈ root.namedChildren,
        AcceptedIn ⟨criteria, name, target.symbol⟩ (Declaration.localBindings root) statement := by
  rw [ne_eq, Rewrite.rulePatches_eq_nil_iff, Rewrite.firing_eq_nil_iff]
  have shaped : ∀ statement ∈ root.namedChildren, statement.kind = .exportStatement →
      ExportShape statement := fun statement member exported =>
    Syntax.exportShape_of_parse parsed (List.mem_filter.mp member).1 exported
  constructor
  · intro unsettled
    simp only [Aim.Settled, Classical.not_forall] at unsettled
    obtain ⟨statement, member, exported, wraps⟩ := unsettled
    exact ⟨statement, member,
      (wraps_iff_accepted exported (shaped statement member exported)).mp wraps⟩
  · rintro ⟨statement, member, accepted⟩ settled
    have exported : statement.kind = .exportStatement := by
      obtain ⟨_, inStatement, -⟩ := accepted
      exact (Declaration.exported_of_mem_statementExports inStatement).1
    obtain ⟨rule, wraps⟩ :=
      (wraps_iff_accepted exported (shaped statement member exported)).mpr accepted
    exact wraps (settled statement member exported rule)

/-- Detection and wrapping agree on every parsed source: the rules have patches only for names that
detection reports, a name that it does not report is answered with no match, and an accepted export
that can be wrapped has patches. -/
theorem agrees_with_detection (parsed : Syntax.parse markup text = some root) :
    ((Rewrite.of criteria style text root name target.symbol).rulePatches root ≠ [] →
        name ∈ (Component.candidates criteria root).map (·.name))
      ∧ (name ∉ (Component.candidates criteria root).map (·.name) →
        transform criteria style text root name target = .ok (.untouched .noMatch))
      ∧ ∀ statement ∈ root.namedChildren,
        ∀ declaration ∈ Declaration.statementExports (Declaration.localBindings root) statement,
          declaration.name = name → criteria.accepts declaration = true →
          Wrappable criteria.helpers target.symbol statement declaration →
          (Rewrite.of criteria style text root name target.symbol).rulePatches root ≠ []
            ∧ transform criteria style text root name target ≠ .ok (.untouched .noMatch) := by
  have reported : (Rewrite.of criteria style text root name target.symbol).rulePatches root ≠ [] →
      name ∈ (Component.candidates criteria root).map (·.name) := by
    intro patches
    obtain ⟨statement, member, declaration, inStatement, named, accepted, -⟩ :=
      (rulePatches_ne_nil_iff parsed).mp patches
    exact Component.mem_names_candidates.mpr
      ⟨statement, member, declaration, inStatement, named, accepted⟩
  refine ⟨reported, fun unreported => ?_, ?_⟩
  · rw [transform_eq_noMatch_iff, ← Rewrite.rulePatches_eq_nil_iff]
    exact Classical.byContradiction fun patches => unreported (reported patches)
  · intro statement member declaration inStatement named accepted wrappable
    have patches :
        (Rewrite.of criteria style text root name target.symbol).rulePatches root ≠ [] :=
      (rulePatches_ne_nil_iff parsed).mpr
        ⟨statement, member, declaration, inStatement, named, accepted, wrappable⟩
    refine ⟨patches, fun unmatched => patches ?_⟩
    rw [Rewrite.rulePatches_eq_nil_iff, ← transform_eq_noMatch_iff]
    exact unmatched

end Modules

/-- A default export of a name. -/
def exportingText : String :=
  "export default A"

/-- The reference in it. -/
def exportedReference : Node :=
  ⟨.identifier, .value, ⟨15, 16, 0, 0⟩, "A", []⟩

/-- Its statement. -/
def exportingStatement : Node :=
  ⟨.exportStatement, .plain, ⟨0, 16, 0, 0⟩, "",
    [⟨.token, .plain, ⟨0, 6, 0, 0⟩, "export", []⟩, ⟨.token, .plain, ⟨7, 14, 0, 0⟩, "default", []⟩,
      exportedReference]⟩

/-- Its module. -/
def exportingModule : Node :=
  ⟨.program, .plain, ⟨0, 16, 0, 0⟩, "", [exportingStatement]⟩

theorem agrees_with_detection_reference :
    ∃ root, Syntax.parse true exportingText = some root
      ∧ "A" ∈ (Component.candidates .standard root).map (·.name)
      ∧ transform .standard .single exportingText root "A" ⟨"w", "m"⟩ ≠
        .ok (.untouched .noMatch)
      ∧ transform .standard .single exportingText root "B" ⟨"w", "m"⟩ =
        .ok (.untouched .noMatch) := by
  have parsed : Syntax.parse true exportingText = some exportingModule := by decide +kernel
  have wrappable : Wrappable Component.defaultHelpers "w" exportingStatement
      ⟨"A", .reference, .default, none⟩ :=
    .defaultReference rfl (show _ = some exportedReference from rfl)
      (show _ = some exportedReference from rfl) rfl rfl
  have agrees := fun name =>
    @agrees_with_detection .standard .single true _ name exportingModule ⟨"w", "m"⟩ parsed
  have member : exportingStatement ∈ exportingModule.namedChildren := by decide
  have exports : Declaration.statementExports (Declaration.localBindings exportingModule)
      exportingStatement = [⟨"A", .reference, .default, none⟩] := rfl
  obtain ⟨patches, matched⟩ := (agrees "A").2.2 exportingStatement member
    ⟨"A", .reference, .default, none⟩ (by simp [exports]) rfl (by decide) wrappable
  exact ⟨exportingModule, parsed, (agrees "A").1 patches, matched, (agrees "B").2.1 (by decide)⟩

end RenderProbe.Wrap
