import RenderProbe.Component.Detection

/-!
# Outlines of syntax trees

The outline of a tree is the tree without its layout: no byte ranges, no rows, no comments. Two
sources with one outline hold the same statements, however they are laid out.

Detection and the rewriting rules read nothing but the outline. The lemmas below say so of every
reading they make: `X_outline` says that `X` of the outline is `X` of the tree, or the outline of it
where `X` answers with a node.
-/

namespace RenderProbe.Syntax.Node

/-- A comment as parsers leave it: a leaf that plays no part in its parent. -/
def isTrivia (node : Node) : Bool :=
  node.kind == .comment && node.role == .plain && node.children.isEmpty

mutual

/-- The tree without byte ranges, rows and comments. -/
def outline : Node → Node
  | ⟨kind, role, _, lexeme, children⟩ => ⟨kind, role, default, lexeme, outlineAll children⟩

/-- The outlines of a row of nodes, comments left out. -/
def outlineAll : List Node → List Node
  | [] => []
  | node :: rest => if node.isTrivia then outlineAll rest else node.outline :: outlineAll rest

end

mutual

/-- Trees are compared node by node. -/
def decEq : ∀ a b : Node, Decidable (a = b)
  | ⟨kind, role, span, lexeme, children⟩, ⟨kind', role', span', lexeme', children'⟩ =>
    match decEqAll children children' with
    | isFalse differ => isFalse fun same => differ (by injection same)
    | isTrue same =>
      if fields : kind = kind' ∧ role = role' ∧ span = span' ∧ lexeme = lexeme' then
        isTrue (by obtain ⟨rfl, rfl, rfl, rfl⟩ := fields; rw [same])
      else isFalse fun equal => fields (by injection equal; exact ⟨‹_›, ‹_›, ‹_›, ‹_›⟩)

/-- Rows of trees are compared tree by tree. -/
def decEqAll : ∀ a b : List Node, Decidable (a = b)
  | [], [] => isTrue rfl
  | [], _ :: _ => isFalse nofun
  | _ :: _, [] => isFalse nofun
  | node :: rest, node' :: rest' =>
    match decEq node node', decEqAll rest rest' with
    | isTrue head, isTrue tail => isTrue (by rw [head, tail])
    | isFalse differ, _ => isFalse fun same => differ (by injection same)
    | _, isFalse differ => isFalse fun same => differ (by injection same)

end

instance : DecidableEq Node :=
  decEq

theorem unwrap_of_not_transparent {node : Node} (solid : node.kind.isTransparent = false) :
    node.unwrap = some node := by
  cases node
  simp_all [unwrap]

theorem kind_of_mem_declarators {declaration declarator : Node}
    (member : declarator ∈ declaration.declarators) : declaration.kind = .variableDeclaration := by
  by_cases isVariables : declaration.kind = .variableDeclaration
  · exact isVariables
  · simp [declarators, isVariables] at member

theorem kind_of_mem_declarators' {declaration declarator : Node}
    (member : declarator ∈ declaration.declarators) : declarator.kind = .declarator := by
  simp only [declarators] at member
  split at member
  · simpa using (List.mem_filter.mp member).2
  · cases member

theorem mem_children_of_mem_declarators {declaration declarator : Node}
    (member : declarator ∈ declaration.declarators) : declarator ∈ declaration.children := by
  simp only [declarators] at member
  split at member
  · exact (List.mem_filter.mp member).1
  · cases member

/-! ## Fields and rows of children -/

section Rows

variable (node : Node) (nodes : List Node)

@[simp] theorem outline_kind : node.outline.kind = node.kind := by
  cases node; rfl

@[simp] theorem outline_role : node.outline.role = node.role := by
  cases node; rfl

@[simp] theorem outline_lexeme : node.outline.lexeme = node.lexeme := by
  cases node; rfl

@[simp] theorem outline_children : node.outline.children = outlineAll node.children := by
  cases node; rfl

@[simp] theorem isNamed_outline : node.outline.isNamed = node.isNamed := by
  simp [isNamed]

@[simp] theorem isMeaningful_outline : node.outline.isMeaningful = node.isMeaningful := by
  simp [isMeaningful]

@[simp] theorem lexeme?_outline : node.outline.lexeme? = node.lexeme? := by
  simp [lexeme?]

theorem outlineAll_eq_map :
    outlineAll nodes = (nodes.filter fun child => !child.isTrivia).map outline := by
  induction nodes with
  | nil => rfl
  | cons child rest ih =>
    cases trivia : child.isTrivia <;> simp [outlineAll, trivia, ih]

theorem mem_outlineAll {outlined : Node} :
    outlined ∈ outlineAll nodes ↔
      ∃ child ∈ nodes, child.isTrivia = false ∧ child.outline = outlined := by
  simp [outlineAll_eq_map, and_assoc]

end Rows

theorem kind_of_isTrivia {node : Node} (trivia : node.isTrivia = true) : node.kind = .comment := by
  simp only [isTrivia, Bool.and_eq_true, beq_iff_eq] at trivia
  exact trivia.1.1

theorem role_of_isTrivia {node : Node} (trivia : node.isTrivia = true) : node.role = .plain := by
  simp only [isTrivia, Bool.and_eq_true, beq_iff_eq] at trivia
  exact trivia.1.2

theorem children_of_isTrivia {node : Node} (trivia : node.isTrivia = true) :
    node.children = [] := by
  simp only [isTrivia, Bool.and_eq_true, List.isEmpty_iff] at trivia
  exact trivia.2

/-- A test that comments fail and that layout does not change. Counting the nodes that pass it gives
the same for a tree and its outline. -/
structure Outlined (test : Node → Bool) : Prop where
  outline : ∀ node : Node, test node.outline = test node
  trivia : ∀ node : Node, node.isTrivia = true → test node = false

namespace Outlined

variable {test : Node → Bool} (outlined : Outlined test) (nodes : List Node)

include outlined

theorem find? : (outlineAll nodes).find? test = (nodes.find? test).map Node.outline := by
  induction nodes with
  | nil => rfl
  | cons child rest ih =>
    cases trivia : child.isTrivia with
    | true => simp [outlineAll, trivia, ih, outlined.trivia child trivia]
    | false => cases passes : test child <;>
        simp [outlineAll, trivia, ih, outlined.outline, passes]

theorem filter : (outlineAll nodes).filter test = (nodes.filter test).map Node.outline := by
  induction nodes with
  | nil => rfl
  | cons child rest ih =>
    cases trivia : child.isTrivia with
    | true => simp [outlineAll, trivia, ih, outlined.trivia child trivia]
    | false => cases passes : test child <;>
        simp [outlineAll, trivia, ih, outlined.outline, passes]

theorem any : (outlineAll nodes).any test = nodes.any test := by
  induction nodes with
  | nil => rfl
  | cons child rest ih =>
    cases trivia : child.isTrivia with
    | true => simp [outlineAll, trivia, ih, outlined.trivia child trivia]
    | false => simp [outlineAll, trivia, ih, outlined.outline]

end Outlined

/-- What is gathered from a row does not depend on layout if no comment adds to it. -/
theorem flatMap_outlineAll {α : Type} {gather : Node → List α}
    (same : ∀ node : Node, gather node.outline = gather node)
    (spares : ∀ node : Node, node.kind = .comment → gather node = []) (nodes : List Node) :
    (outlineAll nodes).flatMap gather = nodes.flatMap gather := by
  induction nodes with
  | nil => rfl
  | cons child rest ih =>
    cases trivia : child.isTrivia with
    | true => simp [outlineAll, trivia, ih, spares child (kind_of_isTrivia trivia)]
    | false => simp [outlineAll, trivia, ih, same]

/-- What is gathered from the named children is gathered from all of them if no keyword or mark adds
to it. -/
theorem namedChildren_flatMap {α : Type} {gather : Node → List α}
    (spares : ∀ node : Node, node.kind = .token → gather node = []) (node : Node) :
    node.namedChildren.flatMap gather = node.children.flatMap gather := by
  unfold namedChildren
  induction node.children with
  | nil => rfl
  | cons child rest ih =>
    cases named : child.isNamed with
    | true => simp [named, ih]
    | false => simp [named, ih, spares child (by simpa [isNamed] using named)]

theorem outlined_kind {kind : Kind} (named : kind ≠ .comment) :
    Outlined fun node => node.kind == kind where
  outline := by simp
  trivia node trivia := by simpa [kind_of_isTrivia trivia] using named.symm

theorem outlined_role {role : Role} (part : role ≠ .plain) :
    Outlined fun node => node.role == role where
  outline := by simp
  trivia node trivia := by simpa [role_of_isTrivia trivia] using part.symm

/-! ## What is read of a node -/

section Readings

variable (node : Node)

theorem child?_outline {role : Role} (part : role ≠ .plain) :
    node.outline.child? role = (node.child? role).map outline := by
  rw [child?, outline_children, (outlined_role part).find?]
  rfl

@[simp] theorem hasKeyword_outline (keyword : String) :
    node.outline.hasKeyword keyword = node.hasKeyword keyword := by
  have outlined : Outlined fun child => child.kind == .token && child.lexeme == keyword :=
    ⟨by simp, fun child trivia => by simp [kind_of_isTrivia trivia]⟩
  rw [hasKeyword, outline_children, outlined.any]
  rfl

theorem namedChildren_filter_outline {test : Node → Bool} (outlined : Outlined test) :
    node.outline.namedChildren.filter test = (node.namedChildren.filter test).map outline := by
  have both : Outlined fun child => test child && child.isNamed :=
    ⟨fun child => by simp [outlined.outline],
      fun child trivia => by simp [outlined.trivia child trivia]⟩
  simp only [namedChildren, List.filter_filter, outline_children, both.filter]

theorem namedChildren_flatMap_outline {α : Type} {gather : Node → List α}
    (same : ∀ node : Node, gather node.outline = gather node)
    (spares : ∀ node : Node, node.kind = .comment → gather node = []) :
    node.outline.namedChildren.flatMap gather = node.namedChildren.flatMap gather := by
  have named : ∀ nodes : List Node, (nodes.filter isNamed).flatMap gather =
      nodes.flatMap fun child => if child.isNamed then gather child else [] := by
    intro nodes
    induction nodes with
    | nil => rfl
    | cons child rest ih => cases isNamed : child.isNamed <;> simp [isNamed, ih]
  rw [namedChildren, namedChildren, outline_children, named, named]
  exact flatMap_outlineAll (fun child => by simp [same])
    (fun child comment => by simp [spares child comment]) node.children

@[simp] theorem firstMeaningful?_outline :
    node.outline.firstMeaningful? = node.firstMeaningful?.map outline := by
  have outlined : Outlined fun child => child.isNamed && child.kind != .comment :=
    ⟨by simp, fun child trivia => by simp [kind_of_isTrivia trivia]⟩
  rw [firstMeaningful?, outline_children, outlined.find?]
  rfl

@[simp] theorem declarators_outline :
    node.outline.declarators = node.declarators.map outline := by
  have filtered := (outlined_kind (by decide : Kind.declarator ≠ .comment)).filter node.children
  by_cases isVariables :
    node.kind = .variableDeclaration <;> simp [declarators, isVariables, filtered]

@[simp] theorem declaredName?_outline : node.outline.declaredName? = node.declaredName? := by
  rw [declaredName?, child?_outline node (by decide)]
  cases named : node.child? .name <;> simp [declaredName?, named]

end Readings

mutual

theorem unwrap_outline : ∀ node : Node, node.outline.unwrap = node.unwrap.map outline
  | ⟨kind, role, span, lexeme, children⟩ => by
    cases transparent : kind.isTransparent with
    | true => simpa [outline, unwrap, transparent] using unwrapFirst_outlineAll children
    | false => simp [outline, unwrap, transparent]

theorem unwrapFirst_outlineAll :
    ∀ nodes : List Node, unwrapFirst (outlineAll nodes) = (unwrapFirst nodes).map outline
  | [] => rfl
  | node :: rest => by
    have ih := unwrapFirst_outlineAll rest
    cases trivia : node.isTrivia with
    | true =>
      have skipped : node.isMeaningful = false := by
        simp [isMeaningful, kind_of_isTrivia trivia]
      simpa [outlineAll, unwrapFirst, trivia, skipped] using ih
    | false =>
      cases meaningful : node.isMeaningful with
      | true => simpa [outlineAll, unwrapFirst, trivia, meaningful] using unwrap_outline node
      | false => simpa [outlineAll, unwrapFirst, trivia, meaningful] using ih

end

section References

variable (node : Node)

theorem property_outline :
    (node.outline.child? .property).bind lexeme? = (node.child? .property).bind lexeme? := by
  rw [child?_outline node (by decide)]
  cases node.child? .property <;> simp

@[simp] theorem calleeName?_outline : node.outline.calleeName? = node.calleeName? := by
  have callee : (node.outline.child? .callee).bind unwrap =
      ((node.child? .callee).bind unwrap).map outline := by
    rw [child?_outline node (by decide)]
    cases node.child? .callee <;> simp [unwrap_outline]
  rw [calleeName?, callee]
  cases found : (node.child? .callee).bind unwrap <;>
    simp [calleeName?, found, property_outline]

@[simp] theorem referenceName?_outline : node.outline.referenceName? = node.referenceName? := by
  rw [referenceName?, unwrap_outline]
  cases found : node.unwrap <;> simp [referenceName?, found, property_outline]

@[simp] theorem isCallTo_outline (name : String) :
    node.outline.isCallTo name = node.isCallTo name := by
  rw [isCallTo, unwrap_outline]
  cases found : node.unwrap <;> simp [isCallTo, found]

end References

end RenderProbe.Syntax.Node

/-! ## Verdicts -/

namespace RenderProbe.Component

open Syntax (Node Kind Role)
open Syntax.Node

theorem hasLogicalOperator_outline (node : Node) :
    hasLogicalOperator node.outline = hasLogicalOperator node := by
  rw [hasLogicalOperator, child?_outline node (by decide)]
  cases found : node.child? .operator <;> simp [hasLogicalOperator, found]

mutual

theorem isMarkup_outline : ∀ node : Node, isMarkup node.outline = isMarkup node
  | ⟨kind, role, span, lexeme, children⟩ => by
    have first := firstIsMarkup_outlineAll children
    have inRole := fun part => roleIsMarkup_outlineAll part children
    have callee := calleeName?_outline ⟨kind, role, span, lexeme, children⟩
    have operator := hasLogicalOperator_outline ⟨kind, role, span, lexeme, children⟩
    simp only [outline] at callee operator
    simp only [outline, isMarkup, first, callee, operator]
    rw [inRole .consequence, inRole .alternative, inRole .left, inRole .right] <;> decide

theorem firstIsMarkup_outlineAll :
    ∀ nodes : List Node, firstIsMarkup (outlineAll nodes) = firstIsMarkup nodes
  | [] => rfl
  | node :: rest => by
    have ih := firstIsMarkup_outlineAll rest
    cases trivia : node.isTrivia with
    | true =>
      have skipped : node.isMeaningful = false := by
        simp [isMeaningful, kind_of_isTrivia trivia]
      simpa [outlineAll, firstIsMarkup, trivia, skipped] using ih
    | false =>
      simp [outlineAll, firstIsMarkup, trivia, isMarkup_outline node, ih]

theorem roleIsMarkup_outlineAll (role : Role) :
    ∀ nodes : List Node, role ≠ .plain →
      roleIsMarkup role (outlineAll nodes) = roleIsMarkup role nodes
  | [], _ => rfl
  | node :: rest, part => by
    have ih := roleIsMarkup_outlineAll role rest part
    cases trivia : node.isTrivia with
    | true =>
      have skipped : (node.role == role) = false := (outlined_role part).trivia node trivia
      simpa [outlineAll, roleIsMarkup, trivia, skipped] using ih
    | false =>
      simp [outlineAll, roleIsMarkup, trivia, isMarkup_outline node, ih]

end

mutual

theorem returnsIn_outline (maxDepth depth : Nat) : ∀ node : Node,
    returnsIn maxDepth depth node.outline = (returnsIn maxDepth depth node).map outline
  | ⟨kind, role, span, lexeme, children⟩ => by
    have ih := returnsAmong_outlineAll maxDepth (depth + 1) children
    simp only [outline, returnsIn]
    split
    · simp [outline]
    · split
      · rfl
      · exact ih

theorem returnsAmong_outlineAll (maxDepth depth : Nat) : ∀ nodes : List Node,
    returnsAmong maxDepth depth (outlineAll nodes) =
      (returnsAmong maxDepth depth nodes).map outline
  | [] => rfl
  | node :: rest => by
    have ih := returnsAmong_outlineAll maxDepth depth rest
    cases trivia : node.isTrivia with
    | true =>
      have silent : returnsIn maxDepth depth node = [] := by
        rcases node with ⟨kind, role, span, lexeme, children⟩
        obtain rfl : kind = .comment := kind_of_isTrivia trivia
        obtain rfl : children = [] := children_of_isTrivia trivia
        simp [returnsIn, returnsAmong]
      simp [outlineAll, returnsAmong, trivia, silent, ih]
    | false =>
      have here := returnsIn_outline maxDepth depth node
      cases named : node.isNamed <;> simp [outlineAll, returnsAmong, trivia, named, here, ih]

end

section Classes

variable (node : Node)

theorem returnsMarkup_outline : returnsMarkup node.outline = returnsMarkup node := by
  rw [returnsMarkup, firstMeaningful?_outline]
  cases found : node.firstMeaningful? <;> simp [returnsMarkup, found, isMarkup_outline]

@[simp] theorem functionRenders_outline (maxDepth : Nat) :
    functionRenders maxDepth node.outline = functionRenders maxDepth node := by
  rw [functionRenders, child?_outline node (by decide)]
  cases found : node.child? .body with
  | none => simp [functionRenders, found]
  | some body =>
    have returns := returnsAmong_outlineAll maxDepth 1 body.children
    simp [functionRenders, found, returns, isMarkup_outline, returnsMarkup_outline,
      Function.comp_def, List.any_map]

/-- Of what a class extends, only comments are missing in its outline. -/
theorem superclasses_outline : superclasses node.outline =
    ((superclasses node).filter fun expression => !expression.isTrivia).map outline := by
  have heritages := namedChildren_filter_outline node
    (outlined_kind (by decide : Kind.classHeritage ≠ .comment))
  rw [superclasses, heritages, List.flatMap_map, superclasses, List.filter_flatMap,
    List.map_flatMap]
  congr 1
  funext heritage
  have clauses := namedChildren_filter_outline heritage
    (outlined_kind (by decide : Kind.extendsClause ≠ .comment))
  simp only [clauses, List.isEmpty_map]
  split
  · simp only [namedChildren, outline_children, outlineAll_eq_map, List.filter_map,
      List.filter_filter, Function.comp_def, outline_kind, isNamed_outline]
    congr 2
    funext expression
    cases expression.isTrivia <;> cases expression.isNamed <;> simp
  · rw [List.flatMap_map, List.filter_flatMap, List.map_flatMap]
    congr 1
    funext clause
    have values := (outlined_role (by decide : Role.value ≠ .plain)).filter clause.children
    rw [outline_children, values, List.filter_filter]
    congr 2
    funext expression
    cases trivia : expression.isTrivia with
    | true => simp [role_of_isTrivia trivia]
    | false => simp

@[simp] theorem extendsBase_outline (baseClasses : List String) :
    extendsBase baseClasses node.outline = extendsBase baseClasses node := by
  rw [extendsBase, superclasses_outline, extendsBase, List.any_map, List.any_filter]
  congr 1
  funext expression
  cases trivia : expression.isTrivia with
  | true =>
    have unread : expression.referenceName? = none := by
      rcases expression with ⟨kind, role, span, lexeme, children⟩
      obtain rfl : kind = .comment := kind_of_isTrivia trivia
      simp [referenceName?, unwrap, Kind.isTransparent]
    simp [unread]
  | false => simp

@[simp] theorem definesRender_outline : definesRender node.outline = definesRender node := by
  have member : Outlined fun child =>
      child.isNamed && ((child.kind == .methodDefinition || child.kind == .fieldDefinition)
        && (child.child? .name).any (·.lexeme == "render")) := by
    refine ⟨fun child => ?_, fun child trivia => by simp [kind_of_isTrivia trivia]⟩
    rw [child?_outline child (by decide)]
    cases child.child? .name <;> simp
  rw [definesRender, child?_outline node (by decide)]
  cases found : node.child? .body with
  | none => simp [definesRender, found]
  | some body =>
    simp only [definesRender, found, Option.map_some, Option.any_some, namedChildren,
      outline_children, List.any_filter, member.any]

end Classes

/-- The declaration with the outline of the node that defines it. -/
def outlineOf (declaration : Declaration) : Declaration :=
  { declaration with node := declaration.node.map outline }

theorem isComponentValue_outline (criteria : Criteria) (value : Node) :
    criteria.isComponentValue value.outline = criteria.isComponentValue value := by
  simp [Criteria.isComponentValue]

theorem holds_outlineOf (criteria : Criteria) (declaration : Declaration) (rule : Rule) :
    criteria.holds (outlineOf declaration) rule = criteria.holds declaration rule := by
  rcases declaration with ⟨name, kind, exportKind, node⟩
  cases node with
  | none => cases rule <;> rfl
  | some node =>
    have value : (node.outline.unwrap).any criteria.isComponentValue =
        node.unwrap.any criteria.isComponentValue := by
      rw [unwrap_outline]
      cases node.unwrap <;> simp [isComponentValue_outline]
    have classNode : (node.outline.unwrap).any (fun found => Declaration.isClassKind found.kind
          && (extendsBase criteria.baseClasses found || definesRender found)) =
        node.unwrap.any fun found => Declaration.isClassKind found.kind
          && (extendsBase criteria.baseClasses found || definesRender found) := by
      rw [unwrap_outline]
      cases node.unwrap <;> simp
    cases rule <;> simp [Criteria.holds, outlineOf, value, classNode]

/-- Detection accepts a declaration by its outline alone, so edits that leave the outline of a
declaration leave the verdict. -/
theorem accepts_outlineOf (criteria : Criteria) (declaration : Declaration) :
    criteria.accepts (outlineOf declaration) = criteria.accepts declaration := by
  simp only [Criteria.accepts, acceptingRules, List.any_cons, List.any_nil, holds_outlineOf]

end RenderProbe.Component
