import RenderProbe.Proofs.Component.Exports
import RenderProbe.Proofs.Syntax.Calls

/-!
# Detection and layout

What a module exports, and which of it detection reports, does not depend on layout: the exports of
the outline of a tree are those of the tree, each with the outline of the node that defines it.

* `Declaration.exports_outline`: the exports of an outline.
* `Component.candidates_outline`: its candidates are those of the tree.
-/

namespace RenderProbe

open Syntax (Node Kind Role)
open Syntax.Node
open Component (outlineOf)

namespace Declaration

/-- A binding with the outline of its node. -/
abbrev outlineBinding (binding : String × Node) : String × Node :=
  (binding.1, binding.2.outline)

/-! ## Bindings -/

theorem localBindings_outline (root : Node) :
    localBindings root.outline = (localBindings root).map outlineBinding := by
  rw [localBindings_eq, localBindings_eq, outline_children]
  induction root.children with
  | nil => rfl
  | cons statement rest ih =>
    cases trivia : statement.isTrivia with
    | true =>
      have silent : valueBindings statement = [] := by
        simp [valueBindings, declarationIn, bindingsOf, declarators, kind_of_isTrivia trivia,
          isClassKind]
      simpa [outlineAll, trivia, silent] using ih
    | false => simpa [outlineAll, trivia, valueBindings_outline] using ih

theorem lookup_outlineBinding (bindings : List (String × Node)) (name : String) :
    (bindings.map outlineBinding).lookup name = (bindings.lookup name).map outline := by
  induction bindings with
  | nil => rfl
  | cons binding rest ih =>
    rcases binding with ⟨key, node⟩
    cases same : name == key <;> simp [outlineBinding, List.lookup_cons, same, ih]

/-! ## Exports -/

section Exports

variable (bindings : List (String × Node)) (node : Node)

theorem declared_outline (exportKind : ExportKind) :
    declared exportKind node.outline = (declared exportKind node).map outlineOf := by
  simp only [declared, outline_kind, declaredName?_outline, declarators_outline]
  split
  · cases node.declaredName? <;> rfl
  · split
    · cases node.declaredName? <;> rfl
    · rw [List.filterMap_map, List.map_filterMap]
      congr 1
      funext declarator
      simp only [Function.comp_apply, child?_outline declarator (by decide : Role.name ≠ .plain),
        child?_outline declarator (by decide : Role.value ≠ .plain)]
      cases declarator.child? .name with
      | none => rfl
      | some name => by_cases isName : name.kind = .identifier <;> simp [isName, outlineOf]

theorem ofSpecifier_outline :
    ofSpecifier (bindings.map outlineBinding) node.outline =
      (ofSpecifier bindings node).map outlineOf := by
  have handedOut :
      (node.outline.child? .alias).bind lexeme? = (node.child? .alias).bind lexeme? := by
    rw [child?_outline node (by decide)]
    cases node.child? .alias <;> simp
  have localName : (node.outline.child? .name).map (·.lexeme) =
      (node.child? .name).map (·.lexeme) := by
    rw [child?_outline node (by decide)]
    cases node.child? .name <;> simp
  simp only [ofSpecifier, outline_kind, hasKeyword_outline, handedOut, localName,
    lookup_outlineBinding]
  split
  · rfl
  · split
    · rfl
    · split <;> rfl

theorem clauseExports_outline :
    clauseExports (bindings.map outlineBinding) node.outline =
      (clauseExports bindings node).map outlineOf := by
  have clauses := namedChildren_filter_outline node
    (outlined_kind (by decide : Kind.exportClause ≠ .comment))
  rw [clauseExports, clauses, List.flatMap_map, clauseExports, List.map_flatMap]
  congr 1
  funext clause
  have specifiers := namedChildren_filter_outline clause
    (outlined_kind (by decide : Kind.exportSpecifier ≠ .comment))
  -- Only specifiers hand something out.
  have only : ∀ (bindings : List (String × Node)) (nodes : List Node),
      nodes.filterMap (ofSpecifier bindings) =
        (nodes.filter (·.kind == .exportSpecifier)).filterMap (ofSpecifier bindings) := by
    intro bindings nodes
    rw [List.filterMap_filter]
    congr 1
    funext child
    by_cases isSpecifier : child.kind = .exportSpecifier <;> simp [ofSpecifier, isSpecifier]
  rw [only, specifiers, List.filterMap_map, only bindings, List.map_filterMap]
  congr 1
  funext specifier
  exact ofSpecifier_outline bindings specifier

theorem defaultValue?_outline :
    defaultValue? node.outline = (defaultValue? node).map outline := by
  simp only [defaultValue?, hasKeyword_outline,
    child?_outline node (by decide : Role.declaration ≠ .plain),
    child?_outline node (by decide : Role.value ≠ .plain), Option.isNone_map]
  split
  · cases node.child? .value with
    | none => rfl
    | some value => exact unwrap_outline value
  · rfl

theorem statementExports_outline :
    statementExports (bindings.map outlineBinding) node.outline =
      (statementExports bindings node).map outlineOf := by
  simp only [statementExports, outline_kind, hasKeyword_outline, defaultValue?_outline,
    exportKindOf, child?_outline node (by decide : Role.declaration ≠ .plain),
    child?_outline node (by decide : Role.source ≠ .plain)]
  split
  · rfl
  · cases defaultValue? node with
    | some value =>
      by_cases isName : value.kind = .identifier
      · simp [isName, lookup_outlineBinding, outlineOf]
      · simpa [isName] using declared_outline value _
    | none =>
      cases node.child? .declaration with
      | some declaration => exact declared_outline declaration _
      | none =>
        cases node.child? .source with
        | none => simpa using clauseExports_outline bindings node
        | some source => simp

end Exports

theorem exports_eq (root : Node) :
    exports root = root.children.flatMap (statementExports (localBindings root)) := by
  exact namedChildren_flatMap (fun statement token => by simp [statementExports, token]) root

/-- A module exports what its outline exports. -/
theorem exports_outline (root : Node) : exports root.outline = (exports root).map outlineOf := by
  rw [exports_eq, exports_eq, localBindings_outline, outline_children]
  generalize localBindings root = bindings
  induction root.children with
  | nil => rfl
  | cons statement rest ih =>
    cases trivia : statement.isTrivia with
    | true =>
      have silent : statementExports bindings statement = [] := by
        simp [statementExports, kind_of_isTrivia trivia]
      simpa [outlineAll, trivia, silent] using ih
    | false => simpa [outlineAll, trivia, statementExports_outline] using ih

end Declaration

namespace Component

theorem firstAccepted_outlineOf (criteria : Criteria) (seen : List String)
    (declarations : List Declaration) :
    firstAccepted criteria.accepts seen (declarations.map outlineOf) =
      (firstAccepted criteria.accepts seen declarations).map outlineOf := by
  induction declarations generalizing seen with
  | nil => rfl
  | cons declaration rest ih =>
    have name : (outlineOf declaration).name = declaration.name := rfl
    simp only [List.map_cons, firstAccepted, name, accepts_outlineOf]
    split
    · exact ih seen
    · rw [List.map_cons, ih]

/-- Detection reports the same components whatever the layout. A text that was edited is read with
other positions than the edited tree has, and this is why that does not matter. -/
theorem candidates_outline (criteria : Criteria) (root : Node) :
    candidates criteria root.outline = candidates criteria root := by
  rw [candidates, Declaration.exports_outline, firstAccepted_outlineOf, List.map_map]
  rfl

end Component

end RenderProbe
