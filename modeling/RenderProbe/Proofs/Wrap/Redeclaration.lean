import Mathlib.Data.List.Perm.Basic
import RenderProbe.Proofs.Syntax.Bindings
import RenderProbe.Proofs.Syntax.ExportShape
import RenderProbe.Proofs.Wrap.EditedTree

/-!
# What a wrap declares

A wrap leaves the names that a module binds as they are, with two exceptions: the export that
follows a demoted function declares the function's name once more, and an inserted import binds the
wrapper.

* `Rewrite.names_edit`: the names that one statement binds after its edit.
* `Rewrite.topLevelNames_edited`: the names that a module binds after its edits.
* `binds_once_iff`: when a module that binds no name twice still binds none twice after a wrap.
-/

namespace RenderProbe.Wrap

open Syntax (Node ExportShape)

namespace Rewrite

variable {rewrite : Rewrite} {statement declaration : Node}

/-! ## Statements -/

/-- The names that the edit of a statement adds to it. -/
def addedNames (rewrite : Rewrite) (statement : Node) : List String :=
  if rewrite.fires? statement = some .namedFunction then [rewrite.name] else []

/-- A declaration keeps its name when it loses its export. -/
theorem declaredName?_demoted (shape : ExportShape statement) :
    (demoted statement declaration).declaredName? = declaration.declaredName? := by
  have undecorated :
      (statement.children.filter (·.kind == .decorator)).find? (·.role == .name) = none :=
    List.find?_eq_none.mpr fun child member => by
      simpa using shape.unnamed child (List.mem_filter.mp member).1
  simp [Node.declaredName?, Node.child?, demoted, List.find?_append, undecorated]

/-- A demoted function or class binds what it bound in the export statement. -/
theorem statementNames_demoted (shape : ExportShape statement)
    (isKind : declaration.kind = .functionDeclaration ∨ declaration.kind = .functionExpression
      ∨ Declaration.isClassKind declaration.kind = true) :
    (demoted statement declaration).statementNames = declaration.declarationNames := by
  have name : (demoted statement declaration).declaredName? = declaration.declaredName? :=
    declaredName?_demoted shape
  have kind : (demoted statement declaration).kind = statementKind declaration.kind := rfl
  simp only [Node.statementNames, Node.declarationNames, kind, name]
  rcases isKind with same | same | isClass
  · simp [same, statementKind]
  · simp [same, statementKind]
  · revert isClass
    cases declaration.kind <;> simp [Declaration.isClassKind, statementKind]

theorem statementNames_signature (isSignature : declaration.kind = .functionSignature) :
    (demoted statement declaration).statementNames = declaration.declarationNames := by
  have kind : (demoted statement declaration).kind = .functionSignature := by
    simp [demoted, isSignature, statementKind]
  simp [Node.statementNames, Node.declarationNames, kind, isSignature]

theorem statementNames_of_exported (exported : statement.kind = .exportStatement)
    (found : statement.exportedDeclaration? = some declaration) :
    statement.statementNames = declaration.declarationNames := by
  simp [Node.statementNames, exported, found]

theorem exportedDeclaration?_of_declaration
    (found : statement.child? .declaration = some declaration) :
    statement.exportedDeclaration? = some declaration := by
  simp [Node.exportedDeclaration?, found]

/-- A generated default export binds nothing, a generated named export the name it is of. -/
theorem statementNames_defaultExportNode : rewrite.defaultExportNode.statementNames = [] := rfl

theorem statementNames_namedExportNode :
    rewrite.namedExportNode.statementNames = [rewrite.name] := rfl

theorem declaratorNames_wrapDeclarator (declarator : Node) :
    (rewrite.wrapDeclarator declarator).declaratorNames = declarator.declaratorNames := by
  unfold wrapDeclarator
  split
  · rw [Node.declaratorNames, Node.child?_mapChild_of_ne declarator callNode_role (by decide),
      Node.declaratorNames]
  · rfl

/-- Wrapping the values of variables leaves their names. -/
theorem declarationNames_wrapDeclarators (isVariables : declaration.kind = .variableDeclaration) :
    (rewrite.wrapDeclarators declaration).declarationNames = declaration.declarationNames := by
  simp only [Node.declarationNames, wrapDeclarators_kind, isVariables, declarators_wrapDeclarators,
    List.flatMap_map, declaratorNames_wrapDeclarator]

/-- A default export of a name binds nothing. -/
theorem statementNames_of_value {value : Node} (exported : statement.kind = .exportStatement)
    (undeclared : statement.child? .declaration = none)
    (valued : statement.child? .value = some value)
    (unlike : value.kind ≠ .functionExpression ∧ value.kind ≠ .classExpression) :
    statement.statementNames = [] := by
  simp [Node.statementNames, Node.exportedDeclaration?, exported, undeclared, valued,
    Option.filter_some, unlike.1, unlike.2]

/-- A default function or class binds its own name, whether the grammar takes it for a declaration
or for a value. -/
theorem statementNames_of_default (exported : statement.kind = .exportStatement)
    (found : defaultFunctionOrClass? statement = some declaration) :
    statement.statementNames = declaration.declarationNames := by
  refine statementNames_of_exported exported ?_
  rcases of_defaultFunctionOrClass? found with ⟨declared, -⟩ | ⟨undeclared, valued, isKind⟩
  · exact exportedDeclaration?_of_declaration declared
  · rcases isKind with same | same <;>
      simp [Node.exportedDeclaration?, undeclared, valued, Option.filter_some, same]

/-- What a statement binds after its edit by a rule. -/
theorem names_editBy {rule : Rule} (shape : ExportShape statement)
    (exported : statement.kind = .exportStatement)
    (wraps : rewrite.aim.wrapped statement rule ≠ []) :
    (rewrite.editBy statement rule).flatMap Node.statementNames =
      statement.statementNames ++ if rule = .namedFunction then [rewrite.name] else [] := by
  have edit := editShape wraps
  generalize rewrite.editBy statement rule = statements at edit ⊢
  cases edit with
  | @defaultDeclaration declaration keyword found accepted =>
    have demotes := statementNames_demoted shape (kind_of_defaultFunctionOrClass? found)
    simp [demotes, statementNames_of_default exported found, statementNames_defaultExportNode]
  | @defaultIdentifier value reference edited keyword undeclared valued unwrapped isName kind
      keywords others called =>
    -- A function or class is not looked through, so it is no reference.
    have unlike : value.kind ≠ .functionExpression ∧ value.kind ≠ .classExpression := by
      constructor <;> intro same <;>
        · rw [Node.unwrap_of_not_transparent (by rw [same]; rfl), Option.some.injEq] at unwrapped
          simp [← unwrapped, same] at isName
    have before := statementNames_of_value exported undeclared valued unlike
    have after := statementNames_of_value (kind.trans exported)
      ((others .declaration (by decide)).trans undeclared) called
      (by simp [nameCall, callNode_kind])
    simp [before, after]
  | @namedVariable declaration edited keyword found isVariables kind keywords others changed =>
    have before := statementNames_of_exported exported (exportedDeclaration?_of_declaration found)
    have after := statementNames_of_exported (kind.trans exported)
      (exportedDeclaration?_of_declaration changed)
    simp [before, after, declarationNames_wrapDeclarators isVariables]
  | @namedFunction declaration keyword found accepted =>
    simp only [Aim.acceptsFunction, Bool.and_eq_true, beq_iff_eq] at accepted
    have binds := statementNames_of_exported exported (exportedDeclaration?_of_declaration found)
    simp [statementNames_demoted shape (.inl accepted.1.1), binds, statementNames_namedExportNode]

/-- What a statement binds after its edit: what it bound before and what the edit adds. The names of
a whole module follow, statement by statement. -/
theorem names_edit (signatures : Bool)
    (shape : statement.kind = .exportStatement → ExportShape statement) :
    (rewrite.edit signatures statement).flatMap Node.statementNames =
      statement.statementNames ++ rewrite.addedNames statement := by
  cases fires : rewrite.fires? statement with
  | some rule =>
    obtain ⟨exported, wraps⟩ := fires?_eq_some_iff.mp fires
    rw [edit, fires, addedNames, fires]
    simpa using names_editBy (shape exported) exported wraps
  | none =>
    rw [edit, fires, addedNames, fires]
    dsimp only
    split
    · next signature =>
      simp only [exportsSignature, Bool.and_eq_true, beq_iff_eq, Option.any_eq_true] at signature
      obtain ⟨-, ⟨exported, -⟩, declaration, found, isSignature, -⟩ := signature
      simp [found, statementNames_signature isSignature,
        statementNames_of_exported exported (exportedDeclaration?_of_declaration found)]
    · simp

/-! ## Modules -/

theorem statementNames_importNode (style : QuoteStyle) (target : ImportTarget) :
    (importNode style target).statementNames = [target.symbol] := rfl

/-- One name is added for every function that is wrapped: the generated constant has the name of the
function that stays. -/
theorem addedNames_children (root : Node) :
    root.children.flatMap rewrite.addedNames =
      List.replicate (((rewrite.firing root).map (·.2)).count .namedFunction) rewrite.name := by
  simp only [firing, Node.namedChildren]
  induction root.children with
  | nil => rfl
  | cons statement rest ih =>
    rw [List.flatMap_cons, ih, addedNames]
    cases fires : rewrite.fires? statement with
    | none =>
      cases named : statement.isNamed <;> simp [named, fires]
    | some rule =>
      have named : statement.isNamed = true := by
        simp [Node.isNamed, (fires?_eq_some_iff.mp fires).1]
      by_cases isFunction : rule = .namedFunction
      · simp [named, fires, isFunction, List.replicate_succ]
      · simp [named, fires, isFunction]

/-- What a module binds after its edits: what it bound before, the name of each wrapped function
once more, and the wrapper if it is imported. -/
theorem topLevelNames_edited (root : Node) (target : ImportTarget)
    (shapes : ∀ statement ∈ root.children, statement.kind = .exportStatement →
      ExportShape statement) :
    (rewrite.edited root target).topLevelNames.Perm (root.topLevelNames
      ++ (List.replicate (((rewrite.firing root).map (·.2)).count .namedFunction) rewrite.name
        ++ if (scanImports root target.symbol).hasBinding then [] else [target.symbol])) := by
  have names : ∀ statements : List Node, (∀ statement ∈ statements, statement ∈ root.children) →
      (statements.flatMap (rewrite.edit (rewrite.demotesSignatures root))).flatMap
          Node.statementNames =
        statements.flatMap fun statement =>
          statement.statementNames ++ rewrite.addedNames statement := by
    intro statements inRoot
    rw [List.flatMap_assoc]
    refine List.flatMap_congr fun statement member => ?_
    exact names_edit _ (shapes statement (inRoot statement member))
  have imported : (rewrite.importNodes (scanImports root target.symbol) target).flatMap
        Node.statementNames =
      if (scanImports root target.symbol).hasBinding then [] else [target.symbol] := by
    unfold importNodes
    split
    · rfl
    · simp [statementNames_importNode]
  obtain ⟨before, after, split, edits⟩ : ∃ before after, before ++ after = root.children
      ∧ (rewrite.edited root target).children =
        before.flatMap (rewrite.edit (rewrite.demotesSignatures root))
          ++ rewrite.importNodes (scanImports root target.symbol) target
          ++ after.flatMap (rewrite.edit (rewrite.demotesSignatures root)) :=
    ⟨_, _, List.takeWhile_append_dropWhile, rfl⟩
  have inRoot :
      ∀ statement, statement ∈ before ∨ statement ∈ after → statement ∈ root.children := by
    intro statement member
    rw [← split]
    exact List.mem_append.mpr member
  rw [Node.topLevelNames, edits, List.flatMap_append, List.flatMap_append, imported,
    names before fun statement member => inRoot statement (.inl member),
    names after fun statement member => inRoot statement (.inr member)]
  -- The import may go anywhere among the names.
  refine (List.Perm.append_right _ List.perm_append_comm).trans ?_
  rw [List.append_assoc, ← List.flatMap_append, split]
  refine List.perm_append_comm.trans ?_
  rw [← List.append_assoc]
  refine List.Perm.append_right _ ?_
  rw [← addedNames_children, Node.topLevelNames]
  exact (List.flatMap_append_perm _ _ _).symm

/-- A function that is wrapped binds its name. -/
theorem mem_topLevelNames_of_firing {root : Node}
    (fires : .namedFunction ∈ (rewrite.firing root).map (·.2)) :
    rewrite.name ∈ root.topLevelNames := by
  simp only [firing, List.map_filterMap, List.mem_filterMap, Option.map_map, Function.comp_def,
    Option.map_id_fun', id_eq] at fires
  obtain ⟨statement, member, fires⟩ := fires
  obtain ⟨exported, wraps⟩ := fires?_eq_some_iff.mp fires
  obtain ⟨declaration, wraps⟩ := List.exists_mem_of_ne_nil _ wraps
  obtain ⟨-, found, accepted⟩ := Aim.function?_eq_some.mp (Option.mem_toList.mp wraps)
  simp only [Aim.acceptsFunction, Bool.and_eq_true, beq_iff_eq] at accepted
  refine List.mem_flatMap.mpr ⟨statement, (List.mem_filter.mp member).1, ?_⟩
  rw [statementNames_of_exported exported (exportedDeclaration?_of_declaration found)]
  have named : declaration.declaredName? = some rewrite.name := accepted.1.2
  simp [Node.declarationNames, accepted.1.1, named]

/-- A text reads as the tree of a module with the edits applied, up to layout. -/
def ReadsBack (rewrite : Rewrite) (markup : Bool) (root : Node) (target : ImportTarget)
    (output : String) : Prop :=
  (Syntax.parse markup output).map Node.outline = some (rewrite.edited root target).outline

instance (rewrite : Rewrite) (markup : Bool) (root : Node)
    (target : ImportTarget) (output : String) :
    Decidable (rewrite.ReadsBack markup root target output) :=
  inferInstanceAs (Decidable (_ = _))

end Rewrite

section Answers

variable {criteria : Component.Criteria} {style : QuoteStyle} {markup : Bool}
  {text name output : String} {root : Node} {target : ImportTarget} {rules : List Rule}

/-- A wrap binds what the module bound before, the name once more for every function that is
wrapped, and the wrapper if it is imported. So a module that bound no name twice still binds none
twice exactly if no function is wrapped and the wrapper, if it is imported, is bound by nothing
else. -/
theorem binds_once_iff (parsed : Syntax.parse markup text = some root)
    (answer : transform criteria style text root name target = .ok (.wrapped output rules))
    (readsBack : (Rewrite.of criteria style text root name target.symbol).ReadsBack markup root
      target output) :
    ∃ outputRoot, Syntax.parse markup output = some outputRoot
      ∧ outputRoot.topLevelNames.Perm (root.topLevelNames
        ++ (List.replicate (rules.count .namedFunction) name
          ++ if (scanImports root target.symbol).hasBinding then [] else [target.symbol]))
      ∧ (root.topLevelNames.Nodup →
        (outputRoot.topLevelNames.Nodup ↔ .namedFunction ∉ rules
          ∧ ((scanImports root target.symbol).hasBinding = false →
            target.symbol ∉ root.topLevelNames))) := by
  obtain ⟨outputRoot, reads, outlined⟩ := Option.map_eq_some_iff.mp readsBack
  obtain ⟨-, -, -, rfl⟩ := transform_eq_wrapped_iff.mp answer
  have names := (Rewrite.of criteria style text root name target.symbol).topLevelNames_edited root
    target fun statement member => Syntax.exportShape_of_parse parsed member
  rw [← Node.topLevelNames_outline, ← outlined, Node.topLevelNames_outline] at names
  refine ⟨outputRoot, reads, names, fun once => ?_⟩
  rw [names.nodup_iff]
  by_cases wraps : Rule.namedFunction ∈
      ((Rewrite.of criteria style text root name target.symbol).firing root).map (·.2)
  · -- The name of the function is bound by the function and by the export after it.
    have bound := Rewrite.mem_topLevelNames_of_firing wraps
    have positive := List.count_pos_iff.mpr wraps
    simp only [wraps, not_true_eq_false, false_and, iff_false]
    intro distinct
    refine (List.nodup_append.mp distinct).2.2 _ bound _ ?_ rfl
    exact List.mem_append_left _ (List.mem_replicate.mpr ⟨by omega, rfl⟩)
  · have silent := List.count_eq_zero.mpr wraps
    rw [silent, List.replicate_zero, List.nil_append]
    cases (scanImports root target.symbol).hasBinding with
    | true => simp [wraps, once]
    | false =>
      have front : (root.topLevelNames ++ [target.symbol]).Nodup ↔
          (target.symbol :: root.topLevelNames).Nodup :=
        (List.perm_append_singleton _ _).nodup_iff
      simp [wraps, once, front]

end Answers

/-- A binding, and a default export that refers to it. -/
def exportedBinding : String :=
  "let A;export default A"

/-- A wrapped default reference leaves its module without a name that is bound twice. -/
theorem binds_once_iff_reference :
    ∃ root output outputRoot, Syntax.parse true exportedBinding = some root
      ∧ transform .standard .single exportedBinding root "A" ⟨"w", "m"⟩ =
        .ok (.wrapped output [.defaultIdentifier])
      ∧ Syntax.parse true output = some outputRoot ∧ outputRoot.topLevelNames.Nodup := by
  have passes : wrapPasses exportedBinding (fun root output rules =>
      decide (root.topLevelNames = ["A"] ∧ rules = [.defaultIdentifier]
        ∧ (Rewrite.of .standard .single exportedBinding root "A" "w").ReadsBack true root ⟨"w", "m"⟩
          output)) = true := by
    decide +kernel
  obtain ⟨root, output, _, parsed, answer, holds⟩ := exists_of_wrapPasses passes
  obtain ⟨bound, rfl, readsBack⟩ := of_decide_eq_true holds
  obtain ⟨outputRoot, reads, -, once⟩ := binds_once_iff parsed answer readsBack
  refine ⟨root, output, outputRoot, parsed, answer, reads, ?_⟩
  exact (once (by simp [bound])).mpr ⟨by simp, fun _ => by simp [bound]⟩

/-- Whether a wrap of `A` with `w` makes a module bind a name twice that bound none twice before. -/
def makesRedeclaration (text : String) : Bool :=
  wrapPasses text fun root output _ => decide root.topLevelNames.Nodup
    && (Syntax.parse true output).any fun outputRoot => !decide outputRoot.topLevelNames.Nodup

theorem redeclaration_of_evaluated {text : String} (evaluated : makesRedeclaration text = true) :
    ∃ root output rules outputRoot, Syntax.parse true text = some root
      ∧ root.topLevelNames.Nodup
      ∧ transform .standard .single text root "A" ⟨"w", "m"⟩ = .ok (.wrapped output rules)
      ∧ Syntax.parse true output = some outputRoot ∧ ¬outputRoot.topLevelNames.Nodup := by
  obtain ⟨root, output, rules, parsed, answer, holds⟩ := exists_of_wrapPasses evaluated
  simp only [Option.any_eq_true, Bool.and_eq_true, decide_eq_true_eq, Bool.not_eq_true',
    decide_eq_false_iff_not] at holds
  obtain ⟨once, outputRoot, reads, twice⟩ := holds
  exact ⟨root, output, rules, outputRoot, parsed, once, answer, reads, twice⟩

/-- A function that is wrapped is declared twice, as itself and as its own wrap; and a wrapper that
the module declares itself is imported beside that declaration. -/
theorem redeclares_function_and_wrapper :
    (∃ root output rules outputRoot, Syntax.parse true "export function A()\x7b\x7d" = some root
      ∧ root.topLevelNames.Nodup
      ∧ transform .standard .single "export function A()\x7b\x7d" root "A" ⟨"w", "m"⟩ =
        .ok (.wrapped output rules)
      ∧ Syntax.parse true output = some outputRoot ∧ ¬outputRoot.topLevelNames.Nodup)
    ∧ ∃ root output rules outputRoot, Syntax.parse true "let w;export default A" = some root
      ∧ root.topLevelNames.Nodup
      ∧ transform .standard .single "let w;export default A" root "A" ⟨"w", "m"⟩ =
        .ok (.wrapped output rules)
      ∧ Syntax.parse true output = some outputRoot ∧ ¬outputRoot.topLevelNames.Nodup :=
  ⟨redeclaration_of_evaluated (by decide +kernel), redeclaration_of_evaluated (by decide +kernel)⟩

end RenderProbe.Wrap
