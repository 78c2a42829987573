import RenderProbe.Proofs.Component.Layout
import RenderProbe.Proofs.Wrap.Redeclaration

/-!
# The other components of a wrapped module

A wrap of one name leaves detection of the others alone. Clauses and default exports are resolved
through the names bound at the top level, so the argument goes by names: an edit changes only what
is bound to and exported under the wrapped name, and a look-up of another name finds what it found
before.

* `Declaration.statementExports_congr`: what a statement exports under other names depends on the
  bindings of other names only.
* `Rewrite.bindings_edit` and `Rewrite.exports_edit`: what the edit of a statement binds and exports
  under other names.
* `leaves_others_detected`: the candidates of other names, their order included, before and after.
-/

namespace RenderProbe

open Syntax (Node Kind Role ExportShape)
open Syntax.Node (valueBindings)

namespace Declaration

/-! ## Names that stand for another -/

/-- The name that a specifier of an export clause gives to a name of the module. -/
def alias? (name : String) (specifier : Node) : Option String :=
  if specifier.kind == .exportSpecifier && !specifier.hasKeyword "type"
      && (specifier.child? .name).any (·.lexeme == name) then
    (specifier.child? .alias).map (·.lexeme)
  else none

/-- The names that the clauses of a statement give to a name of the module. -/
def clauseAliases (name : String) (statement : Node) : List String :=
  if statement.kind == .exportStatement && !statement.hasKeyword "type"
      && (statement.child? .source).isNone then
    (statement.namedChildren.filter (·.kind == .exportClause)).flatMap fun clause =>
      clause.namedChildren.filterMap (alias? name)
  else []

/-- The names under which the clauses of a module hand out a name. -/
def aliases (root : Node) (name : String) : List String :=
  root.children.flatMap (clauseAliases name)

/-- Whether a name is neither the given one nor one that stands for it. -/
def isOther (root : Node) (name other : String) : Bool :=
  other != name && !(aliases root name).contains other

/-! ## Look-ups -/

section Lookups

variable {name : String} {bindings bindings' : List (String × Node)} {keep : String → Bool}

theorem lookup_filter_ne (bindings : List (String × Node)) {key : String} (other : key ≠ name) :
    (bindings.filter (·.1 != name)).lookup key = bindings.lookup key := by
  induction bindings with
  | nil => rfl
  | cons binding rest ih =>
    rcases binding with ⟨bound, node⟩
    by_cases same : bound = name
    · subst same
      simp [List.lookup_cons, beq_false_of_ne other, ih]
    · cases found : key == bound <;> simp [same, List.lookup_cons, found, ih]

/-- A specifier hands out the same under a kept name, whatever is bound to the one that is not kept.
An edit changes what is bound to the wrapped name only. -/
theorem ofSpecifier_congr {specifier : Node}
    (agree : ∀ key, key ≠ name → bindings'.lookup key = bindings.lookup key)
    (dropped : keep name = false)
    (renamed : ∀ other, alias? name specifier = some other → keep other = false) :
    (ofSpecifier bindings' specifier).filter (keep ·.name) =
      (ofSpecifier bindings specifier).filter (keep ·.name) := by
  simp only [ofSpecifier]
  split
  · rfl
  · next isSpecifier =>
    simp only [Bool.or_eq_true, bne_iff_ne, not_or, not_not, Bool.not_eq_true] at isSpecifier
    split
    · rfl
    · next nonempty =>
      by_cases isName : ((specifier.child? .name).map (·.lexeme)).getD "" = name
      · -- The name itself, or an alias of it: not kept either way.
        have named : (specifier.child? .name).any (·.lexeme == name) = true := by
          cases found : specifier.child? .name <;> simp_all
        have handedOut :
            keep (((specifier.child? .alias).bind Node.lexeme?).getD name) = false := by
          cases found : specifier.child? .alias with
          | none => simpa using dropped
          | some other =>
            have given := renamed other.lexeme (by simp [alias?, isSpecifier, named, found])
            by_cases empty : other.lexeme = "" <;> simp [Node.lexeme?, empty, given, dropped]
        rw [isName]
        split <;> simp [Option.filter_some, dropped, handedOut]
      · rw [agree _ isName]

/-- What a statement exports under the kept names does not depend on what is bound to the one that
is not kept. -/
theorem statementExports_congr {statement : Node}
    (agree : ∀ key, key ≠ name → bindings'.lookup key = bindings.lookup key)
    (dropped : keep name = false)
    (renamed : ∀ other ∈ clauseAliases name statement, keep other = false) :
    (statementExports bindings' statement).filter (keep ·.name) =
      (statementExports bindings statement).filter (keep ·.name) := by
  unfold statementExports
  split
  · rfl
  · next exported =>
    simp only [Bool.or_eq_true, bne_iff_ne, not_or, not_not, Bool.not_eq_true] at exported
    split
    · next value _ =>
      by_cases isName : value.lexeme = name
      · split <;> simp [isName, dropped]
      · rw [agree _ isName]
    · split
      · rfl
      · split
        · next unsourced =>
          rw [clauseExports, clauseExports, List.filter_flatMap, List.filter_flatMap]
          refine List.flatMap_congr fun clause isClause => ?_
          rw [List.filter_filterMap, List.filter_filterMap]
          refine List.filterMap_congr fun specifier isSpecifier => ?_
          refine ofSpecifier_congr agree dropped fun other given => renamed other ?_
          rw [clauseAliases, if_pos (by simp [exported, unsourced])]
          exact List.mem_flatMap.mpr ⟨clause, isClause,
            List.mem_filterMap.mpr ⟨specifier, isSpecifier, given⟩⟩
        · rfl

end Lookups

/-! ## Declarations of one name -/

section OneName

variable {node statement : Node} {name : String} {bindings : List (String × Node)}

/-- A function or class declares its own name only. -/
theorem name_of_mem_declared {exportKind : ExportKind} {declaration : Declaration}
    (other : node.kind ≠ .variableDeclaration) (named : node.declaredName? = some name)
    (member : declaration ∈ declared exportKind node) : declaration.name = name := by
  rcases mem_declared.mp member with
    ⟨-, found, isName, rfl⟩ | ⟨-, found, isName, rfl⟩ | ⟨declarator, isDeclarator, -⟩
  · exact Option.some.inj (isName.symm.trans named)
  · exact Option.some.inj (isName.symm.trans named)
  · exact absurd (Node.kind_of_mem_declarators isDeclarator) other

/-- A function or class binds its own name only. -/
theorem name_of_mem_bindingsOf {binding : String × Node}
    (other : node.kind ≠ .variableDeclaration) (named : node.declaredName? = some name)
    (member : binding ∈ bindingsOf node) : binding.1 = name := by
  unfold bindingsOf at member
  rw [named] at member
  split at member
  · rw [List.mem_singleton.mp member]
  · have none : node.declarators = [] := by simp [Node.declarators, other]
    simp [none] at member

theorem statementExports_of_declaration (exported : statement.kind = .exportStatement)
    (untyped : statement.hasKeyword "type" = false)
    (found : statement.child? .declaration = some node) :
    statementExports bindings statement = declared (exportKindOf statement) node := by
  have noValue : defaultValue? statement = none := by simp [defaultValue?, found]
  rw [statementExports, if_neg (by simp [exported, untyped]), noValue, found]

theorem statementExports_of_value (exported : statement.kind = .exportStatement)
    (untyped : statement.hasKeyword "type" = false)
    (valued : defaultValue? statement = some node) :
    statementExports bindings statement =
      if node.kind == .identifier then
        [⟨node.lexeme, .reference, .default, bindings.lookup node.lexeme⟩]
      else declared (exportKindOf statement) node := by
  rw [statementExports, if_neg (by simp [exported, untyped]), valued]

end OneName

end Declaration

namespace Wrap.Rewrite

open Declaration (bindingsOf declared statementExports)

variable {rewrite : Rewrite} {statement declaration : Node} {keep : String → Bool}
  {bindings : List (String × Node)}

/-! ## Variables -/

/-- A declarator that an edit changes has the wrapped name, and keeps it. -/
theorem wrapDeclarator_cases (declarator : Node) :
    rewrite.wrapDeclarator declarator = declarator ∨
      ∃ name value value', declarator.child? .name = some name ∧ name.lexeme = rewrite.name
        ∧ declarator.child? .value = some value
        ∧ (rewrite.wrapDeclarator declarator).child? .name = some name
        ∧ (rewrite.wrapDeclarator declarator).child? .value = some value' := by
  unfold wrapDeclarator
  split
  · next wraps =>
    simp only [Aim.wrapsDeclarator, Bool.and_eq_true, Option.any_eq_true, beq_iff_eq] at wraps
    obtain ⟨-, ⟨name, named, isName⟩, value, valued, -⟩ := wraps
    refine .inr ⟨name, value, rewrite.callNode value, named, isName, valued, ?_, ?_⟩
    · rw [Node.child?_mapChild_of_ne declarator callNode_role (by decide), named]
    · rw [Node.child?_mapChild declarator callNode_role, valued, Option.map_some]
  · exact .inl rfl

/-- Variables of other names are declared as before. -/
theorem declared_wrapDeclarators (exportKind : ExportKind) (dropped : keep rewrite.name = false)
    (isVariables : declaration.kind = .variableDeclaration) :
    (declared exportKind (rewrite.wrapDeclarators declaration)).filter (keep ·.name) =
      (declared exportKind declaration).filter (keep ·.name) := by
  rw [declared, if_neg (by simp [isVariables]),
    if_neg (by simp [isVariables, Declaration.isClassKind]), declared,
    if_neg (by simp [isVariables]), if_neg (by simp [isVariables, Declaration.isClassKind]),
    declarators_wrapDeclarators, List.filterMap_map, List.filter_filterMap, List.filter_filterMap]
  refine List.filterMap_congr fun declarator _ => ?_
  rcases rewrite.wrapDeclarator_cases declarator with
    same | ⟨name, value, value', named, isName, -, named', -⟩
  · simp [same]
  · by_cases plain : name.kind = .identifier <;>
      simp [named, named', plain, isName, dropped, Option.filter_some]

/-- Variables of other names are bound as before. -/
theorem bindingsOf_wrapDeclarators (rewrite : Rewrite)
    (isVariables : declaration.kind = .variableDeclaration) :
    (bindingsOf (rewrite.wrapDeclarators declaration)).filter (·.1 != rewrite.name) =
      (bindingsOf declaration).filter (·.1 != rewrite.name) := by
  rw [bindingsOf, if_neg (by simp [isVariables, Declaration.isClassKind]),
    bindingsOf, if_neg (by simp [isVariables, Declaration.isClassKind]),
    declarators_wrapDeclarators, List.filterMap_map, List.filter_filterMap, List.filter_filterMap]
  refine List.filterMap_congr fun declarator _ => ?_
  rcases rewrite.wrapDeclarator_cases declarator with
    same | ⟨name, value, value', named, isName, valued, named', valued'⟩
  · simp [same]
  · by_cases plain : name.kind = .identifier <;>
      simp [named, named', valued, valued', plain, isName, Option.filter_some]

/-! ## Edits -/

/-- A declaration without its export exports nothing. -/
theorem statementExports_demoted (other : declaration.kind ≠ .exportStatement) :
    statementExports bindings (demoted statement declaration) = [] := by
  have unexported : (demoted statement declaration).kind ≠ .exportStatement :=
    fun exported => other (kind_of_demoted exported)
  simp [statementExports, unexported]

/-- A declaration without its export binds its name only. -/
theorem name_of_mem_valueBindings_demoted {binding : String × Node} (shape : ExportShape statement)
    (unexported : declaration.kind ≠ .exportStatement)
    (other : declaration.kind ≠ .variableDeclaration)
    (named : declaration.declaredName? = some rewrite.name)
    (member : binding ∈ valueBindings (demoted statement declaration)) :
    binding.1 = rewrite.name := by
  have kept : (demoted statement declaration).kind ≠ .exportStatement :=
    fun exported => unexported (kind_of_demoted exported)
  have other' : (demoted statement declaration).kind ≠ .variableDeclaration := by
    simp only [demoted]
    unfold statementKind
    split <;> simp_all
  refine Declaration.name_of_mem_bindingsOf other' ((declaredName?_demoted shape).trans named) ?_
  simpa [valueBindings, Declaration.declarationIn, kept] using member

/-- What a default function or class exports. -/
theorem statementExports_of_default (exported : statement.kind = .exportStatement)
    (untyped : statement.hasKeyword "type" = false)
    (keyword : statement.hasKeyword "default" = true)
    (found : defaultFunctionOrClass? statement = some declaration) :
    statementExports bindings statement = declared .default declaration := by
  have asDefault : Declaration.exportKindOf statement = .default := by
    simp [Declaration.exportKindOf, keyword]
  rcases of_defaultFunctionOrClass? found with ⟨declares, -⟩ | ⟨undeclared, valued, isKind⟩
  · rw [Declaration.statementExports_of_declaration exported untyped declares, asDefault]
  · have solid : declaration.unwrap = some declaration :=
      Node.unwrap_of_not_transparent (by rcases isKind with same | same <;> rw [same] <;> rfl)
    have value := Declaration.defaultValue?_eq_some.mpr
      ⟨keyword, undeclared, declaration, valued, solid⟩
    have unnamed : declaration.kind ≠ .identifier := by
      rcases isKind with same | same <;> simp [same]
    rw [Declaration.statementExports_of_value exported untyped value, asDefault,
      if_neg (by simpa using unnamed)]

/-- A default function or class exports nothing under other names than its own. -/
theorem exports_of_default (shape : ExportShape statement)
    (exported : statement.kind = .exportStatement) (dropped : keep rewrite.name = false)
    (keyword : statement.hasKeyword "default" = true)
    (found : defaultFunctionOrClass? statement = some declaration)
    (named : declaration.declaredName? = some rewrite.name) :
    (statementExports bindings statement).filter (keep ·.name) = [] := by
  have untyped : statement.hasKeyword "type" = false := by
    rcases of_defaultFunctionOrClass? found with ⟨declares, -⟩ | ⟨-, valued, -⟩
    · exact shape.untyped_of_declaration declares
    · exact shape.untyped_of_value valued
  refine List.filter_eq_nil_iff.mpr fun handedOut member => ?_
  rw [statementExports_of_default exported untyped keyword found] at member
  have own : handedOut.name = rewrite.name :=
    Declaration.name_of_mem_declared (unlike_of_defaultFunctionOrClass? found).2.1 named member
  simp [own, dropped]

/-- A function that is exported in place is exported under its own name only. -/
theorem exports_of_function (shape : ExportShape statement)
    (exported : statement.kind = .exportStatement) (dropped : keep rewrite.name = false)
    (found : statement.child? .declaration = some declaration)
    (other : declaration.kind ≠ .variableDeclaration)
    (named : declaration.declaredName? = some rewrite.name) :
    (statementExports bindings statement).filter (keep ·.name) = [] := by
  refine List.filter_eq_nil_iff.mpr fun handedOut member => ?_
  rw [Declaration.statementExports_of_declaration exported (shape.untyped_of_declaration found)
    found] at member
  have own : handedOut.name = rewrite.name := Declaration.name_of_mem_declared other named member
  simp [own, dropped]

/-- An edit by a rule exports the same under other names. -/
theorem exports_editBy {rule : Rule} (shape : ExportShape statement)
    (exported : statement.kind = .exportStatement) (dropped : keep rewrite.name = false)
    (wraps : rewrite.aim.wrapped statement rule ≠ []) :
    ((rewrite.editBy statement rule).flatMap (statementExports bindings)).filter (keep ·.name) =
      (statementExports bindings statement).filter (keep ·.name) := by
  have edit := editShape wraps
  generalize rewrite.editBy statement rule = statements at edit ⊢
  cases edit with
  | @defaultDeclaration declaration keyword found accepted =>
    simp only [Aim.acceptsDefault, Bool.and_eq_true, beq_iff_eq] at accepted
    have before : (statementExports bindings statement).filter (keep ·.name) = [] :=
      exports_of_default shape exported dropped keyword found accepted.1
    have demotes : statementExports bindings (demoted statement declaration) = [] :=
      statementExports_demoted (unlike_of_defaultFunctionOrClass? found).1
    have generated : statementExports bindings rewrite.defaultExportNode = [] := rfl
    simp [demotes, generated, before]
  | @defaultIdentifier value reference edited keyword undeclared valued unwrapped isName kind
      keywords others called =>
    have untyped := shape.untyped_of_value valued
    have before := Declaration.defaultValue?_eq_some.mpr
      ⟨keyword, undeclared, value, valued, unwrapped⟩
    have solid : rewrite.nameCall.unwrap = some rewrite.nameCall :=
      Node.unwrap_of_not_transparent rfl
    have after := Declaration.defaultValue?_eq_some.mpr
      ⟨(keywords _).trans keyword, (others .declaration (by decide)).trans undeclared,
        rewrite.nameCall, called, solid⟩
    have generated : ∀ exportKind, declared exportKind rewrite.nameCall = [] := fun _ => rfl
    have isCall : rewrite.nameCall.kind = .call := rfl
    simp [Declaration.statementExports_of_value exported untyped before,
      Declaration.statementExports_of_value (kind.trans exported) ((keywords _).trans untyped)
        after, isName, isCall, generated, dropped]
  | @namedVariable declaration edited keyword found isVariables kind keywords others changed =>
    have untyped := shape.untyped_of_declaration found
    have sameKind : Declaration.exportKindOf edited = Declaration.exportKindOf statement := by
      simp [Declaration.exportKindOf, keywords]
    rw [List.flatMap_singleton,
      Declaration.statementExports_of_declaration (kind.trans exported) ((keywords _).trans untyped)
        changed,
      Declaration.statementExports_of_declaration exported untyped found, sameKind]
    exact declared_wrapDeclarators _ dropped isVariables
  | @namedFunction declaration keyword found accepted =>
    simp only [Aim.acceptsFunction, Bool.and_eq_true, beq_iff_eq] at accepted
    have before : (statementExports bindings statement).filter (keep ·.name) = [] :=
      exports_of_function shape exported dropped found (by simp [accepted.1.1]) accepted.1.2
    have demotes : statementExports bindings (demoted statement declaration) = [] :=
      statementExports_demoted (by simp [accepted.1.1])
    have generated : statementExports bindings rewrite.namedExportNode =
        [⟨rewrite.name, .initializer, .named, some rewrite.nameCall⟩] := rfl
    simp [demotes, generated, before, dropped]

/-- An edit by a rule binds the same to other names. -/
theorem bindings_editBy {rule : Rule} (shape : ExportShape statement)
    (exported : statement.kind = .exportStatement)
    (wraps : rewrite.aim.wrapped statement rule ≠ []) :
    ((rewrite.editBy statement rule).flatMap valueBindings).filter (·.1 != rewrite.name) =
      (valueBindings statement).filter (·.1 != rewrite.name) := by
  have gone : ∀ bindings : List (String × Node), (∀ found ∈ bindings, found.1 = rewrite.name) →
      bindings.filter (·.1 != rewrite.name) = [] := by
    intro bindings own
    refine List.filter_eq_nil_iff.mpr fun found member => ?_
    simp [own found member]
  have ofExport : ∀ node : Node, node.kind = .exportStatement →
      valueBindings node = (node.child? .declaration).toList.flatMap bindingsOf := by
    intro node isExport
    simp [valueBindings, Declaration.declarationIn, isExport]
  have edit := editShape wraps
  generalize rewrite.editBy statement rule = statements at edit ⊢
  cases edit with
  | @defaultDeclaration declaration keyword found accepted =>
    simp only [Aim.acceptsDefault, Bool.and_eq_true, beq_iff_eq] at accepted
    obtain ⟨unexported, other, -⟩ := unlike_of_defaultFunctionOrClass? found
    have before := gone (valueBindings statement) fun binding member => by
      rw [ofExport statement exported] at member
      rcases of_defaultFunctionOrClass? found with ⟨declares, -⟩ | ⟨undeclared, -⟩
      · rw [declares] at member
        exact Declaration.name_of_mem_bindingsOf other accepted.1 (by simpa using member)
      · simp [undeclared] at member
    have demotes := gone (valueBindings (demoted statement declaration)) fun binding member =>
      name_of_mem_valueBindings_demoted shape unexported other accepted.1 member
    have generated : valueBindings rewrite.defaultExportNode = [] := rfl
    simp [demotes, generated, before]
  | @defaultIdentifier value reference edited keyword undeclared valued unwrapped isName kind
      keywords others called =>
    have undeclared' := (others .declaration (by decide)).trans undeclared
    simp [ofExport statement exported, ofExport edited (kind.trans exported), undeclared,
      undeclared']
  | @namedVariable declaration edited keyword found isVariables kind keywords others changed =>
    have same := bindingsOf_wrapDeclarators rewrite isVariables
    simpa [ofExport statement exported, ofExport edited (kind.trans exported), found, changed]
      using same
  | @namedFunction declaration keyword found accepted =>
    simp only [Aim.acceptsFunction, Bool.and_eq_true, beq_iff_eq] at accepted
    have unexported : declaration.kind ≠ .exportStatement := by simp [accepted.1.1]
    have other : declaration.kind ≠ .variableDeclaration := by simp [accepted.1.1]
    have before := gone (valueBindings statement) fun binding member => by
      rw [ofExport statement exported, found] at member
      exact Declaration.name_of_mem_bindingsOf other accepted.1.2 (by simpa using member)
    have demotes := gone (valueBindings (demoted statement declaration)) fun binding member =>
      name_of_mem_valueBindings_demoted shape unexported other accepted.1.2 member
    have generated : valueBindings rewrite.namedExportNode = [(rewrite.name, rewrite.nameCall)] :=
      rfl
    simp [demotes, generated, before]

/-- What a top-level node binds to other names stays through its edit. -/
theorem bindings_edit (signatures : Bool)
    (shape : statement.kind = .exportStatement → ExportShape statement) :
    ((rewrite.edit signatures statement).flatMap valueBindings).filter (·.1 != rewrite.name) =
      (valueBindings statement).filter (·.1 != rewrite.name) := by
  cases fires : rewrite.fires? statement with
  | some rule =>
    obtain ⟨exported, wraps⟩ := fires?_eq_some_iff.mp fires
    rw [edit, fires]
    exact bindings_editBy (shape exported) exported wraps
  | none =>
    rw [edit, fires]
    dsimp only
    split
    · next signature =>
      obtain ⟨exported, -, declaration, found, isSignature, -⟩ :=
        of_exportsSignature (Bool.and_eq_true_iff.mp signature).2
      have kind : (demoted statement declaration).kind = .functionSignature := by
        simp [demoted, isSignature, statementKind]
      -- A signature binds nothing, with its export or without.
      simp [found, valueBindings, Declaration.declarationIn, exported, kind, isSignature,
        bindingsOf, Declaration.isClassKind, Node.declarators]
    · simp

/-- What a top-level node exports under other names stays through its edit. -/
theorem exports_edit (signatures : Bool) (dropped : keep rewrite.name = false)
    (shape : statement.kind = .exportStatement → ExportShape statement) :
    ((rewrite.edit signatures statement).flatMap (statementExports bindings)).filter (keep ·.name) =
      (statementExports bindings statement).filter (keep ·.name) := by
  cases fires : rewrite.fires? statement with
  | some rule =>
    obtain ⟨exported, wraps⟩ := fires?_eq_some_iff.mp fires
    rw [edit, fires]
    exact exports_editBy (shape exported) exported dropped wraps
  | none =>
    rw [edit, fires]
    dsimp only
    split
    · next signature =>
      obtain ⟨exported, -, declaration, found, isSignature, -⟩ :=
        of_exportsSignature (Bool.and_eq_true_iff.mp signature).2
      have untyped := (shape exported).untyped_of_declaration found
      have demotes : statementExports bindings (demoted statement declaration) = [] :=
        statementExports_demoted (by simp [isSignature])
      rw [Declaration.statementExports_of_declaration exported untyped found]
      simp [found, demotes, declared, isSignature, Declaration.isClassKind, Node.declarators]
    · simp

/-! ## Modules -/

variable {root : Node} {target : ImportTarget}

/-- A look-up of another name finds what it found before the edits. -/
theorem lookup_edited {key : String} (other : key ≠ rewrite.name)
    (shapes : ∀ statement ∈ root.children, statement.kind = .exportStatement →
      ExportShape statement) :
    (Declaration.localBindings (rewrite.edited root target)).lookup key =
      (Declaration.localBindings root).lookup key := by
  rw [← Declaration.lookup_filter_ne _ other,
    ← Declaration.lookup_filter_ne (Declaration.localBindings root) other, Node.localBindings_eq,
    Node.localBindings_eq, rewrite.flatMap_edited root target rfl, List.filter_flatMap,
    List.filter_flatMap]
  congr 1
  exact List.flatMap_congr fun statement member => bindings_edit _ (shapes statement member)

/-- A module exports under other names what it exported before the edits. -/
theorem exports_edited (rewrite : Rewrite) (target : ImportTarget)
    (shapes : ∀ statement ∈ root.children, statement.kind = .exportStatement →
      ExportShape statement) :
    (Declaration.exports (rewrite.edited root target)).filter
        (Declaration.isOther root rewrite.name ·.name) =
      (Declaration.exports root).filter (Declaration.isOther root rewrite.name ·.name) := by
  have dropped : Declaration.isOther root rewrite.name rewrite.name = false := by
    simp [Declaration.isOther]
  rw [Declaration.exports_eq, Declaration.exports_eq, rewrite.flatMap_edited root target rfl,
    List.filter_flatMap, List.filter_flatMap]
  refine List.flatMap_congr fun statement member => ?_
  rw [exports_edit _ dropped (shapes statement member)]
  refine Declaration.statementExports_congr (fun key other => lookup_edited other shapes) dropped ?_
  intro other given
  have isAlias : other ∈ Declaration.aliases root rewrite.name :=
    List.mem_flatMap.mpr ⟨statement, member, given⟩
  simp [Declaration.isOther, isAlias]

end Wrap.Rewrite

namespace Component

/-- Which of the declarations of some names is accepted first does not depend on those of others. -/
theorem filter_firstAccepted {accepts : Declaration → Bool} {keep : String → Bool}
    {seen seen' : List String} (agree : ∀ name, keep name = true → (name ∈ seen ↔ name ∈ seen'))
    (declarations : List Declaration) :
    (firstAccepted accepts seen declarations).filter (keep ·.name) =
      firstAccepted accepts seen' (declarations.filter (keep ·.name)) := by
  induction declarations generalizing seen seen' with
  | nil => rfl
  | cons declaration rest ih =>
    cases kept : keep declaration.name with
    | false =>
      rw [List.filter_cons_of_neg (by simp [kept]), firstAccepted]
      split
      · exact ih agree
      · rw [List.filter_cons_of_neg (by simp [kept])]
        refine ih fun name keeps => ?_
        have other : name ≠ declaration.name := by
          rintro rfl
          rw [keeps] at kept
          cases kept
        rw [List.mem_cons, agree name keeps]
        simp [other]
    | true =>
      have same : seen.contains declaration.name = seen'.contains declaration.name := by
        rw [Bool.eq_iff_iff]
        simpa using agree _ kept
      rw [List.filter_cons_of_pos (by simpa using kept), firstAccepted, firstAccepted, same]
      split
      · exact ih agree
      · rw [List.filter_cons_of_pos (by simpa using kept), ih]
        intro name keeps
        simp [agree name keeps]

theorem filter_candidates (criteria : Criteria) (root : Node) (keep : String → Bool) :
    (candidates criteria root).filter (keep ·.name) =
      (firstAccepted criteria.accepts [] ((Declaration.exports root).filter (keep ·.name))).map
        Candidate.ofDeclaration := by
  have accepted : (firstAccepted criteria.accepts [] (Declaration.exports root)).filter
        (keep ·.name) =
      firstAccepted criteria.accepts [] ((Declaration.exports root).filter (keep ·.name)) :=
    filter_firstAccepted (fun _ _ => Iff.rfl) _
  rw [candidates, List.filter_map, ← accepted]
  rfl

end Component

namespace Wrap

/-- A wrap leaves the other components of its module to be detected as before: with the same kinds,
in the same order, by any criteria. Only the wrapped name and the names that clauses give to it are
excepted. -/
theorem leaves_others_detected {criteria : Component.Criteria} {style : QuoteStyle} {markup : Bool}
    {text name : String} {root : Node} {target : ImportTarget}
    (parsed : Syntax.parse markup text = some root) :
    ∀ output rules, transform criteria style text root name target = .ok (.wrapped output rules) →
      (Rewrite.of criteria style text root name target.symbol).ReadsBack markup root target output →
      ∃ outputRoot, Syntax.parse markup output = some outputRoot
        ∧ ∀ judge : Component.Criteria,
          (Component.candidates judge outputRoot).filter (Declaration.isOther root name ·.name) =
            (Component.candidates judge root).filter (Declaration.isOther root name ·.name) := by
  rintro output rules - readsBack
  obtain ⟨outputRoot, reads, outlined⟩ := Option.map_eq_some_iff.mp readsBack
  refine ⟨outputRoot, reads, fun judge => ?_⟩
  have exported := (Rewrite.of criteria style text root name target.symbol).exports_edited target
    fun statement member => Syntax.exportShape_of_parse parsed member
  rw [← Component.candidates_outline judge outputRoot, outlined, Component.candidates_outline,
    Component.filter_candidates, Component.filter_candidates]
  exact congrArg (fun declarations =>
    (Component.firstAccepted judge.accepts [] declarations).map _) exported

/-- A module of two variables and a clause that hands each out under a second name. -/
def aliasedPair : String :=
  "export let A=memo(),B=memo();export\x7bB as C,A as D\x7d"

theorem leaves_others_detected_aliasedPair :
    ∃ root output outputRoot, Syntax.parse true aliasedPair = some root
      ∧ transform .standard .single aliasedPair root "A" ⟨"w", "m"⟩ =
        .ok (.wrapped output [.namedVariable])
      ∧ Syntax.parse true output = some outputRoot
      ∧ (Component.candidates .standard outputRoot).filter (Declaration.isOther root "A" ·.name) =
        [⟨"B", .initializer, .named, none⟩, ⟨"C", .reference, .named, none⟩] := by
  have passes : wrapPasses aliasedPair (fun root output rules =>
      decide ((Component.candidates .standard root).filter (Declaration.isOther root "A" ·.name) =
          [⟨"B", .initializer, .named, none⟩, ⟨"C", .reference, .named, none⟩]
        ∧ rules = [.namedVariable]
        ∧ (Rewrite.of .standard .single aliasedPair root "A" "w").ReadsBack true root ⟨"w", "m"⟩
          output)) = true := by
    decide +kernel
  obtain ⟨root, output, _, parsed, answer, holds⟩ := exists_of_wrapPasses passes
  obtain ⟨before, rfl, readsBack⟩ := of_decide_eq_true holds
  obtain ⟨outputRoot, reads, same⟩ := leaves_others_detected parsed output _ answer readsBack
  exact ⟨root, output, outputRoot, parsed, answer, reads, (same .standard).trans before⟩

end Wrap

end RenderProbe
