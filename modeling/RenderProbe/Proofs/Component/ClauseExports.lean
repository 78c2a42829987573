import RenderProbe.Proofs.Component.Layout
import RenderProbe.Proofs.Syntax.Bindings
import RenderProbe.Syntax.Program

/-!
# Exports in clauses and exports in place

A declaration leaves its module in place, `export const A = …`, or by a clause, `export { A }`. The
two reach detection on separate ways: in place by what the statement declares, in a clause by a
table of the names bound at the top level. For a name that is declared once both find the same node.

* `lookup_localBindings`: the table finds what the one declaration of a name binds to it.
* `accepts_named_iff`: a named export is judged by its name and by the node that defines it.
* `clause_judged_as_inline`: the verdicts on exports by clause and in place.
-/

namespace RenderProbe

open Syntax (Node Kind Role)
open Syntax.Node (valueBindings declarationNames statementNames topLevelNames declaratorNames
  patternNames exportedDeclaration? outline)

namespace Declaration

/-! ## Values of names -/

/-- A declaration gives a name its value: itself, where it is a function or class, or what
a variable is initialised with. -/
inductive Defines (declaration : Node) (name : String) : Node → Prop
  | itself : declaration.kind = .functionDeclaration ∨ isClassKind declaration.kind = true →
    declaration.declaredName? = some name → Defines declaration name declaration
  | initializer {declarator written value : Node} : declarator ∈ declaration.declarators →
    declarator.child? .name = some written → written.kind = .identifier → written.lexeme = name →
    declarator.child? .value = some value → Defines declaration name value

section Names

variable {declaration statement root value : Node} {name : String}

theorem mem_bindingsOf_iff :
    (name, value) ∈ bindingsOf declaration ↔ Defines declaration name value := by
  have itself : declaration.kind = .functionDeclaration ∨ isClassKind declaration.kind = true ↔
      (declaration.kind == .functionDeclaration || isClassKind declaration.kind) = true := by simp
  by_cases whole : declaration.kind = .functionDeclaration ∨ isClassKind declaration.kind = true
  · have noVariables : ∀ declarator, declarator ∉ declaration.declarators := by
      intro declarator member
      rw [Node.kind_of_mem_declarators member] at whole
      rcases whole with other | other <;> cases other
    rw [bindingsOf, if_pos (itself.mp whole)]
    constructor
    · intro member
      split at member
      · next found =>
        obtain ⟨rfl, rfl⟩ := Prod.mk.inj (List.mem_singleton.mp member)
        exact .itself whole found
      · cases member
    · intro defines
      cases defines with
      | itself _ found => simp [found]
      | initializer member => exact absurd member (noVariables _)
  · rw [bindingsOf, if_neg (fun other => whole (itself.mpr other)), List.mem_filterMap]
    constructor
    · rintro ⟨declarator, member, bound⟩
      split at bound
      · next written found named valued =>
        split at bound
        · next isName =>
          cases bound
          exact .initializer member named (by simpa using isName) rfl valued
        · cases bound
      · cases bound
    · intro defines
      cases defines with
      | itself other => exact absurd other whole
      | @initializer declarator written _ member named isName same valued =>
        exact ⟨declarator, member, by simp [named, valued, isName, same]⟩

/-- What has a value at the top level is a name bound there, each time it has one. -/
theorem names_bindingsOf_sublist (declaration : Node) :
    ((bindingsOf declaration).map Prod.fst).Sublist (declarationNames declaration) := by
  unfold bindingsOf
  split
  · next whole =>
    have names : declarationNames declaration = declaration.declaredName?.toList := by
      unfold isClassKind at whole
      unfold Node.declarationNames
      cases kind : declaration.kind <;> simp [kind] at whole ⊢
    rw [names]
    cases declaration.declaredName? <;> simp
  · by_cases isVariables : declaration.kind = .variableDeclaration
    · have names :
          declarationNames declaration = declaration.declarators.flatMap declaratorNames := by
        simp [Node.declarationNames, isVariables]
      rw [names]
      induction declaration.declarators with
      | nil => exact .slnil
      | cons declarator rest ih =>
        rw [List.filterMap_cons, List.flatMap_cons]
        split
        · exact ih.trans (List.sublist_append_right _ _)
        · next bound found =>
          split at found
          · next written value named valued =>
            split at found
            · next isName =>
              cases found
              have own : declaratorNames declarator = [written.lexeme] := by
                have isName : written.kind = .identifier := by simpa using isName
                cases written
                simp_all [Node.declaratorNames, Node.patternNames]
              rw [own]
              exact ih.cons_cons _
            · cases found
          · cases found
    · have none : declaration.declarators = [] :=
        List.eq_nil_iff_forall_not_mem.mpr fun _ member =>
          isVariables (Node.kind_of_mem_declarators member)
      simp [none]

/-- A statement binds the names of the declaration in it. -/
theorem statementNames_of_declarationIn (declared : declarationIn statement = some declaration)
    (other : statement.kind ≠ .importStatement) :
    statementNames statement = declarationNames declaration := by
  unfold declarationIn at declared
  unfold Node.statementNames
  split
  · contradiction
  · next exported =>
    rw [if_pos (by simp [exported])] at declared
    simp [Node.exportedDeclaration?, declared]
  · next exported =>
    rw [if_neg (by simpa using exported)] at declared
    rw [Option.some.inj declared]

theorem mem_statementNames (declared : declarationIn statement = some declaration)
    (named : name ∈ declarationNames declaration) : name ∈ statementNames statement := by
  by_cases isImport : statement.kind = .importStatement
  · have same : statement = declaration := by simpa [declarationIn, isImport] using declared
    simp [← same, Node.declarationNames, isImport] at named
  · rwa [statementNames_of_declarationIn declared isImport]

theorem names_valueBindings_sublist (statement : Node) :
    ((valueBindings statement).map Prod.fst).Sublist (statementNames statement) := by
  unfold Node.valueBindings
  cases declared : declarationIn statement with
  | none => simp
  | some declaration =>
    by_cases isImport : statement.kind = .importStatement
    · have same : statement = declaration := by simpa [declarationIn, isImport] using declared
      simp [← same, bindingsOf, isImport, isClassKind, Node.declarators]
    · rw [statementNames_of_declarationIn declared isImport]
      simpa using names_bindingsOf_sublist declaration

theorem names_localBindings_sublist (root : Node) :
    ((localBindings root).map Prod.fst).Sublist (topLevelNames root) := by
  rw [Node.localBindings_eq, Node.topLevelNames, List.map_flatMap]
  induction root.children with
  | nil => exact .slnil
  | cons statement rest ih =>
    rw [List.flatMap_cons, List.flatMap_cons]
    exact (names_valueBindings_sublist statement).append ih

/-- A name that is listed once is found wherever it stands. -/
theorem lookup_eq_some_iff_of_once {bindings : List (String × Node)}
    (once : (bindings.map Prod.fst).count name ≤ 1) :
    bindings.lookup name = some value ↔ (name, value) ∈ bindings := by
  induction bindings with
  | nil => simp
  | cons binding rest ih =>
    obtain ⟨key, node⟩ := binding
    rw [List.lookup_cons, List.mem_cons]
    by_cases same : name = key
    · subst same
      have absent : (name, value) ∉ rest := by
        intro member
        have listed : 0 < (rest.map Prod.fst).count name :=
          List.count_pos_iff.mpr (List.mem_map.mpr ⟨_, member, rfl⟩)
        simp only [List.map_cons, List.count_cons_self] at once
        omega
      simp [absent, eq_comm]
    · have other : (name == key) = false := by simpa using same
      have once' : (rest.map Prod.fst).count name ≤ 1 := by
        simpa [List.count_cons, Ne.symm same] using once
      simp [other, same, ih once']

end Names

/-! ## Names declared once -/

/-- The kinds of statement that declare values under names. -/
def declaringKinds : List Kind :=
  [.functionDeclaration, .generatorDeclaration, .classDeclaration, .abstractClassDeclaration,
   .variableDeclaration]

/-- A name that one declaration at the top level binds, exported or not, and nothing else there. Of
two bindings a clause would take the first, whatever the language makes of the second. -/
structure DeclaredOnce (root declaration : Node) (name : String) : Prop where
  stands : ∃ statement ∈ root.namedChildren, declarationIn statement = some declaration
  declares : declaration.kind ∈ declaringKinds
  names : name ∈ declarationNames declaration
  once : (topLevelNames root).count name = 1

section Once

variable {declaration root value : Node} {name : String}

theorem Defines.mem_declarationNames (defines : Defines declaration name value) :
    name ∈ declarationNames declaration :=
  (names_bindingsOf_sublist declaration).subset
    (List.mem_map.mpr ⟨_, mem_bindingsOf_iff.mpr defines, rfl⟩)

theorem mem_localBindings_iff : (name, value) ∈ localBindings root ↔
    ∃ statement ∈ root.namedChildren, ∃ declaration,
      declarationIn statement = some declaration ∧ Defines declaration name value := by
  simp only [localBindings, List.mem_flatMap]
  refine exists_congr fun statement => and_congr_right fun _ => ?_
  cases declarationIn statement <;> simp [mem_bindingsOf_iff]

/-- Two statements that bind one name bind it twice. -/
theorem two_le_count_topLevelNames {statement other : Node} (inRoot : statement ∈ root.children)
    (otherInRoot : other ∈ root.children) (apart : other ≠ statement)
    (named : name ∈ statementNames statement) (otherNamed : name ∈ statementNames other) :
    2 ≤ (topLevelNames root).count name := by
  obtain ⟨before, after, children⟩ := List.append_of_mem inRoot
  have elsewhere : other ∈ before ++ after := by
    rw [children] at otherInRoot
    simpa [apart] using otherInRoot
  have here : 0 < (statementNames statement).count name := List.count_pos_iff.mpr named
  have there : 0 < ((before ++ after).flatMap statementNames).count name :=
    List.count_pos_iff.mpr (List.mem_flatMap.mpr ⟨other, elsewhere, otherNamed⟩)
  rw [topLevelNames, children]
  simp only [List.flatMap_append, List.flatMap_cons, List.count_append] at there ⊢
  omega

/-- The table of names finds what the one declaration of a name binds to it. -/
theorem DeclaredOnce.lookup_localBindings (declared : DeclaredOnce root declaration name) :
    (localBindings root).lookup name = some value ↔ Defines declaration name value := by
  obtain ⟨statement, inRoot, stands⟩ := declared.stands
  have once : ((localBindings root).map Prod.fst).count name ≤ 1 :=
    declared.once ▸ (names_localBindings_sublist root).count_le name
  rw [lookup_eq_some_iff_of_once once, mem_localBindings_iff]
  constructor
  · rintro ⟨other, otherInRoot, found, otherStands, defines⟩
    have same : other = statement := Decidable.byContradiction fun apart => by
      have twice := two_le_count_topLevelNames (List.mem_filter.mp inRoot).1
        (List.mem_filter.mp otherInRoot).1 apart
        (mem_statementNames stands declared.names)
        (mem_statementNames otherStands defines.mem_declarationNames)
      have once := declared.once
      omega
    rw [same, stands] at otherStands
    exact Option.some.inj otherStands ▸ defines
  · intro defines
    exact ⟨statement, inRoot, declaration, stands, defines⟩

end Once

/-! ## Statements that export -/

/-- A statement that exports a declaration in place, wherever it stands and however it is laid
out. -/
structure ExportsInline (statement declaration : Node) : Prop where
  exports : statement.kind = .exportStatement
  untyped : statement.hasKeyword "type" = false
  named : statement.hasKeyword "default" = false
  inside : ∃ inside, statement.child? .declaration = some inside
    ∧ (inside.withRole declaration.role).outline = declaration.outline

/-- A statement with a clause of names of the module itself. -/
structure ExportsClause (statement clause : Node) : Prop where
  exports : statement.kind = .exportStatement
  untyped : statement.hasKeyword "type" = false
  named : statement.hasKeyword "default" = false
  noDeclaration : statement.child? .declaration = none
  noSource : statement.child? .source = none
  inStatement : clause ∈ statement.namedChildren
  isClause : clause.kind = .exportClause

/-- A specifier in a clause of a module that hands the value of a local name out under a name. -/
structure Specifies (root specifier : Node) (localName exported : String) : Prop where
  inClause : ∃ statement ∈ root.namedChildren, ∃ clause, ExportsClause statement clause
    ∧ specifier ∈ clause.namedChildren
  isSpecifier : specifier.kind = .exportSpecifier
  untyped : specifier.hasKeyword "type" = false
  names : (specifier.child? .name).bind Node.lexeme? = some localName
  handsOut : ((specifier.child? .alias).bind Node.lexeme?).getD localName = exported

section Statements

variable {root specifier statement declaration inside : Node} {localName exported name : String}

/-- What a specifier hands out is among the exports of the module. -/
theorem Specifies.mem_exports (specifies : Specifies root specifier localName exported)
    {found : Declaration} (handedOut : ofSpecifier (localBindings root) specifier = some found) :
    found ∈ exports root := by
  obtain ⟨statement, inRoot, clause, shape, inClause⟩ := specifies.inClause
  refine List.mem_flatMap.mpr ⟨statement, inRoot, ?_⟩
  have noDefault : defaultValue? statement = none := by simp [defaultValue?, shape.named]
  refine (mem_statementExports shape.exports shape.untyped).mpr
    (.inr (.inr (.inr ⟨noDefault, shape.noDeclaration, shape.noSource, ?_⟩)))
  refine List.mem_flatMap.mpr ⟨clause, ?_, List.mem_filterMap.mpr ⟨specifier, inClause, handedOut⟩⟩
  simpa [shape.isClause] using shape.inStatement

theorem Specifies.ofSpecifier_eq (specifies : Specifies root specifier localName exported) :
    ofSpecifier (localBindings root) specifier = some
      (if exported = "default" then
          ⟨localName, .reference, .default, (localBindings root).lookup localName⟩
        else ⟨exported, .reference, .named, (localBindings root).lookup localName⟩) := by
  obtain ⟨written, found, lexeme⟩ := Option.bind_eq_some_iff.mp specifies.names
  have isName : localName ≠ "" ∧ written.lexeme = localName := by
    unfold Node.lexeme? at lexeme
    split at lexeme
    · cases lexeme
    · next nonempty =>
      rw [← Option.some.inj lexeme]
      exact ⟨by simpa using nonempty, rfl⟩
  have handsOut := specifies.handsOut
  by_cases isDefault : exported = "default" <;>
    simp [ofSpecifier, specifies.isSpecifier, specifies.untyped, found, isName, handsOut, isDefault]

end Statements

/-! ## What defines a name -/

section Definitions

variable {statement declaration inside value : Node} {name : String}

/-- What a statement declares under a name is defined by what the name gets as its value. -/
theorem exists_mem_declared_iff (declares : declaration.kind ∈ declaringKinds)
    {test : Node → Prop} :
    (∃ inline ∈ declared .named declaration, inline.name = name
        ∧ ∃ value, inline.node = some value ∧ test value) ↔
      ∃ value, Defines declaration name value ∧ test value := by
  constructor
  · rintro ⟨inline, member, rfl, value, defined, tested⟩
    refine ⟨value, ?_, tested⟩
    rcases mem_declared.mp member with ⟨isFunction, key, found, rfl⟩ | ⟨isClass, key, found, rfl⟩ |
      ⟨declarator, inDeclaration, written, found, isName, rfl⟩
    · have isDeclaration : declaration.kind ≠ .functionExpression := fun other => by
        simp [other, declaringKinds] at declares
      exact Option.some.inj defined ▸ .itself (.inl (isFunction.resolve_right isDeclaration)) found
    · exact Option.some.inj defined ▸ .itself (.inr isClass) found
    · exact .initializer inDeclaration found isName rfl defined
  · rintro ⟨value, defines, tested⟩
    cases defines with
    | itself whole found =>
      rcases whole with isFunction | isClass
      · exact ⟨_, mem_declared.mpr (.inl ⟨.inl isFunction, name, found, rfl⟩), rfl, _, rfl, tested⟩
      · exact ⟨_, mem_declared.mpr (.inr (.inl ⟨isClass, name, found, rfl⟩)), rfl, _, rfl, tested⟩
    | @initializer declarator written _ member found isName same valued =>
      exact ⟨_, mem_declared.mpr (.inr (.inr ⟨declarator, member, written, found, isName, rfl⟩)),
        same, value, valued, tested⟩

theorem defines_outline_iff : Defines declaration.outline name value ↔
    ∃ inner, Defines declaration name inner ∧ value = inner.outline := by
  rw [← mem_bindingsOf_iff, Node.bindingsOf_outline, List.mem_map]
  constructor
  · rintro ⟨⟨key, inner⟩, member, same⟩
    obtain ⟨rfl, rfl⟩ := Prod.mk.inj same
    exact ⟨inner, mem_bindingsOf_iff.mp member, rfl⟩
  · rintro ⟨inner, defines, rfl⟩
    exact ⟨_, mem_bindingsOf_iff.mpr defines, rfl⟩

end Definitions

end Declaration

namespace Component

open Declaration (Defines DeclaredOnce ExportsInline Specifies)

variable {criteria : Criteria} {node declaration : Node} {found : Declaration} {rule : Rule}

/-- A rule besides the gate accepts a node as what defines a named export. -/
def Criteria.PassesRule (criteria : Criteria) (node : Node) : Prop :=
  ∃ rule ∈ acceptingRules, criteria.holds ⟨"", .initializer, .named, some node⟩ rule = true

/-- Besides the gate, what defines a named export decides. -/
theorem holds_of_named (accepting : rule ∈ acceptingRules) (named : found.exportKind = .named) :
    criteria.holds found rule = true ↔ ∃ node, found.node = some node
      ∧ criteria.holds ⟨"", .initializer, .named, some node⟩ rule = true := by
  cases defined : found.node <;> cases rule <;>
    simp_all [Criteria.holds, acceptingRules]

theorem passes_iff (named : found.exportKind = .named) :
    (∃ rule ∈ acceptingRules, criteria.holds found rule = true) ↔
      ∃ node, found.node = some node ∧ criteria.PassesRule node := by
  constructor
  · rintro ⟨rule, accepting, holds⟩
    obtain ⟨node, defined, holds⟩ := (holds_of_named accepting named).mp holds
    exact ⟨node, defined, rule, accepting, holds⟩
  · rintro ⟨node, defined, rule, accepting, holds⟩
    exact ⟨rule, accepting, (holds_of_named accepting named).mpr ⟨node, defined, holds⟩⟩

/-- A named export is judged by its name and by the node that defines it. The kind of the
declaration plays no part in that, so clauses can be compared with exports in place. -/
theorem accepts_named_iff (named : found.exportKind = .named) :
    criteria.accepts found = true ↔ isComponentName found.name = true
      ∧ ∃ node, found.node = some node ∧ criteria.PassesRule node := by
  rw [Criteria.accepts, Bool.and_eq_true, List.any_eq_true, ← passes_iff named]
  exact Iff.rfl

theorem passesRule_outline : criteria.PassesRule node.outline ↔ criteria.PassesRule node := by
  refine exists_congr fun rule => and_congr_right fun _ => ?_
  rw [← holds_outlineOf criteria ⟨"", .initializer, .named, some node⟩ rule]
  rfl

/-- The part a node plays says nothing to the rules, except to those that look through it. A value
has another part in a clause's module than in an export in place. -/
theorem passesRule_withRole (solid : node.kind.isTransparent = false) (role : Role) :
    criteria.PassesRule (node.withRole role) ↔ criteria.PassesRule node := by
  have solid' : (node.withRole role).kind.isTransparent = false := solid
  refine exists_congr fun rule => and_congr_right fun _ => ?_
  cases rule with
  | componentName | defaultIdentifier | functionReturnsMarkup => exact Iff.rfl
  | classComponent | componentInitializer =>
    simp only [Criteria.holds, Option.bind_some, Node.unwrap_of_not_transparent solid,
      Node.unwrap_of_not_transparent solid']
    exact Iff.rfl

/-- A declaration gives a name a value that a rule besides the gate accepts. -/
def Criteria.PassesAs (criteria : Criteria) (declaration : Node) (name : String) : Prop :=
  ∃ value, Defines declaration name value ∧ criteria.PassesRule value

section Alike

variable {root statement specifier inside : Node} {name localName exported : String}

theorem passesAs_outline :
    criteria.PassesAs declaration.outline name ↔ criteria.PassesAs declaration name := by
  constructor
  · rintro ⟨value, defines, passes⟩
    obtain ⟨inner, bound, rfl⟩ := Declaration.defines_outline_iff.mp defines
    exact ⟨inner, bound, passesRule_outline.mp passes⟩
  · rintro ⟨inner, defines, passes⟩
    exact ⟨_, Declaration.defines_outline_iff.mpr ⟨inner, defines, rfl⟩,
      passesRule_outline.mpr passes⟩

theorem Criteria.PassesAs.withRole (passes : criteria.PassesAs declaration name) (role : Role) :
    criteria.PassesAs (declaration.withRole role) name := by
  obtain ⟨value, defines, passes⟩ := passes
  cases defines with
  | itself whole found =>
    have solid : declaration.kind.isTransparent = false := by
      generalize declaration.kind = kind at whole
      rcases whole with rfl | isClass
      · rfl
      · revert isClass
        cases kind <;> decide
    exact ⟨_, .itself whole found, (passesRule_withRole solid role).mpr passes⟩
  | initializer member found isName same valued =>
    exact ⟨value, .initializer member found isName same valued, passes⟩

theorem passesAs_withRole (role : Role) :
    criteria.PassesAs (declaration.withRole role) name ↔ criteria.PassesAs declaration name := by
  constructor
  · intro passes
    have back : (declaration.withRole role).withRole declaration.role = declaration := by
      cases declaration
      rfl
    exact back ▸ passes.withRole declaration.role
  · exact fun passes => passes.withRole role

/-- The verdict on a declaration that is exported in place. -/
theorem accepts_inline_iff (declares : declaration.kind ∈ Declaration.declaringKinds)
    (inline : ExportsInline statement declaration) (bindings : List (String × Node)) :
    (∃ found ∈ Declaration.statementExports bindings statement,
        found.name = name ∧ criteria.accepts found = true) ↔
      isComponentName name = true ∧ criteria.PassesAs declaration name := by
  obtain ⟨inside, found, same⟩ := inline.inside
  have kind : inside.kind = declaration.kind := by
    have outlines := congrArg Node.kind same
    simpa [Node.withRole] using outlines
  have exports :
      Declaration.statementExports bindings statement = Declaration.declared .named inside := by
    simp [Declaration.statementExports, Declaration.defaultValue?, Declaration.exportKindOf, found,
      inline.exports, inline.untyped, inline.named]
  have alike : criteria.PassesAs inside name ↔ criteria.PassesAs declaration name := by
    rw [← passesAs_withRole declaration.role, ← passesAs_outline, same, passesAs_outline]
  rw [exports, ← alike, Criteria.PassesAs,
    ← Declaration.exists_mem_declared_iff (kind.symm ▸ declares : inside.kind ∈ _)]
  constructor
  · rintro ⟨found, member, rfl, accepted⟩
    obtain ⟨gate, passes⟩ :=
      (accepts_named_iff (Declaration.exportKind_of_mem_declared member)).mp accepted
    exact ⟨gate, found, member, rfl, passes⟩
  · rintro ⟨gate, found, member, rfl, passes⟩
    exact ⟨found, member, rfl,
      (accepts_named_iff (Declaration.exportKind_of_mem_declared member)).mpr ⟨gate, passes⟩⟩

/-- The verdict on a name that a clause hands out under another one than `default`. -/
theorem accepts_clause_iff (declared : DeclaredOnce root declaration localName) :
    criteria.accepts ⟨exported, .reference, .named,
      (Declaration.localBindings root).lookup localName⟩
        = true ↔
      isComponentName exported = true ∧ criteria.PassesAs declaration localName := by
  rw [accepts_named_iff rfl]
  refine and_congr_right fun _ => exists_congr fun value => and_congr_left fun _ => ?_
  exact declared.lookup_localBindings

/-- A name without value at the top level is not reported from a clause: there is nothing to judge
it by. -/
theorem not_accepts_of_undefined {found : Declaration}
    (specifies : Specifies root specifier localName exported)
    (undefined : ∀ statement ∈ root.namedChildren, ∀ declaration,
      Declaration.declarationIn statement = some declaration →
      ∀ value, ¬Defines declaration localName value)
    (handedOut : Declaration.ofSpecifier (Declaration.localBindings root) specifier = some found)
    (named : found.exportKind = .named) : criteria.accepts found = false := by
  have unbound : (Declaration.localBindings root).lookup localName = none :=
    Option.eq_none_iff_forall_ne_some.mpr fun value bound => by
      obtain ⟨before, after, split, -⟩ := List.lookup_eq_some_iff.mp bound
      obtain ⟨statement, inRoot, declaration, stands, defines⟩ :=
        Declaration.mem_localBindings_iff.mp (split ▸ by simp :
          (localName, value) ∈ Declaration.localBindings root)
      exact undefined statement inRoot declaration stands value defines
  rw [specifies.ofSpecifier_eq, unbound] at handedOut
  have noNode : found.node = none := by
    rw [← Option.some.inj handedOut]
    split <;> rfl
  exact Bool.eq_false_iff.mpr fun accepted => by
    obtain ⟨-, node, defined, -⟩ := (accepts_named_iff named).mp accepted
    simp [noNode] at defined

/-- By the clause of a type export or of an export from another module no name leaves, so what such
a statement exports by reference is its default. -/
theorem exportKind_of_reference {bindings : List (String × Node)} {found : Declaration}
    (typedOrFrom : statement.hasKeyword "type" = true ∨ (statement.child? .source).isSome = true)
    (member : found ∈ Declaration.statementExports bindings statement)
    (isReference : found.kind = .reference) : found.exportKind = .default := by
  obtain ⟨exported, untyped⟩ := Declaration.exported_of_mem_statementExports member
  rcases (Declaration.mem_statementExports exported untyped).mp member with
    ⟨value, -, -, rfl⟩ | ⟨value, -, -, inValue⟩ | ⟨node, -, inNode⟩ | ⟨-, -, noSource, -⟩
  · rfl
  · exact absurd isReference (Declaration.kind_of_mem_declared inValue)
  · exact absurd isReference (Declaration.kind_of_mem_declared inNode)
  · simp [untyped, noSource] at typedOrFrom

/-- Clauses are judged as exports in place. A name that is declared once is reported from a clause
when its declaration would be reported in place, and under another name when that name and its
declaration pass. A name without value at the top level is not reported from a clause, and nothing
leaves by the clause of a type export or of an export from another module. -/
theorem clause_judged_as_inline (criteria : Criteria) (root : Node) :
    (∀ declaration specifier name, DeclaredOnce root declaration name →
      Specifies root specifier name name →
      ∀ module, ∀ statement ∈ module.namedChildren, ExportsInline statement declaration →
        ∃ found ∈ Declaration.exports root,
          Declaration.ofSpecifier (Declaration.localBindings root) specifier = some found
          ∧ (criteria.accepts found = true ↔
            ∃ inline ∈ Declaration.statementExports (Declaration.localBindings module) statement,
              inline.name = name ∧ criteria.accepts inline = true))
    ∧ (∀ declaration specifier name exported, DeclaredOnce root declaration name →
      Specifies root specifier name exported → exported ≠ "default" →
        ∃ found ∈ Declaration.exports root,
          Declaration.ofSpecifier (Declaration.localBindings root) specifier = some found
          ∧ (criteria.accepts found = true ↔ isComponentName exported = true
            ∧ ∃ inline ∈ Declaration.declared .named declaration, inline.name = name
              ∧ ∃ rule ∈ acceptingRules, criteria.holds inline rule = true))
    ∧ (∀ specifier name exported, Specifies root specifier name exported →
      (∀ statement ∈ root.namedChildren, ∀ declaration,
        Declaration.declarationIn statement = some declaration →
        ∀ value, ¬Defines declaration name value) →
      ∀ found, Declaration.ofSpecifier (Declaration.localBindings root) specifier = some found →
        found.exportKind = .named → criteria.accepts found = false)
    ∧ (∀ statement ∈ root.namedChildren,
      statement.hasKeyword "type" = true ∨ (statement.child? .source).isSome = true →
      ∀ found ∈ Declaration.statementExports (Declaration.localBindings root) statement,
        found.kind = .reference → found.exportKind = .default) := by
  refine ⟨?inPlace, ?renamed, ?unbound, ?elsewhere⟩
  case inPlace =>
    intro declaration specifier name declared specifies module statement _ inline
    have handedOut := specifies.ofSpecifier_eq
    refine ⟨_, specifies.mem_exports handedOut, handedOut, ?_⟩
    rw [accepts_inline_iff declared.declares inline]
    split
    · next isDefault =>
      -- No declaration binds this word; the gate turns it down on either way.
      have turnedDown : isComponentName name = false := isDefault ▸ rfl
      simp [Criteria.accepts, Criteria.holds, turnedDown]
    · exact accepts_clause_iff declared
  case renamed =>
    intro declaration specifier name exported declared specifies named
    have handedOut := specifies.ofSpecifier_eq
    rw [if_neg named] at handedOut
    refine ⟨_, specifies.mem_exports handedOut, handedOut, (accepts_clause_iff declared).trans ?_⟩
    refine and_congr_right fun _ => ?_
    rw [Criteria.PassesAs, ← Declaration.exists_mem_declared_iff declared.declares]
    refine exists_congr fun inline => and_congr_right fun member => and_congr_right fun _ => ?_
    exact (passes_iff (Declaration.exportKind_of_mem_declared member)).symm
  case unbound =>
    intro specifier name exported specifies undefined found handedOut named
    exact not_accepts_of_undefined specifies undefined handedOut named
  case elsewhere =>
    intro statement _ typedOrFrom found member isReference
    exact exportKind_of_reference typedOrFrom member isReference

end Alike

/-! A component behind the clause that exports it under two names, beside a name from another module
and one that nothing declares, and the same component exported in place. -/

/-- The module with the clauses. -/
def clauseText : String :=
  "export \x7b A, A as B, g \x7d\nconst A = memo(f)\nexport \x7b d \x7d from 'm'\n"

/-- `A` in its clause. -/
def plainSpecifier : Node :=
  ⟨.exportSpecifier, .plain, ⟨9, 10, 0, 0⟩, "", [⟨.identifier, .name, ⟨9, 10, 0, 0⟩, "A", []⟩]⟩

/-- `A as B` in its clause. -/
def renamedSpecifier : Node :=
  ⟨.exportSpecifier, .plain, ⟨12, 18, 0, 0⟩, "",
    [⟨.identifier, .name, ⟨12, 13, 0, 0⟩, "A", []⟩, ⟨.token, .plain, ⟨14, 16, 0, 0⟩, "as", []⟩,
      ⟨.identifier, .alias, ⟨17, 18, 0, 0⟩, "B", []⟩]⟩

/-- `g` in its clause. -/
def unboundSpecifier : Node :=
  ⟨.exportSpecifier, .plain, ⟨20, 21, 0, 0⟩, "", [⟨.identifier, .name, ⟨20, 21, 0, 0⟩, "g", []⟩]⟩

/-- The clause of the three. -/
def localClause : Node :=
  ⟨.exportClause, .plain, ⟨7, 23, 0, 0⟩, "",
    [⟨.token, .plain, ⟨7, 8, 0, 0⟩, "\x7b", []⟩, plainSpecifier,
      ⟨.token, .plain, ⟨10, 11, 0, 0⟩, ",", []⟩, renamedSpecifier,
      ⟨.token, .plain, ⟨18, 19, 0, 0⟩, ",", []⟩, unboundSpecifier,
      ⟨.token, .plain, ⟨22, 23, 0, 0⟩, "\x7d", []⟩]⟩

/-- The statement of that clause. -/
def clauseStatement : Node :=
  ⟨.exportStatement, .plain, ⟨0, 23, 0, 0⟩, "",
    [⟨.token, .plain, ⟨0, 6, 0, 0⟩, "export", []⟩, localClause]⟩

/-- `const A = memo(f)`, by its role and by where it starts. -/
def memoDeclaration (role : Role) (start row : Nat) : Node :=
  ⟨.variableDeclaration, role, ⟨start, start + 17, row, row⟩, "",
    [⟨.token, .plain, ⟨start, start + 5, row, row⟩, "const", []⟩,
      ⟨.declarator, .plain, ⟨start + 6, start + 17, row, row⟩, "",
        [⟨.identifier, .name, ⟨start + 6, start + 7, row, row⟩, "A", []⟩,
          ⟨.token, .plain, ⟨start + 8, start + 9, row, row⟩, "=", []⟩,
          ⟨.call, .value, ⟨start + 10, start + 17, row, row⟩, "",
            [⟨.identifier, .callee, ⟨start + 10, start + 14, row, row⟩, "memo", []⟩,
              ⟨.arguments, .plain, ⟨start + 14, start + 17, row, row⟩, "",
                [⟨.token, .plain, ⟨start + 14, start + 15, row, row⟩, "(", []⟩,
                  ⟨.identifier, .plain, ⟨start + 15, start + 16, row, row⟩, "f", []⟩,
                  ⟨.token, .plain, ⟨start + 16, start + 17, row, row⟩, ")", []⟩]⟩]⟩]⟩]⟩

/-- `export { d } from 'm'`. -/
def foreignStatement : Node :=
  ⟨.exportStatement, .plain, ⟨42, 63, 2, 2⟩, "",
    [⟨.token, .plain, ⟨42, 48, 2, 2⟩, "export", []⟩,
      ⟨.exportClause, .plain, ⟨49, 54, 2, 2⟩, "",
        [⟨.token, .plain, ⟨49, 50, 2, 2⟩, "\x7b", []⟩,
          ⟨.exportSpecifier, .plain, ⟨51, 52, 2, 2⟩, "",
            [⟨.identifier, .name, ⟨51, 52, 2, 2⟩, "d", []⟩]⟩,
          ⟨.token, .plain, ⟨53, 54, 2, 2⟩, "\x7d", []⟩]⟩,
      ⟨.token, .plain, ⟨55, 59, 2, 2⟩, "from", []⟩,
      ⟨.stringLiteral, .source, ⟨60, 63, 2, 2⟩, "'m'", []⟩]⟩

/-- The tree of the module with the clauses. -/
def clauseModule : Node :=
  ⟨.program, .plain, ⟨0, 64, 0, 3⟩, "",
    [clauseStatement, memoDeclaration .plain 24 1, foreignStatement]⟩

/-- `export const A = memo(f)`. -/
def inlineStatement : Node :=
  ⟨.exportStatement, .plain, ⟨0, 24, 0, 0⟩, "",
    [⟨.token, .plain, ⟨0, 6, 0, 0⟩, "export", []⟩, memoDeclaration .declaration 7 0]⟩

/-- The module of that statement. -/
def inlineModule : Node :=
  ⟨.program, .plain, ⟨0, 25, 0, 1⟩, "", [inlineStatement]⟩

theorem clause_judged_as_inline_memo :
    ∃ root module declaration, Syntax.parse true clauseText = some root
      ∧ Syntax.parse true "export const A = memo(f)\n" = some module
      ∧ DeclaredOnce root declaration "A"
      ∧ (∃ statement ∈ module.namedChildren, ExportsInline statement declaration)
      ∧ ∃ plain renamed unbound, Specifies root plain "A" "A" ∧ Specifies root renamed "A" "B"
        ∧ Specifies root unbound "g" "g"
        ∧ (∃ found ∈ Declaration.exports root,
            Declaration.ofSpecifier (Declaration.localBindings root) plain = some found
            ∧ Criteria.standard.accepts found = true)
        ∧ (∃ found ∈ Declaration.exports root,
            Declaration.ofSpecifier (Declaration.localBindings root) renamed = some found
            ∧ Criteria.standard.accepts found = true)
        ∧ (∃ found, Declaration.ofSpecifier (Declaration.localBindings root) unbound = some found
            ∧ Criteria.standard.accepts found = false)
        ∧ ∃ statement ∈ root.namedChildren, (statement.child? .source).isSome = true
          ∧ ∀ found ∈ Declaration.statementExports (Declaration.localBindings root) statement,
            found.kind = .reference → found.exportKind = .default := by
  have declared : DeclaredOnce clauseModule (memoDeclaration .plain 24 1) "A" :=
    ⟨⟨memoDeclaration .plain 24 1, by decide, rfl⟩, by decide, by decide, by decide⟩
  have inline : ExportsInline inlineStatement (memoDeclaration .plain 24 1) :=
    ⟨rfl, by decide, by decide, memoDeclaration .declaration 7 0, rfl, by decide⟩
  have inClause : Declaration.ExportsClause clauseStatement localClause :=
    ⟨rfl, by decide, by decide, by decide, by decide, by decide, rfl⟩
  have specifiesPlain : Specifies clauseModule plainSpecifier "A" "A" :=
    ⟨⟨clauseStatement, by decide, localClause, inClause, by decide⟩, rfl, by decide, by decide,
      by decide⟩
  have specifiesRenamed : Specifies clauseModule renamedSpecifier "A" "B" :=
    ⟨⟨clauseStatement, by decide, localClause, inClause, by decide⟩, rfl, by decide, by decide,
      by decide⟩
  have specifiesUnbound : Specifies clauseModule unboundSpecifier "g" "g" :=
    ⟨⟨clauseStatement, by decide, localClause, inClause, by decide⟩, rfl, by decide, by decide,
      by decide⟩
  obtain ⟨inPlace, underName, valueless, elsewhere⟩ :=
    clause_judged_as_inline Criteria.standard clauseModule
  refine ⟨clauseModule, inlineModule,
    memoDeclaration .plain 24 1, by decide +kernel, by decide +kernel, declared,
    ⟨_, List.mem_cons_self, inline⟩, plainSpecifier, renamedSpecifier, unboundSpecifier,
    specifiesPlain, specifiesRenamed, specifiesUnbound, ?_, ?_, ?_, foreignStatement, by decide,
    rfl, elsewhere foreignStatement (by decide) (.inr rfl)⟩
  · obtain ⟨found, inExports, handedOut, alike⟩ :=
      inPlace _ plainSpecifier "A" declared specifiesPlain
      inlineModule inlineStatement List.mem_cons_self inline
    exact ⟨found, inExports, handedOut, alike.mpr ⟨_, List.mem_cons_self, rfl, by decide⟩⟩
  · obtain ⟨found, inExports, handedOut, alike⟩ := underName _ renamedSpecifier "A" "B" declared
      specifiesRenamed (by decide)
    exact ⟨found, inExports, handedOut, alike.mpr ⟨by decide, _, List.mem_cons_self, rfl,
      .componentInitializer, by decide, by decide⟩⟩
  · have nowhere : (Declaration.localBindings clauseModule).lookup "g" = none := by decide
    have handedOut := specifiesUnbound.ofSpecifier_eq
    refine ⟨_, handedOut, valueless unboundSpecifier "g" "g" specifiesUnbound ?_ _ handedOut rfl⟩
    intro statement inRoot declaration stands value defines
    have listed :=
      Declaration.mem_localBindings_iff.mpr ⟨statement, inRoot, declaration, stands, defines⟩
    exact absurd rfl (bne_iff_ne.mp (List.lookup_eq_none_iff.mp nowhere _ listed))

end Component

end RenderProbe
