import RenderProbe.Proofs.Wrap.ExportSurface
import RenderProbe.Proofs.Wrap.PatchOrder

/-!
# Overloaded functions

An overloaded function is exported in several statements: its signatures, which have no body, and
its implementation. Where a wrap demotes the implementation, its signatures lose their exports with
it, and the generated export takes their place.

* `Rewrite.fires?_function`: on the export of a function the rule of its form fires, or none.
* `Rewrite.Exit` and `Rewrite.exit_of_mem_edit`: what an export statement of the edited module comes
  from.
* `demotes_with_signatures`: which exports of a function are left after a wrap.
-/

namespace RenderProbe.Wrap

open Syntax (Node Kind)
open Declaration (exportKindOf)

/-- A statement exports a function of the name, its implementation or a signature by the kind. -/
def exportsFunction (kind : Kind) (name : String) (statement : Node) : Bool :=
  statement.kind == .exportStatement && (statement.child? .declaration).any fun declaration =>
    declaration.kind == kind && declaration.declaredName? == some name

/-- The rule for exported functions of a form. -/
def functionRule : ExportKind → Rule
  | .default => .defaultDeclaration
  | .named => .namedFunction

theorem functionRule_injective : Function.Injective functionRule := by
  rintro (_ | _) (_ | _) same <;> first | rfl | cases same

/-- The export that is generated for a function of a form. -/
def Rewrite.exportNode (rewrite : Rewrite) : ExportKind → Node
  | .default => rewrite.defaultExportNode
  | .named => rewrite.namedExportNode

section Functions

variable {rewrite : Rewrite} {kind : Kind} {name : String} {statement declaration node : Node}

theorem exportsFunction_iff : exportsFunction kind name statement = true ↔
    statement.kind = .exportStatement ∧ ∃ declaration,
      statement.child? .declaration = some declaration
      ∧ declaration.kind = kind ∧ declaration.declaredName? = some name := by
  simp only [exportsFunction, Bool.and_eq_true, beq_iff_eq, Option.any_eq_true]

theorem exportsFunction_of_undeclared (undeclared : statement.child? .declaration = none) :
    exportsFunction kind name statement = false := by
  simp [exportsFunction, undeclared]

theorem exportsFunction_of_kind (found : statement.child? .declaration = some declaration)
    (other : declaration.kind ≠ kind) : exportsFunction kind name statement = false := by
  simp [exportsFunction, found, other]

theorem exportsFunction_of_unexported (other : statement.kind ≠ .exportStatement) :
    exportsFunction kind name statement = false := by
  simp [exportsFunction, other]

/-- Which functions a statement exports does not depend on layout. -/
theorem exportsFunction_outline :
    exportsFunction kind name statement.outline = exportsFunction kind name statement := by
  rw [exportsFunction, Node.child?_outline statement (by decide)]
  cases found : statement.child? .declaration <;> simp [exportsFunction, found]

/-- The signatures that a wrap demotes are those that are no default exports. -/
theorem exportsSignature_eq : exportsSignature name statement =
    (exportsFunction .functionSignature name statement && !statement.hasKeyword "default") := by
  rw [exportsSignature, exportsFunction]
  ac_rfl

/-- On the export of a function the rule of its form fires, if detection accepts the function. -/
theorem Rewrite.fires?_function (exported : statement.kind = .exportStatement)
    (found : statement.child? .declaration = some declaration)
    (isFunction : declaration.kind = .functionDeclaration)
    (named : declaration.declaredName? = some rewrite.name) :
    rewrite.fires? statement =
      if rewrite.criteria.accepts
          ⟨rewrite.name, .function, exportKindOf statement, some declaration⟩ then
        some (functionRule (exportKindOf statement))
      else none := by
  have held : defaultFunctionOrClass? statement = some declaration := by
    simp [defaultFunctionOrClass?, found, isFunction]
  have form : Aim.defaultKind declaration = .function := by
    simp [Aim.defaultKind, isFunction, Declaration.isClassKind]
  split
  · next accepted =>
    refine Rewrite.fires?_eq_some_iff.mpr ⟨exported, ?_⟩
    cases keyword : statement.hasKeyword "default" <;>
      simp_all [exportKindOf, functionRule, Aim.wrapped, Aim.defaultDeclaration?, Aim.function?,
        Option.filter_some, Aim.acceptsDefault, Aim.acceptsFunction, Rewrite.aim]
  · next rejected =>
    refine Rewrite.fires?_eq_none_iff.mpr fun _ rule => ?_
    cases keyword : statement.hasKeyword "default" <;> cases rule <;>
      simp_all [exportKindOf, Aim.wrapped, Aim.defaultDeclaration?, Aim.defaultValue?,
        Aim.declarators, Aim.function?, Option.filter_some, Aim.acceptsDefault, Aim.acceptsFunction,
        Rewrite.aim, Node.declarators]

end Functions

/-! ## Export statements of an edited module -/

section Exits

variable {rewrite : Rewrite} {signatures : Bool} {statement node : Node}

/-- What an export statement of an edited module comes from. -/
inductive Rewrite.Exit (rewrite : Rewrite) (signatures : Bool) (statement : Node) : Node → Prop
  /-- It is generated for a declaration that is demoted. -/
  | generated (form : ExportKind) : rewrite.fires? statement = some (functionRule form) →
    Exit rewrite signatures statement (rewrite.exportNode form)
  /-- Values of the statement are wrapped in place; none of the two exports functions. -/
  | inPlace {node : Node} : statement.kind = .exportStatement →
    (∀ kind name, kind ≠ .variableDeclaration →
      exportsFunction kind name statement = false ∧ exportsFunction kind name node = false) →
    Exit rewrite signatures statement node
  /-- The statement is left alone. -/
  | left : statement.kind = .exportStatement → rewrite.fires? statement = none →
    (signatures && exportsSignature rewrite.name statement) = false →
    Exit rewrite signatures statement statement

theorem Rewrite.Exit.exported (exit : rewrite.Exit signatures statement node) :
    statement.kind = .exportStatement := by
  cases exit with
  | generated form fires => exact (Rewrite.fires?_eq_some_iff.mp fires).1
  | inPlace exported => exact exported
  | left exported => exact exported

theorem Rewrite.exit_of_mem_edit (member : node ∈ rewrite.edit signatures statement)
    (exported : node.kind = .exportStatement) : rewrite.Exit signatures statement node := by
  cases fires : rewrite.fires? statement with
  | none =>
    rw [Rewrite.edit, fires] at member
    dsimp only at member
    split at member
    · next signature =>
      obtain ⟨-, -, declaration, found, isSignature, -⟩ :=
        of_exportsSignature (Bool.and_eq_true_iff.mp signature).2
      simp only [found, Option.map_some, Option.toList_some, List.mem_singleton] at member
      rw [member] at exported
      exact absurd (Rewrite.kind_of_demoted exported) (by simp [isSignature])
    · next unsigned =>
      obtain rfl := List.mem_singleton.mp member
      exact .left exported fires (by simpa using unsigned)
  | some rule =>
    obtain ⟨isExport, wraps⟩ := Rewrite.fires?_eq_some_iff.mp fires
    rw [Rewrite.edit, fires] at member
    have edit := Rewrite.editShape wraps
    dsimp only at member
    generalize rewrite.editBy statement rule = statements at edit member
    cases edit with
    | defaultDeclaration keyword found accepted =>
      simp only [List.mem_cons, List.not_mem_nil, or_false] at member
      rcases member with rfl | rfl
      · exact absurd (Rewrite.kind_of_demoted exported) (unlike_of_defaultFunctionOrClass? found).1
      · exact .generated .default fires
    | defaultIdentifier keyword undeclared valued unwrapped isName kind keywords others called =>
      obtain rfl := List.mem_singleton.mp member
      have undeclared' := (others .declaration (by decide)).trans undeclared
      exact .inPlace isExport fun _ _ _ =>
        ⟨exportsFunction_of_undeclared undeclared, exportsFunction_of_undeclared undeclared'⟩
    | @namedVariable declaration edited keyword found isVariables kind keywords others changed =>
      obtain rfl := List.mem_singleton.mp member
      have isVariables' := rewrite.wrapDeclarators_kind.trans isVariables
      exact .inPlace isExport fun kind _ other =>
        ⟨exportsFunction_of_kind found (isVariables.trans_ne other.symm),
          exportsFunction_of_kind changed (isVariables'.trans_ne other.symm)⟩
    | namedFunction keyword found accepted =>
      simp only [Aim.acceptsFunction, Bool.and_eq_true, beq_iff_eq] at accepted
      simp only [List.mem_cons, List.not_mem_nil, or_false] at member
      rcases member with rfl | rfl
      · exact absurd (Rewrite.kind_of_demoted exported) (by simp [accepted.1.1])
      · exact .generated .named fires

theorem Rewrite.exit_of_mem_edited {root : Node} {target : ImportTarget}
    (member : node ∈ (rewrite.edited root target).children)
    (exported : node.kind = .exportStatement) :
    ∃ statement ∈ root.children, node ∈ rewrite.edit (rewrite.demotesSignatures root) statement
      ∧ rewrite.Exit (rewrite.demotesSignatures root) statement node := by
  rcases rewrite.mem_edited_children.mp member with imported | ⟨statement, isChild, isEdit⟩
  · unfold Rewrite.importNodes at imported
    split at imported
    · cases imported
    · rw [List.mem_singleton.mp imported] at exported
      cases exported
  · exact ⟨statement, isChild, isEdit, Rewrite.exit_of_mem_edit isEdit exported⟩

end Exits

/-! ## Overloaded functions -/

/-- One statement exports the implementation of a function, and all that export signatures of it
have the form of that one. -/
structure Overloaded (root : Node) (name : String) (implementation declaration : Node) : Prop where
  only : root.children.filter (exportsFunction .functionDeclaration name) = [implementation]
  declares : implementation.child? .declaration = some declaration
  sameForm : ∀ statement ∈ root.children, exportsFunction .functionSignature name statement = true →
    exportKindOf statement = exportKindOf implementation

section Overloads

variable {rewrite : Rewrite} {root implementation declaration statement node : Node} {name : String}

theorem Overloaded.eq_implementation (overloaded : Overloaded root name implementation declaration)
    (isChild : statement ∈ root.children)
    (isFunction : exportsFunction .functionDeclaration name statement = true) :
    statement = implementation := by
  have member := List.mem_filter.mpr ⟨isChild, isFunction⟩
  rw [overloaded.only] at member
  exact List.mem_singleton.mp member

theorem Overloaded.implementation_mem
    (overloaded : Overloaded root name implementation declaration) :
    implementation ∈ root.children
      ∧ exportsFunction .functionDeclaration name implementation = true := by
  refine List.mem_filter.mp ?_
  rw [overloaded.only]
  exact List.mem_singleton.mpr rfl

/-- The rule of its form fires on the implementation, if detection accepts it. -/
theorem Overloaded.fires? (overloaded : Overloaded root rewrite.name implementation declaration) :
    rewrite.fires? implementation =
      if rewrite.criteria.accepts
          ⟨rewrite.name, .function, exportKindOf implementation, some declaration⟩ then
        some (functionRule (exportKindOf implementation))
      else none := by
  obtain ⟨exported, _, found, isFunction, named⟩ :=
    exportsFunction_iff.mp overloaded.implementation_mem.2
  obtain rfl := Option.some.inj (found.symm.trans overloaded.declares)
  exact Rewrite.fires?_function exported found isFunction named

theorem Rewrite.exportsFunction_exportNode (form : ExportKind)
    {kind : Kind} (other : kind ≠ .variableDeclaration) :
    exportsFunction kind name (rewrite.exportNode form) = false := by
  cases form with
  | default => exact exportsFunction_of_undeclared rfl
  | named => exact exportsFunction_of_kind rfl other.symm

/-- A signature is left in an edited module if it has the form of a default export. -/
theorem Overloaded.left_signature
    (overloaded : Overloaded root rewrite.name implementation declaration)
    (fires : rewrite.fires? implementation = some (functionRule (exportKindOf implementation)))
    (isChild : statement ∈ root.children)
    (signature : exportsFunction .functionSignature rewrite.name statement = true)
    (unsigned : (rewrite.demotesSignatures root && exportsSignature rewrite.name statement)
      = false) :
    exportKindOf implementation = .default := by
  cases form : exportKindOf implementation with
  | default => rfl
  | named =>
    have demotes : rewrite.demotesSignatures root = true := by
      rw [Rewrite.demotesSignatures_eq_any, List.any_eq_true]
      exact ⟨implementation, overloaded.implementation_mem.1, by simp [fires, form, functionRule]⟩
    have undefaulted : statement.hasKeyword "default" = false := by
      have same := (overloaded.sameForm statement isChild signature).trans form
      simpa [exportKindOf] using same
    simp [demotes, exportsSignature_eq, signature, undefaulted] at unsigned

/-- An accepted implementation leaves its module by the generated export alone. An export statement
of the edited module is that one, comes from a statement that exports no function of the name, or is
a signature in the form of a default export. -/
theorem Overloaded.exit_cases (overloaded : Overloaded root rewrite.name implementation declaration)
    (accepted : rewrite.criteria.accepts
      ⟨rewrite.name, .function, exportKindOf implementation, some declaration⟩ = true)
    (isChild : statement ∈ root.children)
    (exit : rewrite.Exit (rewrite.demotesSignatures root) statement node) :
    node = rewrite.exportNode (exportKindOf implementation)
      ∨ (∀ kind ∈ [Kind.functionDeclaration, .functionSignature],
          exportsFunction kind rewrite.name statement = false
            ∧ exportsFunction kind rewrite.name node = false)
      ∨ exportKindOf implementation = .default
        ∧ exportsFunction .functionSignature rewrite.name node = true := by
  have fires := overloaded.fires?
  rw [if_pos accepted] at fires
  by_cases isFunction : exportsFunction .functionDeclaration rewrite.name statement = true
  · obtain rfl := overloaded.eq_implementation isChild isFunction
    cases exit with
    | generated form fired =>
      have same := Option.some.inj (fires.symm.trans fired)
      exact .inl (by rw [functionRule_injective same])
    | inPlace _ silent =>
      rw [(silent .functionDeclaration rewrite.name (by decide)).1] at isFunction
      cases isFunction
    | left _ unfired _ =>
      rw [fires] at unfired
      cases unfired
  · have unimplemented := Bool.eq_false_iff.mpr isFunction
    cases exit with
    | generated form fired =>
      refine .inr (.inl fun kind listed => ⟨?_, Rewrite.exportsFunction_exportNode form ?_⟩)
      · rcases List.mem_pair.mp listed with rfl | rfl
        · exact unimplemented
        · refine Bool.eq_false_iff.mpr fun signature => ?_
          obtain ⟨-, _, found, isSignature, -⟩ := exportsFunction_iff.mp signature
          rw [Rewrite.fires?_signature found isSignature] at fired
          cases fired
      · rcases List.mem_pair.mp listed with rfl | rfl <;> decide
    | inPlace _ silent =>
      refine .inr (.inl fun kind listed => silent kind rewrite.name ?_)
      rcases List.mem_pair.mp listed with rfl | rfl <;> decide
    | left _ unfired unsigned =>
      by_cases signature : exportsFunction .functionSignature rewrite.name statement = true
      · exact .inr (.inr ⟨overloaded.left_signature fires isChild signature unsigned, signature⟩)
      · have unsigned := Bool.eq_false_iff.mpr signature
        refine .inr (.inl fun kind listed => ?_)
        rcases List.mem_pair.mp listed with rfl | rfl
        · exact ⟨unimplemented, unimplemented⟩
        · exact ⟨unsigned, unsigned⟩

/-- The generated export is among the edits of an accepted implementation. -/
theorem Overloaded.exportNode_mem_edit
    (overloaded : Overloaded root rewrite.name implementation declaration)
    (accepted : rewrite.criteria.accepts
      ⟨rewrite.name, .function, exportKindOf implementation, some declaration⟩ = true)
    (signatures : Bool) :
    rewrite.exportNode (exportKindOf implementation) ∈ rewrite.edit signatures implementation := by
  have fires := overloaded.fires?
  rw [if_pos accepted] at fires
  obtain ⟨-, wraps⟩ := Rewrite.fires?_eq_some_iff.mp fires
  have edit := Rewrite.editShape wraps
  rw [Rewrite.edit, fires]
  dsimp only
  generalize rewrite.editBy implementation _ = statements at edit ⊢
  cases form : exportKindOf implementation <;> rw [form] at edit <;> cases edit <;>
    exact List.mem_cons_of_mem _ List.mem_cons_self

theorem exportsFunction_of_fires (fires : rewrite.fires? statement = some .namedFunction) :
    exportsFunction .functionDeclaration rewrite.name statement = true := by
  obtain ⟨exported, wraps⟩ := Rewrite.fires?_eq_some_iff.mp fires
  obtain ⟨declaration, wraps⟩ := List.exists_mem_of_ne_nil _ wraps
  obtain ⟨-, found, accepted⟩ := Aim.function?_eq_some.mp (Option.mem_toList.mp wraps)
  simp only [Aim.acceptsFunction, Bool.and_eq_true, beq_iff_eq] at accepted
  exact exportsFunction_iff.mpr ⟨exported, declaration, found, accepted.1⟩

/-- The exports of a function that detection does not accept are left alone. -/
theorem Overloaded.edit_of_rejected
    (overloaded : Overloaded root rewrite.name implementation declaration)
    (rejected : rewrite.criteria.accepts
      ⟨rewrite.name, .function, exportKindOf implementation, some declaration⟩ = false)
    (isChild : statement ∈ root.children)
    (isFunction : exportsFunction .functionDeclaration rewrite.name statement = true
      ∨ exportsFunction .functionSignature rewrite.name statement = true) :
    rewrite.edit (rewrite.demotesSignatures root) statement = [statement] := by
  have unfired := overloaded.fires?
  rw [if_neg (by simp [rejected])] at unfired
  have undemoted : rewrite.demotesSignatures root = false := by
    rw [Rewrite.demotesSignatures_eq_any, List.any_eq_false]
    intro node member fires
    have fires := of_decide_eq_true fires
    rw [overloaded.eq_implementation member (exportsFunction_of_fires fires), unfired] at fires
    cases fires
  have silent : rewrite.fires? statement = none := by
    rcases isFunction with implemented | signature
    · rw [overloaded.eq_implementation isChild implemented, unfired]
    · obtain ⟨-, _, found, isSignature, -⟩ := exportsFunction_iff.mp signature
      exact Rewrite.fires?_signature found isSignature
  simp [Rewrite.edit, silent, undemoted]

end Overloads

/-! ## Outputs -/

section Outputs

variable {criteria : Component.Criteria} {style : QuoteStyle} {markup : Bool} {text name : String}
  {root implementation declaration : Node} {target : ImportTarget}

/-- Export statements of two modules with one outline are the same but for layout. -/
theorem exists_export_of_outline {module other : Node} (same : module.outline = other.outline)
    {exit : Node} (member : exit ∈ module.children) (exported : exit.kind = .exportStatement) :
    ∃ node ∈ other.children, node.outline = exit.outline ∧ node.kind = .exportStatement := by
  have solid : exit.isTrivia = false := by simp [Node.isTrivia, exported]
  have outlined : exit.outline ∈ Node.outlineAll module.children :=
    (Node.mem_outlineAll _).mpr ⟨exit, member, solid, rfl⟩
  rw [← Node.outline_children, same, Node.outline_children] at outlined
  obtain ⟨node, isChild, -, outline⟩ := (Node.mem_outlineAll _).mp outlined
  refine ⟨node, isChild, outline, ?_⟩
  rw [← Node.outline_kind, outline, Node.outline_kind, exported]

/-- How an export statement of an output comes about where a function of a form is demoted.
Signatures of default exports are left open. -/
def Rewrite.ComesBy (rewrite : Rewrite) (root : Node) (form : ExportKind) (exit : Node) : Prop :=
  exit.outline = (rewrite.exportNode form).outline
    ∨ (∃ statement ∈ root.children, statement.kind = .exportStatement
      ∧ exportsFunction .functionDeclaration rewrite.name statement = false
      ∧ exportsFunction .functionSignature rewrite.name statement = false
      ∧ ∃ node ∈ rewrite.edit (rewrite.demotesSignatures root) statement,
        node.outline = exit.outline)
    ∨ form = .default ∧ exportsFunction .functionSignature rewrite.name exit = true

theorem exportsFunction_congr {kind : Kind} {exit node : Node}
    (outline : node.outline = exit.outline) :
    exportsFunction kind name exit = exportsFunction kind name node := by
  rw [← exportsFunction_outline, ← outline, exportsFunction_outline]

/-- What an export statement of an output is, if the implementation is accepted. Either it is the
generated one, or it exported no function of the name before. -/
theorem Overloaded.comesBy {rewrite : Rewrite} {outputRoot exit : Node}
    (overloaded : Overloaded root rewrite.name implementation declaration)
    (accepted : rewrite.criteria.accepts
      ⟨rewrite.name, .function, exportKindOf implementation, some declaration⟩ = true)
    (outlined : outputRoot.outline = (rewrite.edited root target).outline)
    (member : exit ∈ outputRoot.children) (exported : exit.kind = .exportStatement) :
    rewrite.ComesBy root (exportKindOf implementation) exit
      ∧ exportsFunction .functionDeclaration rewrite.name exit = false
      ∧ (exportKindOf implementation = .named →
        exportsFunction .functionSignature rewrite.name exit = false) := by
  obtain ⟨node, isChild, outline, exported'⟩ := exists_export_of_outline outlined member exported
  obtain ⟨statement, inRoot, isEdit, isExit⟩ := Rewrite.exit_of_mem_edited isChild exported'
  simp only [exportsFunction_congr outline]
  rcases overloaded.exit_cases accepted inRoot isExit with rfl | silent | ⟨form, signature⟩
  · exact ⟨.inl outline.symm, Rewrite.exportsFunction_exportNode _ (by decide),
      fun _ => Rewrite.exportsFunction_exportNode _ (by decide)⟩
  · obtain ⟨unimplemented, unimplemented'⟩ := silent .functionDeclaration (by simp)
    obtain ⟨unsigned, unsigned'⟩ := silent .functionSignature (by simp)
    exact ⟨.inr
      (.inl ⟨statement, inRoot, isExit.exported, unimplemented, unsigned, node, isEdit, outline⟩),
        unimplemented', fun _ => unsigned'⟩
  · refine ⟨.inr (.inr ⟨form, (exportsFunction_congr outline).trans signature⟩),
      ?_, fun named => ?_⟩
    · obtain ⟨-, _, found, isSignature, -⟩ := exportsFunction_iff.mp signature
      exact exportsFunction_of_kind found (by simp [isSignature])
    · rw [form] at named
      cases named

/-- An export statement of an edited module is in the output. -/
theorem exists_exit_of_mem_edit {rewrite : Rewrite} {outputRoot statement node : Node}
    (outlined : outputRoot.outline = (rewrite.edited root target).outline)
    (inRoot : statement ∈ root.children)
    (isEdit : node ∈ rewrite.edit (rewrite.demotesSignatures root) statement)
    (exported : node.kind = .exportStatement) :
    ∃ exit ∈ outputRoot.children, exit.outline = node.outline := by
  obtain ⟨exit, member, outline, -⟩ := exists_export_of_outline outlined.symm
    (rewrite.mem_edited_children.mpr (.inr ⟨statement, inRoot, isEdit⟩)) exported
  exact ⟨exit, member, outline⟩

/-- Where a function of a name is exported once, with signatures of the same form, a wrap demotes
the function if detection accepts it. Then no export statement declares it and, if it is no
default export, none declares a signature of it; it leaves the module by the generated export and by
statements that exported no function of the name. If detection does not accept it, all its exports
stay. -/
theorem demotes_with_signatures (overloaded : Overloaded root name implementation declaration) :
    ∀ output rules, transform criteria style text root name target = .ok (.wrapped output rules) →
      (Rewrite.of criteria style text root name target.symbol).ReadsBack markup root target output →
      ∃ outputRoot, Syntax.parse markup output = some outputRoot
        ∧ (criteria.accepts ⟨name, .function, exportKindOf implementation,
          some declaration⟩ = true →
          (∀ exit ∈ outputRoot.children, exportsFunction .functionDeclaration name exit = false)
          ∧ (exportKindOf implementation = .named →
            ∀ exit ∈ outputRoot.children, exportsFunction .functionSignature name exit = false)
          ∧ (∃ exit ∈ outputRoot.children,
            exit.outline = ((Rewrite.of criteria style text root name target.symbol).exportNode
              (exportKindOf implementation)).outline)
          ∧ ∀ exit ∈ outputRoot.children, exit.kind = .exportStatement →
            (Rewrite.of criteria style text root name target.symbol).ComesBy root
              (exportKindOf implementation) exit)
        ∧ (criteria.accepts ⟨name, .function, exportKindOf implementation,
          some declaration⟩ = false →
          ∀ statement ∈ root.children,
            exportsFunction .functionDeclaration name statement = true
              ∨ exportsFunction .functionSignature name statement = true →
            ∃ exit ∈ outputRoot.children, exit.outline = statement.outline) := by
  rintro output rules - readsBack
  obtain ⟨outputRoot, reads, outlined⟩ := Option.map_eq_some_iff.mp readsBack
  change Overloaded root (Rewrite.of criteria style text root name target.symbol).name
    _ _ at overloaded
  refine ⟨outputRoot, reads, fun accepted => ?_, fun rejected statement inRoot isFunction => ?_⟩
  · have exits : ∀ exit ∈ outputRoot.children, exit.kind = .exportStatement → _ :=
      fun exit member exported => overloaded.comesBy accepted outlined member exported
    refine ⟨fun exit member => ?_, fun named exit member => ?_, ?_, fun exit member exported => ?_⟩
    · by_cases exported : exit.kind = .exportStatement
      · exact (exits exit member exported).2.1
      · exact exportsFunction_of_unexported exported
    · by_cases exported : exit.kind = .exportStatement
      · exact (exits exit member exported).2.2 named
      · exact exportsFunction_of_unexported exported
    · refine exists_exit_of_mem_edit outlined overloaded.implementation_mem.1
        (overloaded.exportNode_mem_edit accepted _) ?_
      cases exportKindOf implementation <;> rfl
    · exact (exits exit member exported).1
  · have left := overloaded.edit_of_rejected rejected inRoot isFunction
    refine exists_exit_of_mem_edit outlined inRoot (left ▸ List.mem_cons_self) ?_
    rcases isFunction with implemented | signature
    · exact (exportsFunction_iff.mp implemented).1
    · exact (exportsFunction_iff.mp signature).1

/-- What has to be evaluated of a module for `Overloaded`: its one implementation, with its
declaration. -/
def implementation? (root : Node) (name : String) : Option (Node × Node) :=
  match root.children.filter (exportsFunction .functionDeclaration name) with
  | [implementation] =>
    if root.children.all fun statement => !exportsFunction .functionSignature name statement
        || exportKindOf statement == exportKindOf implementation then
      (implementation.child? .declaration).map (implementation, ·)
    else none
  | _ => none

theorem overloaded_of_implementation?
    (found : implementation? root name = some (implementation, declaration)) :
    Overloaded root name implementation declaration := by
  unfold implementation? at found
  split at found
  · next only =>
    obtain ⟨sameForm, found⟩ := Option.ite_none_right_eq_some.mp found
    obtain ⟨_, declares, same⟩ := Option.map_eq_some_iff.mp found
    cases same
    refine ⟨only, declares, fun statement member signature => ?_⟩
    simpa [signature] using List.all_eq_true.mp sameForm statement member
  · cases found

/-- The signature and the implementation of an overloaded function are demoted. -/
theorem demotes_with_signatures_overloadedModule :
    ∃ root output outputRoot, Syntax.parse true overloadedModule = some root
      ∧ transform .standard .single overloadedModule root "A" ⟨"w", "m"⟩ =
        .ok (.wrapped output [.namedFunction])
      ∧ Syntax.parse true output = some outputRoot
      ∧ (root.children.any (exportsFunction .functionSignature "A")) = true
      ∧ ∀ exit ∈ outputRoot.children, exportsFunction .functionDeclaration "A" exit = false
        ∧ exportsFunction .functionSignature "A" exit = false := by
  have passes : wrapPasses overloadedModule (fun root output rules =>
      root.children.any (exportsFunction .functionSignature "A")
        && (implementation? root "A").any (fun (implementation, declaration) =>
          exportKindOf implementation == .named && Component.Criteria.standard.accepts
            ⟨"A", .function, exportKindOf implementation, some declaration⟩)
        && decide (rules = [.namedFunction]
          ∧ (Rewrite.of .standard .single overloadedModule root "A" "w").ReadsBack true root
            ⟨"w", "m"⟩ output)) = true := by
    decide +kernel
  obtain ⟨root, output, _, parsed, answer, holds⟩ := exists_of_wrapPasses passes
  simp only [Option.any_eq_true, Bool.and_eq_true, decide_eq_true_eq, beq_iff_eq] at holds
  obtain ⟨⟨signature, ⟨implementation, declaration⟩, found, isNamed, accepted⟩, rfl, readsBack⟩ :=
    holds
  obtain ⟨outputRoot, reads, demotes, -⟩ :=
    demotes_with_signatures (overloaded_of_implementation? found) output _ answer readsBack
  obtain ⟨undeclared, unsigned, -⟩ := demotes accepted
  exact ⟨root, output, outputRoot, parsed, answer, reads, signature,
    fun exit member => ⟨undeclared exit member, unsigned isNamed exit member⟩⟩

/-- A function that returns no markup, and a default export of its name. -/
def rejectedFunction : String :=
  "export function A()\x7breturn 1\x7dexport default A"

/-- A function that returns no markup is none that detection accepts. Its export stays where the
default export of its name is wrapped. -/
theorem keeps_rejected_function :
    ¬ ∀ (criteria : Component.Criteria) (style : QuoteStyle) (markup : Bool) (text name : String)
        (root implementation declaration : Node) (target : ImportTarget) (output : String)
        (rules : List Rule), Syntax.parse markup text = some root →
      Overloaded root name implementation declaration →
      transform criteria style text root name target = .ok (.wrapped output rules) →
      (Rewrite.of criteria style text root name target.symbol).ReadsBack markup root target output →
      ∃ outputRoot, Syntax.parse markup output = some outputRoot
        ∧ ∀ exit ∈ outputRoot.children, exportsFunction .functionDeclaration name exit = false
          ∧ exportsFunction .functionSignature name exit = false := by
  intro demotes
  have passes : wrapPasses rejectedFunction (fun root output _ =>
      (implementation? root "A").isSome
        && decide ((Rewrite.of .standard .single rejectedFunction root "A" "w").ReadsBack true root
          ⟨"w", "m"⟩ output)
        && (Syntax.parse true output).any fun outputRoot =>
          outputRoot.children.any (exportsFunction .functionDeclaration "A")) = true := by
    decide +kernel
  obtain ⟨root, output, rules, parsed, answer, holds⟩ := exists_of_wrapPasses passes
  simp only [Option.any_eq_true, Bool.and_eq_true, decide_eq_true_eq, Option.isSome_iff_exists,
    List.any_eq_true] at holds
  obtain ⟨⟨⟨⟨implementation, declaration⟩, found⟩, readsBack⟩, outputRoot, reads, exit, member,
    declares⟩ := holds
  obtain ⟨_, reads', undeclared⟩ := demotes _ _ _ _ _ _ _ _ _ _ _ parsed
    (overloaded_of_implementation? found) answer readsBack
  obtain rfl := Option.some.inj (reads.symm.trans reads')
  rw [(undeclared exit member).1] at declares
  cases declares

end Outputs

end RenderProbe.Wrap
