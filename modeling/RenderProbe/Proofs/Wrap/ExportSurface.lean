import RenderProbe.Proofs.Wrap.Redeclaration

/-!
# What a module hands out

The surface of a module is what others can import from it: `default`, the names it declares
in export statements, the names its clauses hand out, and the modules that it hands on as a whole.
Types are no part of it.

* `Node.surface_outline` and `Node.declaredNames_outline`: layout plays no part.
* `Rewrite.outlets_edit`: an edit leaves what a statement hands out, a demoted signature apart.
* `Rewrite.mem_surface_edited` and `Rewrite.mem_declaredNames_edited`: what the edits of a module
  leave.
* `keeps_surface`: a wrap leaves the surface of a module and the names that it declares.
-/

namespace RenderProbe.Syntax

/-- Something that a module hands out: a name, or all that another module hands out. -/
inductive Outlet where
  | name (name : String)
  | everythingOf (source : String)
  deriving DecidableEq

namespace Node

/-! ## The surface -/

/-- The names that an exported declaration hands out. A type has none, and neither has what is only
declared to exist elsewhere. -/
def inlineNames (declaration : Node) : List String :=
  match declaration.kind with
  | .functionSignature => declaration.declaredName?.toList
  | .statement =>
    -- An enumeration, a namespace or a second name for something in one.
    if ["enum", "namespace", "module", "import"].any declaration.hasKeyword then
      (declaration.children.flatMap plainNames).take 1
    else []
  | _ => declaration.declarationNames

/-- The name under which a specifier of a clause hands something out. -/
def handedNames (specifier : Node) : List String :=
  if specifier.kind == .exportSpecifier && !specifier.hasKeyword "type" then
    ((specifier.child? .alias <|> specifier.child? .name).map (·.lexeme)).toList
  else []

/-- The names that an export clause hands out. -/
def clauseNames (part : Node) : List String :=
  if part.kind == .exportClause then part.children.flatMap handedNames else []

/-- The name that a statement gives to another module as a whole, read off a part of the
statement. -/
def wholeNames (part : Node) : List String :=
  if part.role == .plain && (part.kind == .identifier || part.kind == .stringLiteral) then
    [part.lexeme]
  else []

/-- What a statement that declares nothing hands out. -/
def listedOutlets (statement : Node) : List Outlet :=
  if statement.hasKeyword "type" then []
  else if statement.hasKeyword "*" then
    match statement.children.flatMap wholeNames with
    | [] => ((statement.child? .source).map fun source => .everythingOf source.lexeme).toList
    | names => names.map .name
  else (statement.children.flatMap clauseNames).map .name

/-- What a top-level statement hands out. -/
def outlets (statement : Node) : List Outlet :=
  if statement.kind != .exportStatement then []
  else if statement.hasKeyword "default" then [.name "default"]
  else match statement.child? .declaration with
    | some declaration => declaration.inlineNames.map .name
    | none => statement.listedOutlets

/-- What a module hands out. -/
def surface (root : Node) : List Outlet :=
  root.children.flatMap outlets

/-- The names that a top-level statement declares; an import declares none. -/
def localNames (statement : Node) : List String :=
  if statement.kind == .importStatement then [] else statement.statementNames

/-- The names that a module declares. -/
def declaredNames (root : Node) : List String :=
  root.children.flatMap localNames

/-! ## Layout -/

section Layout

variable (node : Node)

theorem inlineNames_outline : node.outline.inlineNames = node.inlineNames := by
  have plain := flatMap_outlineAll plainNames_outline
    (fun child comment => by simp [plainNames, comment]) node.children
  have keywords : node.outline.hasKeyword = node.hasKeyword := by
    funext keyword
    exact hasKeyword_outline node keyword
  simp only [inlineNames, outline_kind, outline_children, declaredName?_outline, keywords, plain,
    declarationNames_outline]

theorem handedNames_outline : node.outline.handedNames = node.handedNames := by
  rw [handedNames, child?_outline node (by decide), child?_outline node (by decide)]
  cases renamed : node.child? .alias <;> cases name : node.child? .name <;>
    simp [handedNames, renamed, name]

theorem clauseNames_outline : node.outline.clauseNames = node.clauseNames := by
  have specifiers := flatMap_outlineAll handedNames_outline
    (fun child comment => by simp [handedNames, comment]) node.children
  simp only [clauseNames, outline_kind, outline_children, specifiers]

theorem listedOutlets_outline : node.outline.listedOutlets = node.listedOutlets := by
  have clauses := flatMap_outlineAll clauseNames_outline
    (fun child comment => by simp [clauseNames, comment]) node.children
  have names := flatMap_outlineAll (fun child => by simp [wholeNames] : ∀ child : Node,
      child.outline.wholeNames = child.wholeNames)
    (fun child comment => by simp [wholeNames, comment]) node.children
  have source :
      (node.outline.child? .source).map (fun source => Outlet.everythingOf source.lexeme) =
      (node.child? .source).map fun source => Outlet.everythingOf source.lexeme := by
    rw [child?_outline node (by decide)]
    cases node.child? .source <;> simp
  simp only [listedOutlets, hasKeyword_outline, outline_children, clauses, names, source]

theorem outlets_outline : node.outline.outlets = node.outlets := by
  simp only [outlets, outline_kind, hasKeyword_outline, listedOutlets_outline,
    child?_outline node (by decide : Role.declaration ≠ .plain)]
  cases node.child? .declaration <;> simp [inlineNames_outline]

/-- What a module hands out does not depend on layout. -/
theorem surface_outline : node.outline.surface = node.surface := by
  rw [surface, outline_children, surface]
  exact flatMap_outlineAll outlets_outline (fun child comment => by simp [outlets, comment])
    node.children

/-- The names that a module declares do not depend on layout. -/
theorem declaredNames_outline : node.outline.declaredNames = node.declaredNames := by
  rw [declaredNames, outline_children, declaredNames]
  exact flatMap_outlineAll (fun child => by simp [localNames, statementNames_outline])
    (fun child comment => by simp [localNames, statementNames, declarationNames, comment])
    node.children

end Layout

end Node

end RenderProbe.Syntax

namespace RenderProbe.Wrap

open Syntax (Node Outlet ExportShape)

namespace Rewrite

variable {rewrite : Rewrite} {statement declaration : Node} {root : Node} {target : ImportTarget}

/-! ## Edits -/

theorem outlets_demoted (other : declaration.kind ≠ .exportStatement) :
    (demoted statement declaration).outlets = [] := by
  have unexported : (demoted statement declaration).kind ≠ .exportStatement :=
    fun exported => other (kind_of_demoted exported)
  simp [Node.outlets, unexported]

theorem outlets_of_default (exported : statement.kind = .exportStatement)
    (keyword : statement.hasKeyword "default" = true) :
    statement.outlets = [.name "default"] := by
  simp [Node.outlets, exported, keyword]

theorem outlets_of_declaration (exported : statement.kind = .exportStatement)
    (keyword : statement.hasKeyword "default" = false)
    (found : statement.child? .declaration = some declaration) :
    statement.outlets = declaration.inlineNames.map .name := by
  simp [Node.outlets, exported, keyword, found]

/-- An edit by a rule hands out what the statement handed out. -/
theorem outlets_editBy {rule : Rule} (exported : statement.kind = .exportStatement)
    (wraps : rewrite.aim.wrapped statement rule ≠ []) :
    (rewrite.editBy statement rule).flatMap Node.outlets = statement.outlets := by
  have edit := editShape wraps
  generalize rewrite.editBy statement rule = statements at edit ⊢
  cases edit with
  | @defaultDeclaration declaration keyword found accepted =>
    have demotes : (demoted statement declaration).outlets = [] :=
      outlets_demoted (unlike_of_defaultFunctionOrClass? found).1
    have generated : rewrite.defaultExportNode.outlets = [.name "default"] := rfl
    simp [demotes, generated, outlets_of_default exported keyword]
  | @defaultIdentifier value reference edited keyword undeclared valued unwrapped isName kind
      keywords others called =>
    simp [outlets_of_default exported keyword,
      outlets_of_default (kind.trans exported) ((keywords _).trans keyword)]
  | @namedVariable declaration edited keyword found isVariables kind keywords others changed =>
    have names : (rewrite.wrapDeclarators declaration).declarationNames =
        declaration.declarationNames := declarationNames_wrapDeclarators isVariables
    simp [outlets_of_declaration exported keyword found,
      outlets_of_declaration (kind.trans exported) ((keywords _).trans keyword) changed,
      Node.inlineNames, isVariables, names]
  | @namedFunction declaration keyword found accepted =>
    simp only [Aim.acceptsFunction, Bool.and_eq_true, beq_iff_eq] at accepted
    have demotes : (demoted statement declaration).outlets = [] :=
      outlets_demoted (by simp [accepted.1.1])
    have generated : rewrite.namedExportNode.outlets = [.name rewrite.name] := rfl
    have named : declaration.declaredName? = some rewrite.name := accepted.1.2
    simp [demotes, generated, outlets_of_declaration exported keyword found, Node.inlineNames,
      Node.declarationNames, accepted.1.1, named]

/-- A top-level node hands out the same after its edit, unless it is a signature that is demoted. -/
theorem outlets_edit (rewrite : Rewrite) (signatures : Bool) (statement : Node) :
    (rewrite.edit signatures statement).flatMap Node.outlets = statement.outlets ∨
      (signatures = true ∧ statement.outlets = [.name rewrite.name]
        ∧ (rewrite.edit signatures statement).flatMap Node.outlets = []) := by
  cases fires : rewrite.fires? statement with
  | some rule =>
    obtain ⟨exported, wraps⟩ := fires?_eq_some_iff.mp fires
    rw [edit, fires]
    exact .inl (outlets_editBy exported wraps)
  | none =>
    rw [edit, fires]
    dsimp only
    split
    · next signature =>
      obtain ⟨demotes, signature⟩ := Bool.and_eq_true_iff.mp signature
      obtain ⟨exported, keyword, declaration, found, isSignature, named⟩ :=
        of_exportsSignature signature
      have gone : (demoted statement declaration).outlets = [] :=
        outlets_demoted (by simp [isSignature])
      refine .inr ⟨demotes, ?_, by simp [found, gone]⟩
      simp [outlets_of_declaration exported keyword found, Node.inlineNames, isSignature, named]
    · exact .inl (by simp)

/-- An edit makes no import. -/
theorem kind_of_mem_edit {signatures : Bool} {node : Node}
    (member : node ∈ rewrite.edit signatures statement) (isImport : node.kind = .importStatement) :
    statement.kind = .importStatement := by
  have demotes : ∀ declaration, (demoted statement declaration).kind = .importStatement →
      declaration.kind = .importStatement := by
    intro declaration same
    simp only [demoted] at same
    unfold statementKind at same
    split at same
    · cases same
    · cases same
    · exact same
  cases fires : rewrite.fires? statement with
  | some rule =>
    obtain ⟨exported, wraps⟩ := fires?_eq_some_iff.mp fires
    rw [edit, fires] at member
    have edit := editShape wraps
    dsimp only at member
    generalize rewrite.editBy statement rule = statements at edit member
    cases edit with
    | defaultDeclaration keyword found accepted =>
      simp only [List.mem_cons, List.not_mem_nil, or_false] at member
      rcases member with rfl | rfl
      · exact absurd (demotes _ isImport) (unlike_of_defaultFunctionOrClass? found).2.2
      · cases isImport
    | defaultIdentifier keyword undeclared valued unwrapped isName kind =>
      rw [List.mem_singleton.mp member] at isImport
      exact kind.symm.trans isImport
    | namedVariable keyword found isVariables kind =>
      rw [List.mem_singleton.mp member] at isImport
      exact kind.symm.trans isImport
    | namedFunction keyword found accepted =>
      simp only [Aim.acceptsFunction, Bool.and_eq_true, beq_iff_eq] at accepted
      simp only [List.mem_cons, List.not_mem_nil, or_false] at member
      rcases member with rfl | rfl
      · exact absurd (demotes _ isImport) (by simp [accepted.1.1])
      · cases isImport
  | none =>
    rw [edit, fires] at member
    dsimp only at member
    split at member
    · next signature =>
      obtain ⟨-, -, declaration, found, isSignature, -⟩ :=
        of_exportsSignature (Bool.and_eq_true_iff.mp signature).2
      simp only [found, Option.map_some, Option.toList_some, List.mem_singleton] at member
      rw [member] at isImport
      exact absurd (demotes _ isImport) (by simp [isSignature])
    · rw [List.mem_singleton.mp member] at isImport
      exact isImport

/-- What a top-level node declares after its edit: what it declared before and what the edit
adds. -/
theorem localNames_edit (signatures : Bool)
    (shape : statement.kind = .exportStatement → ExportShape statement) :
    (rewrite.edit signatures statement).flatMap Node.localNames =
      statement.localNames ++ rewrite.addedNames statement := by
  by_cases isImport : statement.kind = .importStatement
  · have silent : rewrite.fires? statement = none := by simp [fires?, isImport]
    simp [edit_import isImport, addedNames, silent]
  · have declares : ∀ node ∈ rewrite.edit signatures statement,
        node.localNames = node.statementNames := by
      intro node member
      have other : node.kind ≠ .importStatement :=
        fun same => isImport (kind_of_mem_edit member same)
      simp [Node.localNames, other]
    rw [List.flatMap_congr declares, names_edit signatures shape]
    simp [Node.localNames, isImport]

/-- What an edit adds to the names is declared already. -/
theorem mem_localNames_of_added {name : String} (added : name ∈ rewrite.addedNames statement) :
    name ∈ statement.localNames := by
  unfold addedNames at added
  split at added
  · next fires =>
    obtain ⟨exported, wraps⟩ := fires?_eq_some_iff.mp fires
    obtain ⟨declaration, wraps⟩ := List.exists_mem_of_ne_nil _ wraps
    obtain ⟨-, found, accepted⟩ := Aim.function?_eq_some.mp (Option.mem_toList.mp wraps)
    simp only [Aim.acceptsFunction, Bool.and_eq_true, beq_iff_eq] at accepted
    have named : declaration.declaredName? = some rewrite.name := accepted.1.2
    rw [Node.localNames, if_neg (by simp [exported]),
      statementNames_of_exported exported (exportedDeclaration?_of_declaration found)]
    simpa [Node.declarationNames, accepted.1.1, named] using added
  · cases added

/-! ## Modules -/

/-- Signatures are demoted where a function of the name is wrapped. -/
theorem exists_fires_of_demotesSignatures (demotes : rewrite.demotesSignatures root = true) :
    ∃ statement ∈ root.children, rewrite.fires? statement = some .namedFunction := by
  simp only [demotesSignatures, firing, List.any_eq_true, List.mem_filterMap,
    Option.map_eq_some_iff, beq_iff_eq] at demotes
  obtain ⟨-, ⟨statement, member, rule, fires, rfl⟩, rfl⟩ := demotes
  exact ⟨statement, (List.mem_filter.mp member).1, fires⟩

/-- An edited module hands out what it handed out before. -/
theorem mem_surface_edited {outlet : Outlet} :
    outlet ∈ (rewrite.edited root target).surface ↔ outlet ∈ root.surface := by
  rw [Node.surface, rewrite.flatMap_edited root target rfl, Node.surface, List.mem_flatMap,
    List.mem_flatMap]
  constructor
  · rintro ⟨statement, member, handedOut⟩
    rcases rewrite.outlets_edit (rewrite.demotesSignatures root) statement with same | ⟨-, -, gone⟩
    · exact ⟨statement, member, same ▸ handedOut⟩
    · rw [gone] at handedOut
      cases handedOut
  · rintro ⟨statement, member, handedOut⟩
    rcases rewrite.outlets_edit (rewrite.demotesSignatures root) statement with
      same | ⟨demotes, own, -⟩
    · exact ⟨statement, member, same.symm ▸ handedOut⟩
    · -- The name of a demoted signature is handed out with the wrapped function.
      obtain ⟨implementation, inRoot, fires⟩ := exists_fires_of_demotesSignatures demotes
      refine ⟨implementation, inRoot, ?_⟩
      obtain ⟨exported, wraps⟩ := fires?_eq_some_iff.mp fires
      obtain rfl : outlet = .name rewrite.name := by simpa [own] using handedOut
      obtain ⟨declaration, wraps⟩ := List.exists_mem_of_ne_nil _ wraps
      have generated : rewrite.namedExportNode.outlets = [.name rewrite.name] := rfl
      simp [edit, fires, editBy, Aim.wrapped, Option.mem_toList.mp wraps, generated]

/-- An edited module declares the names that it declared before. -/
theorem mem_declaredNames_edited {name : String}
    (shapes : ∀ statement ∈ root.children, statement.kind = .exportStatement →
      ExportShape statement) :
    name ∈ (rewrite.edited root target).declaredNames ↔ name ∈ root.declaredNames := by
  rw [Node.declaredNames, rewrite.flatMap_edited root target rfl, Node.declaredNames,
    List.mem_flatMap, List.mem_flatMap]
  refine exists_congr fun statement => and_congr_right fun member => ?_
  rw [localNames_edit _ (shapes statement member), List.mem_append]
  exact ⟨fun declares => declares.elim id mem_localNames_of_added, .inl⟩

end Rewrite

/-- A wrap leaves what a module hands out, and every name that is declared in the module is still
declared in it. -/
theorem keeps_surface {criteria : Component.Criteria} {style : QuoteStyle} {markup : Bool}
    {text name : String} {root : Node} {target : ImportTarget}
    (parsed : Syntax.parse markup text = some root) :
    ∀ output rules, transform criteria style text root name target = .ok (.wrapped output rules) →
      (Rewrite.of criteria style text root name target.symbol).ReadsBack markup root target output →
      ∃ outputRoot, Syntax.parse markup output = some outputRoot
        ∧ (∀ outlet, outlet ∈ outputRoot.surface ↔ outlet ∈ root.surface)
        ∧ ∀ declared, declared ∈ outputRoot.declaredNames ↔ declared ∈ root.declaredNames := by
  rintro output rules - readsBack
  obtain ⟨outputRoot, reads, outlined⟩ := Option.map_eq_some_iff.mp readsBack
  refine ⟨outputRoot, reads, fun outlet => ?_, fun declared => ?_⟩
  · rw [← Node.surface_outline, outlined, Node.surface_outline]
    exact Rewrite.mem_surface_edited
  · rw [← Node.declaredNames_outline, outlined, Node.declaredNames_outline]
    exact Rewrite.mem_declaredNames_edited fun statement member =>
      Syntax.exportShape_of_parse parsed member

/-- A function with an overload signature, beside other exports. -/
def overloadedModule : String :=
  "export function A():x;export function A()\x7b\x7dexport * as n from 'o';export\x7bA as C\x7d"

theorem keeps_surface_overloadedModule :
    ∃ root output outputRoot, Syntax.parse true overloadedModule = some root
      ∧ transform .standard .single overloadedModule root "A" ⟨"w", "m"⟩ =
        .ok (.wrapped output [.namedFunction])
      ∧ Syntax.parse true output = some outputRoot
      ∧ (∀ outlet, outlet ∈ outputRoot.surface ↔ outlet ∈ [.name "A", .name "n", .name "C"])
      ∧ "A" ∈ outputRoot.declaredNames := by
  have passes : wrapPasses overloadedModule (fun root output rules =>
      decide (root.surface = [.name "A", .name "A", .name "n", .name "C"]
        ∧ root.declaredNames = ["A"]
        ∧ rules = [.namedFunction]
        ∧ (Rewrite.of .standard .single overloadedModule root "A" "w").ReadsBack true root
          ⟨"w", "m"⟩ output)) = true := by
    decide +kernel
  obtain ⟨root, output, _, parsed, answer, holds⟩ := exists_of_wrapPasses passes
  obtain ⟨surface, declared, rfl, readsBack⟩ := of_decide_eq_true holds
  obtain ⟨outputRoot, reads, handedOut, declares⟩ := keeps_surface parsed output _ answer readsBack
  refine ⟨root, output, outputRoot, parsed, answer, reads, fun outlet => ?_, ?_⟩
  · rw [handedOut, surface]
    simp
  · rw [declares, declared]
    exact List.mem_singleton.mpr rfl

end RenderProbe.Wrap
