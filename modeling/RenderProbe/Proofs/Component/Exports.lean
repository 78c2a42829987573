import RenderProbe.Component.Detection
import RenderProbe.Proofs.Syntax.Outline

/-!
# What detection reports

Where the exported declarations of a module come from, and which names detection reports.

* `Declaration.mem_declared`: what a function, a class or some variables declare.
* `Declaration.mem_statementExports`: an exported declaration is a default reference, is declared,
  or is a reference in a clause.
* `Component.mem_names_candidates`: detection reports the names of the accepted exports, no others.
-/

namespace RenderProbe

open Syntax (Node)

namespace Declaration

variable {exportKind : ExportKind} {node statement : Node} {declaration : Declaration}
  {bindings : List (String × Node)}

/-! ## Exported declarations -/

theorem mem_declared_function
    (isFunction : node.kind = .functionDeclaration ∨ node.kind = .functionExpression) :
    declaration ∈ declared exportKind node ↔
      ∃ name, node.declaredName? = some name
        ∧ declaration = ⟨name, .function, exportKind, some node⟩ := by
  have isFunction' :
      (node.kind == .functionDeclaration || node.kind == .functionExpression) = true := by
    simpa using isFunction
  rw [declared, if_pos isFunction']
  cases node.declaredName? <;> simp

theorem mem_declared_class (isClass : isClassKind node.kind = true) :
    declaration ∈ declared exportKind node ↔
      ∃ name, node.declaredName? = some name
        ∧ declaration = ⟨name, .classDeclaration, exportKind, some node⟩ := by
  have notFunction :
      ¬(node.kind == .functionDeclaration || node.kind == .functionExpression) = true := by
    intro isFunction
    simp only [Bool.or_eq_true, beq_iff_eq] at isFunction
    rcases isFunction with same | same <;> rw [same] at isClass <;> cases isClass
  rw [declared, if_neg notFunction, if_pos isClass]
  cases node.declaredName? <;> simp

theorem mem_declared_variables
    (notFunction : ¬(node.kind = .functionDeclaration ∨ node.kind = .functionExpression))
    (notClass : isClassKind node.kind = false) :
    declaration ∈ declared exportKind node ↔
      ∃ declarator ∈ node.declarators, ∃ name, declarator.child? .name = some name
        ∧ name.kind = .identifier
        ∧ declaration = ⟨name.lexeme, .initializer, exportKind, declarator.child? .value⟩ := by
  have notFunction' :
      ¬(node.kind == .functionDeclaration || node.kind == .functionExpression) = true := by
    simpa using notFunction
  rw [declared, if_neg notFunction', if_neg (by simp [notClass]), List.mem_filterMap]
  refine exists_congr fun declarator => and_congr_right fun _ => ?_
  cases declarator.child? .name with
  | none => simp
  | some name =>
    simp only [Option.ite_none_right_eq_some, beq_iff_eq, Option.some.injEq, exists_eq_left',
      eq_comm (a := declaration)]

/-- What a node declares: a function or class itself, under its name, or variables under theirs. -/
theorem mem_declared :
    declaration ∈ declared exportKind node ↔
      ((node.kind = .functionDeclaration ∨ node.kind = .functionExpression)
          ∧ ∃ name, node.declaredName? = some name
            ∧ declaration = ⟨name, .function, exportKind, some node⟩)
        ∨ (isClassKind node.kind = true ∧ ∃ name, node.declaredName? = some name
            ∧ declaration = ⟨name, .classDeclaration, exportKind, some node⟩)
        ∨ ∃ declarator ∈ node.declarators, ∃ name, declarator.child? .name = some name
          ∧ name.kind = .identifier
          ∧ declaration = ⟨name.lexeme, .initializer, exportKind, declarator.child? .value⟩ := by
  have noVariables : node.kind ≠ .variableDeclaration → node.declarators = [] := fun other =>
    List.eq_nil_iff_forall_not_mem.mpr fun _ member => other (Node.kind_of_mem_declarators member)
  by_cases isFunction : node.kind = .functionDeclaration ∨ node.kind = .functionExpression
  · have unlike : isClassKind node.kind = false ∧ node.kind ≠ .variableDeclaration := by
      rcases isFunction with same | same <;> rw [same] <;> exact ⟨rfl, by decide⟩
    simp [mem_declared_function isFunction, isFunction, unlike.1, noVariables unlike.2]
  · cases isClass : isClassKind node.kind with
    | true =>
      have unlike : node.kind ≠ .variableDeclaration := by
        intro same
        rw [same] at isClass
        cases isClass
      simp [mem_declared_class isClass, isFunction, noVariables unlike]
    | false => simp [mem_declared_variables isFunction isClass, isFunction]

theorem exportKind_of_mem_declared (member : declaration ∈ declared exportKind node) :
    declaration.exportKind = exportKind := by
  rcases mem_declared.mp member with ⟨-, _, -, rfl⟩ | ⟨-, _, -, rfl⟩ | ⟨_, -, _, -, -, rfl⟩ <;> rfl

theorem kind_of_mem_declared (member : declaration ∈ declared exportKind node) :
    declaration.kind ≠ .reference := by
  rcases mem_declared.mp member with ⟨-, _, -, rfl⟩ | ⟨-, _, -, rfl⟩ | ⟨_, -, _, -, -, rfl⟩ <;> simp

theorem defaultValue?_eq_some {value : Node} :
    defaultValue? statement = some value ↔
      statement.hasKeyword "default" = true ∧ statement.child? .declaration = none
        ∧ ∃ written, statement.child? .value = some written ∧ written.unwrap = some value := by
  simp [defaultValue?, and_assoc, Option.bind_eq_some_iff]

theorem kind_of_mem_clauseExports (member : declaration ∈ clauseExports bindings statement) :
    declaration.kind = .reference := by
  obtain ⟨clause, -, member⟩ := List.mem_flatMap.mp member
  obtain ⟨specifier, -, handedOut⟩ := List.mem_filterMap.mp member
  simp only [ofSpecifier] at handedOut
  split at handedOut
  · cases handedOut
  · split at handedOut
    · cases handedOut
    · split at handedOut <;> cases handedOut <;> rfl

theorem exported_of_mem_statementExports
    (member : declaration ∈ statementExports bindings statement) :
    statement.kind = .exportStatement ∧ statement.hasKeyword "type" = false := by
  unfold statementExports at member
  split at member
  · cases member
  · next exported => simpa using exported

/-- Where an exported declaration comes from: a default value that is a name, another default value,
a declaration, or a clause. -/
theorem mem_statementExports (exported : statement.kind = .exportStatement)
    (untyped : statement.hasKeyword "type" = false) :
    declaration ∈ statementExports bindings statement ↔
      (∃ value, defaultValue? statement = some value ∧ value.kind = .identifier
          ∧ declaration = ⟨value.lexeme, .reference, .default, bindings.lookup value.lexeme⟩)
        ∨ (∃ value, defaultValue? statement = some value ∧ value.kind ≠ .identifier
          ∧ declaration ∈ declared .default value)
        ∨ (∃ node, statement.child? .declaration = some node
          ∧ declaration ∈ declared (exportKindOf statement) node)
        ∨ (defaultValue? statement = none ∧ statement.child? .declaration = none
          ∧ statement.child? .source = none ∧ declaration ∈ clauseExports bindings statement) := by
  rw [statementExports, if_neg (by simp [exported, untyped])]
  cases valued : defaultValue? statement with
  | some value =>
    obtain ⟨keyword, undeclared, -⟩ := defaultValue?_eq_some.mp valued
    by_cases isName : value.kind = .identifier <;> simp [isName, undeclared, exportKindOf, keyword]
  | none =>
    cases declares : statement.child? .declaration with
    | some node => simp
    | none => cases statement.child? .source <;> simp

/-- What a statement exports by its name it declares. -/
theorem declared_of_named (member : declaration ∈ statementExports bindings statement)
    (named : declaration.exportKind = .named) (other : declaration.kind ≠ .reference) :
    statement.hasKeyword "default" = false ∧ ∃ node, statement.child? .declaration = some node
      ∧ declaration ∈ declared .named node := by
  obtain ⟨exported, untyped⟩ := exported_of_mem_statementExports member
  rcases (mem_statementExports exported untyped).mp member with
    ⟨value, -, -, rfl⟩ | ⟨value, -, -, inValue⟩ | ⟨node, found, inNode⟩ | ⟨-, -, -, inClause⟩
  · cases named
  · rw [exportKind_of_mem_declared inValue] at named
    cases named
  · have kind := exportKind_of_mem_declared inNode
    rw [named, exportKindOf] at kind
    split at kind
    · cases kind
    · next keyword =>
      simp only [Bool.not_eq_true] at keyword
      refine ⟨keyword, node, found, ?_⟩
      simpa [exportKindOf, keyword] using inNode
  · exact absurd (kind_of_mem_clauseExports inClause) other

/-- What a statement exports as the default, other than by a reference, it declares, or it is the
value of the statement looked through. -/
theorem declared_of_default (member : declaration ∈ statementExports bindings statement)
    (isDefault : declaration.exportKind = .default) (other : declaration.kind ≠ .reference) :
    statement.hasKeyword "default" = true ∧ ∃ node, declaration ∈ declared .default node
      ∧ (statement.child? .declaration = some node
        ∨ statement.child? .declaration = none ∧ ∃ written,
          statement.child? .value = some written ∧ written.unwrap = some node) := by
  obtain ⟨exported, untyped⟩ := exported_of_mem_statementExports member
  rcases (mem_statementExports exported untyped).mp member with
    ⟨value, -, -, rfl⟩ | ⟨value, valued, -, inValue⟩ | ⟨node, found, inNode⟩ | ⟨-, -, -, inClause⟩
  · exact absurd rfl other
  · obtain ⟨keyword, undeclared, written⟩ := defaultValue?_eq_some.mp valued
    exact ⟨keyword, value, inValue, .inr ⟨undeclared, written⟩⟩
  · have kind := exportKind_of_mem_declared inNode
    rw [isDefault, exportKindOf] at kind
    split at kind
    · next keyword =>
        exact ⟨keyword, node, by simpa [exportKindOf, keyword] using inNode, .inl found⟩
    · cases kind
  · exact absurd (kind_of_mem_clauseExports inClause) other

end Declaration

namespace Component

/-! ## Candidates -/

/-- The name of a component is not empty. -/
theorem ne_empty_of_accepts {criteria : Criteria} {declaration : Declaration}
    (accepted : criteria.accepts declaration = true) : declaration.name ≠ "" := by
  intro empty
  simp [Criteria.accepts, Criteria.holds, isComponentName, empty] at accepted

/-- The names of the declarations that are accepted first are those of all accepted ones: a
declaration is passed over only where its name was reported before. -/
theorem mem_names_firstAccepted {accepts : Declaration → Bool} {seen : List String}
    {declarations : List Declaration} {name : String} :
    name ∈ (firstAccepted accepts seen declarations).map (·.name) ↔
      name ∉ seen ∧ ∃ declaration ∈ declarations,
        declaration.name = name ∧ accepts declaration = true := by
  induction declarations generalizing seen with
  | nil => simp [firstAccepted]
  | cons first rest ih =>
    simp only [firstAccepted]
    split
    · next passedOver =>
      simp only [Bool.or_eq_true, Bool.not_eq_true', List.contains_eq_mem, decide_eq_true_eq]
        at passedOver
      rw [ih]
      refine and_congr_right fun unseen => ⟨?_, ?_⟩
      · rintro ⟨declaration, member, found⟩
        exact ⟨declaration, List.mem_cons_of_mem _ member, found⟩
      · rintro ⟨declaration, member, rfl, accepted⟩
        rcases List.mem_cons.mp member with rfl | later
        · rcases passedOver with reported | rejected
          · exact absurd reported unseen
          · simp [rejected] at accepted
        · exact ⟨declaration, later, rfl, accepted⟩
    · next taken =>
      simp only [Bool.or_eq_true, Bool.not_eq_true', List.contains_eq_mem, decide_eq_true_eq,
        not_or, Bool.not_eq_false] at taken
      rw [List.map_cons, List.mem_cons, ih]
      by_cases same : name = first.name
      · simp [same, taken]
      · have other : first.name ≠ name := fun equal => same equal.symm
        simp [same, other]

theorem mem_names_candidates {criteria : Criteria} {root : Node} {name : String} :
    name ∈ (candidates criteria root).map (·.name) ↔
      ∃ statement ∈ root.namedChildren,
        ∃ declaration ∈ Declaration.statementExports (Declaration.localBindings root) statement,
          declaration.name = name ∧ criteria.accepts declaration = true := by
  have names : (candidates criteria root).map (·.name) =
      (firstAccepted criteria.accepts [] (Declaration.exports root)).map (·.name) := by
    simp [candidates, Candidate.ofDeclaration, Function.comp_def]
  rw [names, mem_names_firstAccepted]
  simp only [Declaration.exports, List.not_mem_nil, not_false_eq_true, true_and, List.mem_flatMap]
  constructor
  · rintro ⟨declaration, ⟨statement, inRoot, member⟩, found⟩
    exact ⟨statement, inRoot, declaration, member, found⟩
  · rintro ⟨statement, inRoot, declaration, member, found⟩
    exact ⟨declaration, ⟨statement, inRoot, member⟩, found⟩

end Component

end RenderProbe
