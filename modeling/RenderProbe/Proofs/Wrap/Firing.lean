import RenderProbe.Proofs.Syntax.Outline
import RenderProbe.Wrap.Transform

/-!
# What a rule wraps

A rule that fires on an export statement wraps nodes of it: a declaration, a value, some declarators
or a function. `Aim.wrapped` names these nodes; it reads the statement alone, not the bytes of the
source and not the other statements.

* `Rewrite.fires?_eq_some_iff`: a rule fires on exactly the export statements in which it wraps
  something, and no two rules wrap something in the same statement.
* `Rewrite.patches_defaultDeclaration` and its three siblings: the patches of a rule, from the nodes
  it wraps.
* `transform_eq_noMatch_iff` and `transform_eq_wrapped_iff`: when a wrap gives which answer.
* `Aim.wrapped_outline`: layout does not change what is wrapped.
-/

namespace RenderProbe.Wrap

open Syntax (Node Role)
open Component (Criteria)

/-- What a wrap aims at: the criteria of detection, the component and the wrapper. Whether a rule
fires depends on these, and not on positions or on the bytes of the source. -/
structure Aim where
  criteria : Criteria
  name : String
  symbol : String

/-- The aim of a rewrite. -/
def Rewrite.aim (rewrite : Rewrite) : Aim :=
  ⟨rewrite.criteria, rewrite.name, rewrite.symbol⟩

namespace Aim

variable (aim : Aim) (statement : Node)

/-- The shape under which a default function or class is judged. -/
def defaultKind (declaration : Node) : DeclarationKind :=
  if Declaration.isClassKind declaration.kind then .classDeclaration else .function

/-- Whether detection accepts a default function or class of the wanted name. -/
def acceptsDefault (declaration : Node) : Bool :=
  declaration.declaredName? == some aim.name
    && aim.criteria.accepts ⟨aim.name, defaultKind declaration, .default, some declaration⟩

/-- The function or class that the first rule wraps. -/
def defaultDeclaration? : Option Node :=
  if statement.hasKeyword "default" then
    (defaultFunctionOrClass? statement).filter aim.acceptsDefault
  else none

/-- Whether a value is a reference to the wanted name and detection accepts it. -/
def acceptsReference (value : Node) : Bool :=
  (value.unwrap.any fun reference => reference.kind == .identifier && reference.lexeme == aim.name)
    && aim.criteria.accepts ⟨aim.name, .reference, .default, none⟩

/-- The value that the second rule replaces. -/
def defaultValue? : Option Node :=
  if statement.hasKeyword "default" && (statement.child? .declaration).isNone then
    (statement.child? .value).filter aim.acceptsReference
  else none

/-- Whether a value is an unwrapped component of the wanted name. -/
def acceptsInitializer (value : Node) : Bool :=
  !value.isCallTo aim.symbol && isLikelyComponent aim.criteria.helpers value
    && aim.criteria.accepts ⟨aim.name, .initializer, .named, some value⟩

/-- Whether a declarator gives the wanted name an unwrapped component. -/
def wrapsDeclarator (declarator : Node) : Bool :=
  (declarator.child? .name).any (·.lexeme == aim.name)
    && (declarator.child? .value).any aim.acceptsInitializer

/-- The declarators whose values the third rule wraps. -/
def declarators : List Node :=
  if statement.hasKeyword "default" then []
  else match statement.child? .declaration with
    | some declaration => declaration.declarators.filter aim.wrapsDeclarator
    | none => []

/-- Whether detection accepts a named function of the wanted name. -/
def acceptsFunction (declaration : Node) : Bool :=
  declaration.kind == .functionDeclaration && declaration.declaredName? == some aim.name
    && aim.criteria.accepts ⟨aim.name, .function, .named, some declaration⟩

/-- The function that the fourth rule wraps. -/
def function? : Option Node :=
  if statement.hasKeyword "default" then none
  else (statement.child? .declaration).filter aim.acceptsFunction

/-- The nodes of an export statement that a rule wraps. -/
def wrapped : Rule → List Node
  | .defaultDeclaration => (aim.defaultDeclaration? statement).toList
  | .defaultIdentifier => (aim.defaultValue? statement).toList
  | .namedVariable => aim.declarators statement
  | .namedFunction => (aim.function? statement).toList

end Aim

/-! ## Patches -/

section Patches

variable (rewrite : Rewrite) (statement : Node)

/-- The patch that wraps the value of a declarator. -/
def Rewrite.valuePatch (declarator : Node) : List Patch :=
  match declarator.child? .value with
  | some value => [⟨value.span.start, value.span.stop,
      Snippet.wrapCall rewrite.style rewrite.symbol (rewrite.textOf value) rewrite.name⟩]
  | none => []

theorem Rewrite.patches_defaultDeclaration :
    rewrite.patches statement .defaultDeclaration =
      (rewrite.aim.wrapped statement .defaultDeclaration).flatMap fun _ =>
        keywordDeletions rewrite.bytes statement ++
          [Patch.insert statement.span.stop (rewrite.newline
            ++ Snippet.defaultExport rewrite.style rewrite.symbol rewrite.name)] := by
  simp only [Rewrite.patches, Rewrite.matches, Rewrite.defaultDeclaration, Aim.wrapped,
    Aim.defaultDeclaration?]
  cases keyword : statement.hasKeyword "default" with
  | false => simp
  | true =>
    cases found : defaultFunctionOrClass? statement with
    | none => simp
    | some declaration =>
      have verdict : rewrite.aim.acceptsDefault declaration =
          (declaration.declaredName? == some rewrite.name && rewrite.criteria.accepts
            ⟨rewrite.name, Aim.defaultKind declaration, .default, some declaration⟩) := rfl
      by_cases named : declaration.declaredName? = some rewrite.name
      · cases accepted : rewrite.criteria.accepts
            ⟨rewrite.name, Aim.defaultKind declaration, .default, some declaration⟩ <;>
          simp_all [Aim.defaultKind, Option.filter_some]
      · simp [named, verdict, Option.filter_some]

theorem Rewrite.patches_defaultIdentifier :
    rewrite.patches statement .defaultIdentifier =
      (rewrite.aim.wrapped statement .defaultIdentifier).map fun value =>
        ⟨value.span.start, value.span.stop,
          Snippet.wrapCall rewrite.style rewrite.symbol rewrite.name rewrite.name⟩ := by
  simp only [Rewrite.patches, Rewrite.matches, Rewrite.defaultIdentifier, Aim.wrapped,
    Aim.defaultValue?]
  cases keyword : statement.hasKeyword "default" with
  | false => simp
  | true =>
    cases declared : statement.child? .declaration with
    | some declaration => simp
    | none =>
      cases found : statement.child? .value with
      | none => simp
      | some value =>
        have verdict : rewrite.aim.acceptsReference value =
            ((value.unwrap.any fun reference =>
                reference.kind == .identifier && reference.lexeme == rewrite.name)
              && rewrite.criteria.accepts ⟨rewrite.name, .reference, .default, none⟩) := rfl
        cases refers : value.unwrap.any fun reference =>
            reference.kind == .identifier && reference.lexeme == rewrite.name with
        | false => simp [refers, verdict, Option.filter_some]
        | true =>
          -- A reference is no call, so the test for a call to the wrapper cannot get in the way.
          have uncalled : value.isCallTo rewrite.symbol = false := by
            obtain ⟨reference, unwrapped, isIdentifier⟩ := Option.any_eq_true _ _ |>.mp refers
            simp only [Bool.and_eq_true, beq_iff_eq] at isIdentifier
            simp [Node.isCallTo, unwrapped, isIdentifier.1]
          cases accepted : rewrite.criteria.accepts ⟨rewrite.name, .reference, .default, none⟩ <;>
            simp [refers, uncalled, accepted, verdict, Option.filter_some]

theorem Rewrite.declaratorMatch?_accepted (declarator : Node) :
    ((rewrite.declaratorMatch? declarator).toList.filter fun found =>
        rewrite.criteria.accepts found.declaration).flatMap (·.patches) =
      if rewrite.aim.wrapsDeclarator declarator then rewrite.valuePatch declarator else [] := by
  cases named : declarator.child? .name with
  | none => simp [Rewrite.declaratorMatch?, Aim.wrapsDeclarator, named]
  | some name =>
    cases valued : declarator.child? .value with
    | none => simp [Rewrite.declaratorMatch?, Aim.wrapsDeclarator, named, valued]
    | some value =>
      simp only [Rewrite.declaratorMatch?, Aim.wrapsDeclarator, Aim.acceptsInitializer, named,
        valued, Rewrite.aim, Rewrite.valuePatch, Option.any_some, Bool.or_eq_true, bne_iff_ne]
      by_cases lexeme : name.lexeme = rewrite.name
      · cases called : value.isCallTo rewrite.symbol
        · cases likely : isLikelyComponent rewrite.criteria.helpers value
          · simp
          · cases accepted :
              rewrite.criteria.accepts ⟨rewrite.name, .initializer, .named, some value⟩ <;>
              simp [lexeme, accepted]
        · simp
      · simp [lexeme]

theorem Rewrite.patches_namedVariable :
    rewrite.patches statement .namedVariable =
      (rewrite.aim.wrapped statement .namedVariable).flatMap rewrite.valuePatch := by
  simp only [Rewrite.patches, Rewrite.matches, Rewrite.namedVariable, Aim.wrapped, Aim.declarators]
  cases keyword : statement.hasKeyword "default" with
  | true => simp
  | false =>
    cases found : statement.child? .declaration with
    | none => simp
    | some declaration =>
      simp only [Bool.false_eq_true, if_false]
      induction declaration.declarators with
      | nil => rfl
      | cons declarator rest ih =>
        have here := rewrite.declaratorMatch?_accepted declarator
        have split : (declarator :: rest).filterMap rewrite.declaratorMatch? =
            (rewrite.declaratorMatch? declarator).toList
              ++ rest.filterMap rewrite.declaratorMatch? := by
          cases matched : rewrite.declaratorMatch? declarator <;> simp [matched]
        rw [split, List.filter_append, List.flatMap_append, here, ih]
        cases isWrapped : rewrite.aim.wrapsDeclarator declarator <;> simp [isWrapped]

theorem Rewrite.patches_namedFunction :
    rewrite.patches statement .namedFunction =
      (rewrite.aim.wrapped statement .namedFunction).flatMap fun _ =>
        rewrite.overloads.flatMap (keywordDeletions rewrite.bytes)
          ++ keywordDeletions rewrite.bytes statement
          ++ [Patch.insert statement.span.stop (rewrite.newline
            ++ Snippet.namedExport rewrite.style rewrite.symbol rewrite.name)] := by
  simp only [Rewrite.patches, Rewrite.matches, Rewrite.namedFunction, Aim.wrapped, Aim.function?]
  cases keyword : statement.hasKeyword "default" with
  | true => simp
  | false =>
    cases found : statement.child? .declaration with
    | none => simp
    | some declaration =>
      have verdict : rewrite.aim.acceptsFunction declaration =
          (declaration.kind == .functionDeclaration
            && declaration.declaredName? == some rewrite.name
            && rewrite.criteria.accepts ⟨rewrite.name, .function, .named, some declaration⟩) := rfl
      by_cases isFunction : declaration.kind = .functionDeclaration
      · by_cases named : declaration.declaredName? = some rewrite.name
        · cases accepted :
            rewrite.criteria.accepts ⟨rewrite.name, .function, .named, some declaration⟩ <;>
            simp [isFunction, named, accepted, verdict, Option.filter_some]
        · simp [named, verdict, Option.filter_some]
      · simp [isFunction, verdict, Option.filter_some]

end Patches

/-! ## Firing -/

section Firing

variable {aim : Aim} {statement node : Node} {rule : Rule}

theorem Aim.defaultDeclaration?_eq_some :
    aim.defaultDeclaration? statement = some node ↔
      statement.hasKeyword "default" = true ∧ defaultFunctionOrClass? statement = some node
        ∧ aim.acceptsDefault node = true := by
  simp [Aim.defaultDeclaration?, Option.filter_eq_some_iff]

theorem Aim.defaultValue?_eq_some :
    aim.defaultValue? statement = some node ↔
      statement.hasKeyword "default" = true ∧ statement.child? .declaration = none
        ∧ statement.child? .value = some node ∧ aim.acceptsReference node = true := by
  simp [Aim.defaultValue?, Option.filter_eq_some_iff, and_assoc]

theorem Aim.mem_declarators :
    node ∈ aim.declarators statement ↔
      statement.hasKeyword "default" = false ∧ ∃ declaration,
        statement.child? .declaration = some declaration ∧ node ∈ declaration.declarators
          ∧ aim.wrapsDeclarator node = true := by
  cases keyword : statement.hasKeyword "default" <;>
    cases found : statement.child? .declaration <;> simp [Aim.declarators, keyword, found]

theorem Aim.function?_eq_some :
    aim.function? statement = some node ↔
      statement.hasKeyword "default" = false ∧ statement.child? .declaration = some node
        ∧ aim.acceptsFunction node = true := by
  simp [Aim.function?, Option.filter_eq_some_iff]

/-- A function or class of a default export is its declaration, or its value where it has none. -/
theorem of_defaultFunctionOrClass? (found : defaultFunctionOrClass? statement = some node) :
    (statement.child? .declaration = some node ∧
        (node.kind = .functionDeclaration ∨ node.kind = .functionExpression
          ∨ Declaration.isClassKind node.kind = true))
      ∨ (statement.child? .declaration = none ∧ statement.child? .value = some node
        ∧ (node.kind = .functionExpression ∨ node.kind = .classExpression)) := by
  cases declared : statement.child? .declaration with
  | none =>
    simp only [defaultFunctionOrClass?, declared, Option.filter_eq_some_iff, Bool.or_eq_true,
      beq_iff_eq] at found
    exact .inr ⟨rfl, found⟩
  | some declaration =>
    simp only [defaultFunctionOrClass?, declared, Option.ite_none_right_eq_some,
      Option.some.injEq] at found
    obtain ⟨shape, rfl⟩ := found
    refine .inl ⟨rfl, ?_⟩
    simp only [Bool.or_eq_true, beq_iff_eq] at shape
    rcases shape with (function | isClass) | function | isClass
    · exact .inl function
    · exact .inr (.inr isClass)
    · exact .inr (.inl function)
    · exact .inr (.inr (by simp [isClass, Declaration.isClassKind]))

theorem kind_of_defaultFunctionOrClass? (found : defaultFunctionOrClass? statement = some node) :
    node.kind = .functionDeclaration ∨ node.kind = .functionExpression
      ∨ Declaration.isClassKind node.kind = true := by
  rcases of_defaultFunctionOrClass? found with ⟨-, isKind⟩ | ⟨-, -, isFunction | isClass⟩
  · exact isKind
  · exact .inr (.inl isFunction)
  · exact .inr (.inr (by rw [isClass]; rfl))

/-- A declaration that is wrapped where it stands leaves no value to replace. -/
theorem Aim.defaultValue?_of_defaultDeclaration {declaration : Node}
    (wraps : aim.defaultDeclaration? statement = some declaration) :
    aim.defaultValue? statement = none := by
  rw [Option.eq_none_iff_forall_ne_some]
  intro value replaces
  obtain ⟨-, found, -⟩ := Aim.defaultDeclaration?_eq_some.mp wraps
  obtain ⟨-, undeclared, valued, refers⟩ := Aim.defaultValue?_eq_some.mp replaces
  rcases of_defaultFunctionOrClass? found with ⟨declared, -⟩ | ⟨-, valued', shape⟩
  · simp [undeclared] at declared
  · obtain rfl : value = declaration := Option.some.inj (valued.symm.trans valued')
    -- The value is a function or class itself, hence not looked through to an identifier.
    have opaqueValue : value.unwrap = some value :=
      Node.unwrap_of_not_transparent (by rcases shape with shape | shape <;> rw [shape] <;> rfl)
    rcases shape with shape | shape <;> simp [Aim.acceptsReference, opaqueValue, shape] at refers

/-- Declarators belong to variable declarations, so no function is declared beside them. -/
theorem Aim.function?_of_mem_declarators (wraps : node ∈ aim.declarators statement) :
    aim.function? statement = none := by
  rw [Option.eq_none_iff_forall_ne_some]
  intro function wraps'
  obtain ⟨-, declaration, found, member, -⟩ := Aim.mem_declarators.mp wraps
  obtain ⟨-, found', accepted⟩ := Aim.function?_eq_some.mp wraps'
  obtain rfl : function = declaration := Option.some.inj (found'.symm.trans found)
  have isVariables := Node.kind_of_mem_declarators member
  simp [Aim.acceptsFunction, isVariables] at accepted

/-- No two rules wrap something in one statement. So the order in which they are tried decides
nothing. -/
theorem Aim.wrapped_unique {other : Rule} (here : aim.wrapped statement rule ≠ [])
    (there : aim.wrapped statement other ≠ []) : rule = other := by
  obtain ⟨node, wraps⟩ := List.exists_mem_of_ne_nil _ here
  obtain ⟨node', wraps'⟩ := List.exists_mem_of_ne_nil _ there
  -- The keyword separates the first two rules from the others.
  have keyword : ∀ {node rule}, node ∈ aim.wrapped statement rule →
      (statement.hasKeyword "default" = true ↔
        rule = .defaultDeclaration ∨ rule = .defaultIdentifier) := by
    intro node rule wraps
    cases rule <;> simp only [Aim.wrapped, Option.mem_toList] at wraps
    · simp [(Aim.defaultDeclaration?_eq_some.mp wraps).1]
    · simp [(Aim.defaultValue?_eq_some.mp wraps).1]
    · simp [(Aim.mem_declarators.mp wraps).1]
    · simp [(Aim.function?_eq_some.mp wraps).1]
  have same := (keyword wraps).symm.trans (keyword wraps')
  cases rule <;> cases other <;> first
    | rfl
    | (simp at same; done)
    | (simp only [Aim.wrapped, Option.mem_toList] at wraps wraps'
       first
       | simp [Aim.defaultValue?_of_defaultDeclaration wraps] at wraps'
       | simp [Aim.defaultValue?_of_defaultDeclaration wraps'] at wraps
       | simp [Aim.function?_of_mem_declarators wraps] at wraps'
       | simp [Aim.function?_of_mem_declarators wraps'] at wraps)

variable {rewrite : Rewrite}

theorem Rewrite.patches_eq_nil_iff :
    rewrite.patches statement rule = [] ↔ rewrite.aim.wrapped statement rule = [] := by
  cases rule with
  | defaultDeclaration =>
    rw [Rewrite.patches_defaultDeclaration]
    cases rewrite.aim.wrapped statement .defaultDeclaration <;> simp
  | defaultIdentifier => simp [Rewrite.patches_defaultIdentifier]
  | namedVariable =>
    rw [Rewrite.patches_namedVariable, List.flatMap_eq_nil_iff]
    refine ⟨fun empty => List.eq_nil_iff_forall_not_mem.mpr fun declarator wraps => ?_,
      fun none => by simp [none]⟩
    obtain ⟨-, declaration, -, -, accepted⟩ := Aim.mem_declarators.mp wraps
    simp only [Aim.wrapsDeclarator, Bool.and_eq_true, Option.any_eq_true] at accepted
    obtain ⟨-, value, valued, -⟩ := accepted
    simpa [Rewrite.valuePatch, valued] using empty declarator wraps
  | namedFunction =>
    rw [Rewrite.patches_namedFunction]
    cases rewrite.aim.wrapped statement .namedFunction <;> simp

/-- A rule fires on exactly the export statements in which it wraps something. -/
theorem Rewrite.fires?_eq_some_iff :
    rewrite.fires? statement = some rule ↔
      statement.kind = .exportStatement ∧ rewrite.aim.wrapped statement rule ≠ [] := by
  rw [Rewrite.fires?]
  by_cases exported : statement.kind = .exportStatement
  · simp only [exported, beq_self_eq_true, if_true, true_and]
    constructor
    · intro found
      simpa [Rewrite.patches_eq_nil_iff] using List.find?_some found
    · intro wraps
      cases found : rules.find? fun rule => !(rewrite.patches statement rule).isEmpty with
      | none =>
        have listed : rule ∈ rules := by cases rule <;> decide
        simpa [Rewrite.patches_eq_nil_iff, wraps] using List.find?_eq_none.mp found rule listed
      | some first =>
        have fires := List.find?_some found
        simp only [Bool.not_eq_true', List.isEmpty_eq_false_iff, ne_eq,
          Rewrite.patches_eq_nil_iff] at fires
        rw [Aim.wrapped_unique fires wraps]
  · simp [exported]

theorem Rewrite.fires?_eq_none_iff :
    rewrite.fires? statement = none ↔
      (statement.kind = .exportStatement → ∀ rule, rewrite.aim.wrapped statement rule = []) := by
  simp only [Option.eq_none_iff_forall_ne_some, ne_eq, Rewrite.fires?_eq_some_iff]
  grind

end Firing

/-! ## Answers -/

/-- Nothing of the wanted name is left to wrap. -/
def Aim.Settled (aim : Aim) (root : Node) : Prop :=
  ∀ statement ∈ root.namedChildren, statement.kind = .exportStatement →
    ∀ rule, aim.wrapped statement rule = []

theorem Rewrite.firing_eq_nil_iff (rewrite : Rewrite) (root : Node) :
    rewrite.firing root = [] ↔ rewrite.aim.Settled root := by
  simp only [Rewrite.firing, List.filterMap_eq_nil_iff, Option.map_eq_none_iff,
    Rewrite.fires?_eq_none_iff]
  rfl

/-- The patches of the rules that fire in a module. -/
def Rewrite.rulePatches (rewrite : Rewrite) (root : Node) : List Patch :=
  (rewrite.firing root).flatMap fun (statement, rule) => rewrite.patches statement rule

/-- A rule that fires has patches. -/
theorem Rewrite.rulePatches_eq_nil_iff (rewrite : Rewrite) (root : Node) :
    rewrite.rulePatches root = [] ↔ rewrite.firing root = [] := by
  rw [Rewrite.rulePatches, List.flatMap_eq_nil_iff]
  refine ⟨fun empty => List.eq_nil_iff_forall_not_mem.mpr ?_, fun silent => by simp [silent]⟩
  rintro ⟨statement, rule⟩ fires
  have patchless := Rewrite.patches_eq_nil_iff.mp (empty _ fires)
  simp only [Rewrite.firing, List.mem_filterMap, Option.map_eq_some_iff] at fires
  obtain ⟨_, -, rule', fires, same⟩ := fires
  cases same
  exact (Rewrite.fires?_eq_some_iff.mp fires).2 patchless

/-! ## Wrapping by evaluation -/

/-- Whether `A` is wrapped in a text, by `w` from `m`, so that a test of the tree and of what the
wrap gives is passed. A closed text can be tried in this way in one go. -/
def wrapPasses (text : String) (test : Node → String → List Rule → Bool) : Bool :=
  (Syntax.parse true text).any fun root =>
    match transform .standard .single text root "A" ⟨"w", "m"⟩ with
    | .ok (.wrapped output rules) => test root output rules
    | _ => false

theorem exists_of_wrapPasses {text : String} {test : Node → String → List Rule → Bool}
    (passes : wrapPasses text test = true) :
    ∃ root output rules, Syntax.parse true text = some root
      ∧ transform .standard .single text root "A" ⟨"w", "m"⟩ = .ok (.wrapped output rules)
      ∧ test root output rules = true := by
  obtain ⟨root, parsed, passes⟩ := (Option.any_eq_true _ _).mp passes
  split at passes
  · next output rules answer => exact ⟨root, output, rules, parsed, answer, passes⟩
  · cases passes

section Answers

variable {criteria : Criteria} {style : QuoteStyle} {text name : String} {root : Node}
  {target : ImportTarget}

theorem transform_of_firing_eq_nil
    (silent : (Rewrite.of criteria style text root name target.symbol).firing root = []) :
    transform criteria style text root name target = .ok (.untouched .noMatch) :=
  if_pos (List.isEmpty_iff.mpr silent)

/-- Where a rule fires, the answer is that of rendering its patches. -/
theorem transform_of_firing_ne_nil
    (fires : (Rewrite.of criteria style text root name target.symbol).firing root ≠ []) :
    transform criteria style text root name target =
      match Patch.render (Patch.encode text)
        ((Rewrite.of criteria style text root name target.symbol).rulePatches root
          ++ importPatches (scanImports root target.symbol) style
            (Snippet.newlineFor text) target) with
      | .error e => .error e
      | .ok output =>
        if output == text then .ok (.untouched .unchanged)
        else .ok (.wrapped output
          (((Rewrite.of criteria style text root name target.symbol).firing root).map (·.2))) :=
  if_neg (by simpa using fires)

theorem transform_eq_noMatch_iff :
    transform criteria style text root name target = .ok (.untouched .noMatch) ↔
      (Rewrite.of criteria style text root name target.symbol).firing root = [] := by
  refine ⟨fun answer => Classical.byContradiction fun fires => ?_, transform_of_firing_eq_nil⟩
  rw [transform_of_firing_ne_nil fires] at answer
  split at answer
  · cases answer
  · split at answer <;> cases answer

theorem transform_eq_wrapped_iff {output : String} {rules : List Rule} :
    transform criteria style text root name target = .ok (.wrapped output rules) ↔
      (Rewrite.of criteria style text root name target.symbol).firing root ≠ []
        ∧ Patch.render (Patch.encode text)
          ((Rewrite.of criteria style text root name target.symbol).rulePatches root
            ++ importPatches (scanImports root target.symbol) style (Snippet.newlineFor text)
              target) =
          .ok output
        ∧ output ≠ text
        ∧ ((Rewrite.of criteria style text root name target.symbol).firing root).map (·.2)
          = rules := by
  by_cases silent : (Rewrite.of criteria style text root name target.symbol).firing root = []
  · simp [transform_of_firing_eq_nil silent, silent]
  · rw [transform_of_firing_ne_nil silent]
    split
    · next failed => simp [failed]
    · next rendered =>
      simp only [rendered, Except.ok.injEq, silent, not_false_eq_true, true_and, ne_eq]
      split
      · next same => simp_all
      · next changed =>
        simp only [beq_iff_eq] at changed
        simp only [Except.ok.injEq, WrapResult.wrapped.injEq]
        constructor
        · rintro ⟨rfl, same⟩
          exact ⟨rfl, changed, same⟩
        · rintro ⟨rfl, -, same⟩
          exact ⟨rfl, same⟩

end Answers

/-! ## Layout -/

section Layout

variable (aim : Aim) (node : Node)

theorem accepts_outline (criteria : Criteria) (name : String) (kind : DeclarationKind)
    (exportKind : ExportKind) :
    criteria.accepts ⟨name, kind, exportKind, some node.outline⟩ =
      criteria.accepts ⟨name, kind, exportKind, some node⟩ :=
  Component.accepts_outlineOf criteria ⟨name, kind, exportKind, some node⟩

theorem isLikelyComponent_outline (helpers : List String) :
    isLikelyComponent helpers node.outline = isLikelyComponent helpers node := by
  rw [isLikelyComponent, Node.unwrap_outline]
  cases found : node.unwrap <;> simp [isLikelyComponent, found]

theorem Aim.acceptsDefault_outline : aim.acceptsDefault node.outline = aim.acceptsDefault node := by
  simp [Aim.acceptsDefault, Aim.defaultKind, accepts_outline]

theorem Aim.acceptsReference_outline :
    aim.acceptsReference node.outline = aim.acceptsReference node := by
  rw [Aim.acceptsReference, Node.unwrap_outline]
  cases found : node.unwrap <;> simp [Aim.acceptsReference, found]

theorem Aim.acceptsInitializer_outline :
    aim.acceptsInitializer node.outline = aim.acceptsInitializer node := by
  simp [Aim.acceptsInitializer, isLikelyComponent_outline, accepts_outline]

theorem Aim.acceptsFunction_outline :
    aim.acceptsFunction node.outline = aim.acceptsFunction node := by
  simp [Aim.acceptsFunction, accepts_outline]

theorem Aim.wrapsDeclarator_outline :
    aim.wrapsDeclarator node.outline = aim.wrapsDeclarator node := by
  rw [Aim.wrapsDeclarator, Node.child?_outline node (by decide),
    Node.child?_outline node (by decide)]
  cases named : node.child? .name <;> cases valued : node.child? .value <;>
    simp [Aim.wrapsDeclarator, named, valued, Aim.acceptsInitializer_outline]

theorem defaultFunctionOrClass?_outline :
    defaultFunctionOrClass? node.outline = (defaultFunctionOrClass? node).map .outline := by
  rw [defaultFunctionOrClass?, Node.child?_outline node (by decide),
    Node.child?_outline node (by decide), defaultFunctionOrClass?]
  cases node.child? .declaration with
  | some declaration =>
    simp only [Option.map_some, Node.outline_kind]
    split <;> rfl
  | none =>
    cases node.child? .value with
    | none => rfl
    | some value =>
      simp only [Option.map_none, Option.map_some, Option.filter_some, Node.outline_kind]
      split <;> rfl

/-- A rule wraps in a statement what it wraps in its outline. Thereby a wrap can be followed through
a text that was edited and read again. -/
theorem Aim.wrapped_outline (rule : Rule) :
    aim.wrapped node.outline rule = (aim.wrapped node rule).map .outline := by
  have keyword := Node.hasKeyword_outline node "default"
  have declared := Node.child?_outline node (by decide : Role.declaration ≠ .plain)
  have valued := Node.child?_outline node (by decide : Role.value ≠ .plain)
  cases rule with
  | defaultDeclaration =>
    simp only [Aim.wrapped, Aim.defaultDeclaration?, keyword, defaultFunctionOrClass?_outline]
    cases node.hasKeyword "default" <;> cases found : defaultFunctionOrClass? node with
    | none => simp
    | some declaration =>
      cases accepted : aim.acceptsDefault declaration <;>
        simp [Option.filter_some, Aim.acceptsDefault_outline, accepted]
  | defaultIdentifier =>
    simp only [Aim.wrapped, Aim.defaultValue?, keyword, declared, valued]
    cases node.hasKeyword "default" <;> cases node.child? .declaration <;>
      cases node.child? .value with
    | none => simp
    | some value =>
      cases accepted : aim.acceptsReference value <;>
        simp [Option.filter_some, Aim.acceptsReference_outline, accepted]
  | namedVariable =>
    simp only [Aim.wrapped, Aim.declarators, keyword, declared]
    cases node.hasKeyword "default" <;> cases node.child? .declaration <;>
      simp [List.filter_map, Function.comp_def, Aim.wrapsDeclarator_outline]
  | namedFunction =>
    simp only [Aim.wrapped, Aim.function?, keyword, declared]
    cases node.hasKeyword "default" <;> cases node.child? .declaration with
    | none => simp
    | some declaration =>
      cases accepted : aim.acceptsFunction declaration <;>
        simp [Option.filter_some, Aim.acceptsFunction_outline, accepted]

end Layout

end RenderProbe.Wrap
