import RenderProbe.Proofs.Syntax.ReturnFree

/-!
# The grammar of expressions reads no return statements

One lemma for each rule of types, patterns, markup and expressions: if the rules it calls read no
return statements of the function around, neither does the rule. Only statements and blocks hold
return statements, and these rules reach them through functions and classes alone.

* `CallsReturnFree`: what is assumed of the rules that a rule calls.
* `returnFree_of_access`, `returnFree_of_operatorsAfter`: what follows an operand makes it grow.
* `returnFree_parseWithin`: the rules as the grammar ties them together.
* `isExpression_of_read`: what the rules of expressions read are expressions.
-/

namespace RenderProbe.Syntax

/-- A rule that reads no statements. -/
def isInline : Rule → Bool
  | .statement | .block => false
  | _ => true

/-- The rules of expressions, types and patterns that a rule calls read no return statements. -/
def CallsReturnFree (g : Grammar) : Prop :=
  ∀ rule : Rule, isInline rule = true → ReturnFree (g.call rule)

/-! ## Types and patterns -/

section Grammar

variable {g : Grammar}

theorem returnFree_modifierWord {words : List String} : ReturnFree (modifierWord words) := by
  intro cursor nodes stop read
  unfold modifierWord at read
  dsimp only at read
  split at read
  · exact (.leaf rfl : ReturnFree (word _)) read
  · cases read

theorem returnFree_hole : ReturnFree hole := by
  intro cursor nodes stop read
  unfold hole at read
  split at read
  · cases read
    simp
  · cases read

theorem returnFree_memberEnd : ReturnFree memberEnd := by
  refine .firstOf ⟨.leaf rfl, .leaf rfl, fun cursor nodes stop read => ?_⟩
  dsimp only at read
  split at read
  · cases read
    simp
  · cases read

theorem returnFree_templateBody {rounds : Nat} {part : Parser} (free : ReturnFree part) :
    ReturnFree (templateBody rounds part) :=
  .seq ⟨.leaf rfl, .many (.firstOf ⟨.rawLeaf rfl, .seq ⟨.rawLeaf rfl, free, .leaf rfl⟩⟩),
    .rawLeaf rfl⟩

variable (calls : CallsReturnFree g)

include calls

theorem returnFree_annotatedType : ReturnFree (annotatedType g) :=
  .node rfl (.seq ⟨.leaf rfl, calls _ rfl⟩)

theorem returnFree_typeArguments : ReturnFree (typeArguments g) :=
  .node rfl (.seq ⟨.leaf rfl, .listUntil (calls _ rfl)⟩)

theorem returnFree_typeParameter : ReturnFree (typeParameter g) := by
  have keyword : ∀ text, ReturnFree (word text) := fun _ => .leaf rfl
  exact .node
    rfl (.seq ⟨.many (.firstOf ⟨.onlyIf (keyword _), .onlyIf (keyword _), .onlyIf (keyword _)⟩),
      .leaf rfl, .optional (.seq ⟨.leaf rfl, calls _ rfl⟩),
      .optional (.seq ⟨.leaf rfl, calls _ rfl⟩)⟩)

theorem returnFree_typeParameters : ReturnFree (typeParameters g) := by
  have listed : ReturnFree (seq [mark "<", listUntil g.rounds (typeParameter g) ">"]) :=
    .seq ⟨.leaf rfl, .listUntil (returnFree_typeParameter calls)⟩
  unfold typeParameters typeNode
  refine .node rfl fun cursor nodes stop read => ?_
  split at read
  · cases read
  · exact listed read

theorem returnFree_decorator : ReturnFree (decorator g) :=
  .node rfl (.seq ⟨.leaf rfl, calls _ rfl⟩)

theorem returnFree_defaultValue : ReturnFree (defaultValue g) :=
  .seq ⟨.leaf rfl, calls _ rfl⟩

theorem returnFree_parameter : ReturnFree (parameter g) :=
  .node rfl (.seq ⟨.many (returnFree_decorator calls), .many returnFree_modifierWord,
    .optional (.leaf rfl), .firstOf ⟨calls _ rfl, .leaf rfl⟩, .optional (.leaf rfl),
    .optional (returnFree_annotatedType calls), .optional (returnFree_defaultValue calls)⟩)

theorem returnFree_parameters : ReturnFree (parameters g) :=
  .node rfl (.seq ⟨.leaf rfl, .listUntil (returnFree_parameter calls)⟩)

omit calls in
theorem returnFree_resultSubject : ReturnFree resultSubject :=
  .firstOf ⟨.leaf rfl, .leaf rfl⟩

theorem returnFree_resultClaim : ReturnFree (resultClaim g) :=
  .seq ⟨returnFree_resultSubject, .sameLine (.leaf rfl), calls _ rfl⟩

theorem returnFree_result : ReturnFree (result g) :=
  .firstOf ⟨returnFree_resultClaim calls, .seq ⟨.leaf rfl, returnFree_resultClaim calls⟩,
    .seq ⟨.leaf rfl, .sameLine returnFree_resultSubject⟩, calls _ rfl⟩

theorem returnFree_resultType : ReturnFree (resultType g) :=
  .node rfl (.seq ⟨.leaf rfl, returnFree_result calls⟩)

theorem returnFree_callSignature : ReturnFree (callSignature g) :=
  .seq ⟨.optional (returnFree_typeParameters calls), returnFree_parameters calls,
    .optional (returnFree_resultType calls)⟩

theorem returnFree_propertyName : ReturnFree (propertyName g) :=
  .firstOf ⟨.leaf rfl, .leaf rfl, .leaf rfl, .leaf rfl,
    .node rfl (.seq ⟨.leaf rfl, calls _ rfl, .leaf rfl⟩)⟩

theorem returnFree_mappedMember : ReturnFree (mappedMember g) := by
  have sign : ReturnFree (optional (firstOf [mark "+", mark "-"])) :=
    .optional (.firstOf ⟨.leaf rfl, .leaf rfl⟩)
  exact .node
    rfl (.seq ⟨.optional (.seq ⟨sign, .leaf rfl⟩), .leaf rfl, .leaf rfl, .leaf rfl, calls _ rfl,
      .optional (.seq ⟨.leaf rfl, calls _ rfl⟩), .leaf rfl, .optional (.seq ⟨sign, .leaf rfl⟩),
    .optional (returnFree_annotatedType calls)⟩)

theorem returnFree_indexSignature : ReturnFree (indexSignature g) :=
  .node rfl (.seq ⟨.many returnFree_modifierWord, .leaf rfl, .leaf rfl, .leaf rfl, calls _ rfl,
    .leaf rfl, returnFree_annotatedType calls⟩)

theorem returnFree_propertySignature : ReturnFree (propertySignature g) :=
  .node rfl (.seq ⟨.many returnFree_modifierWord, returnFree_propertyName calls,
    .optional (.leaf rfl),
    .firstOf ⟨returnFree_callSignature calls, .optional (returnFree_annotatedType calls)⟩⟩)

theorem returnFree_typeMember : ReturnFree (typeMember g) :=
  .firstOf ⟨
    .whenAhead (.firstOf ⟨returnFree_mappedMember calls, returnFree_indexSignature calls⟩),
    .whenAhead (.node rfl (returnFree_callSignature calls)),
    .node rfl (.seq ⟨.leaf rfl, returnFree_callSignature calls⟩),
      returnFree_propertySignature calls⟩

theorem returnFree_objectType : ReturnFree (objectType g) :=
  .node rfl (.seq ⟨.leaf rfl, .many (.seq ⟨returnFree_typeMember calls, returnFree_memberEnd⟩),
    .leaf rfl⟩)

theorem returnFree_tupleElement : ReturnFree (tupleElement g) :=
  .firstOf ⟨.seq ⟨.optional (.leaf rfl), .leaf rfl, .optional (.leaf rfl),
    returnFree_annotatedType calls⟩,
    .seq ⟨.optional (.leaf rfl), calls _ rfl, .optional (.leaf rfl)⟩⟩

theorem returnFree_typeReference : ReturnFree (typeReference g) :=
  .seq ⟨.leaf rfl, .many (.seq ⟨.leaf rfl, .leaf rfl⟩),
    .optional (.sameLine (returnFree_typeArguments calls))⟩

theorem returnFree_typeQuery : ReturnFree (typeQuery g) :=
  .seq ⟨.leaf rfl, .firstOf ⟨.seq ⟨.leaf rfl, .leaf rfl, .leaf rfl, .leaf rfl⟩, .leaf rfl⟩,
    .many (.firstOf (.seq ⟨.leaf rfl, .firstOf ⟨.leaf rfl, .leaf rfl⟩⟩)),
    .optional (.sameLine (returnFree_typeArguments calls))⟩

theorem returnFree_importType : ReturnFree (importType g) :=
  .seq ⟨.leaf rfl, .leaf rfl, calls _ rfl, .leaf rfl, .many (.seq ⟨.leaf rfl, .leaf rfl⟩),
    .optional (returnFree_typeArguments calls)⟩

theorem returnFree_functionType : ReturnFree (functionType g) :=
  .seq ⟨.optional (returnFree_typeParameters calls), returnFree_parameters calls, .leaf rfl,
    returnFree_result calls⟩

theorem returnFree_primaryType : ReturnFree (primaryType g) := by
  intro cursor nodes stop read
  unfold primaryType at read
  split at read
  · exact (.seq ⟨.leaf rfl, calls _ rfl, .leaf rfl⟩ : ReturnFree (seq [_, _, _])) read
  · exact returnFree_objectType calls read
  · exact (.seq ⟨.leaf rfl, .listUntil (returnFree_tupleElement calls)⟩ : ReturnFree (seq [_, _]))
      read
  · exact returnFree_templateBody (calls _ rfl) read
  · exact (.seq ⟨.leaf rfl, .leaf rfl⟩ : ReturnFree (seq [_, _])) read
  · split at read
    · exact returnFree_typeQuery calls read
    · exact returnFree_importType calls read
    · exact (.firstOf ⟨.leaf rfl, .leaf rfl⟩ : ReturnFree (firstOf [_, _])) read
    iterate 7 · cases read
    · exact returnFree_typeReference calls read

theorem returnFree_indexedType : ReturnFree (indexedType g) :=
  .seq ⟨returnFree_primaryType calls,
    .many (.sameLine
      (.firstOf ⟨.seq ⟨.leaf rfl, .leaf rfl⟩, .seq ⟨.leaf rfl, calls _ rfl, .leaf rfl⟩⟩))⟩

theorem returnFree_prefixedType {rounds : Nat} : ReturnFree (prefixedType g rounds) := by
  induction rounds with
  | zero => exact .fail
  | succ rounds ih =>
    have indexed := returnFree_indexedType calls
    have marked : ∀ keyword, ReturnFree
        (firstOf [seq [word keyword, prefixedType g rounds], indexedType g]) :=
      fun _ => .firstOf ⟨.seq ⟨.leaf rfl, ih⟩, indexed⟩
    have inferred : ReturnFree (firstOf [seq [word "infer", leaf .name nameLength,
        optional (seq [word "extends", prefixedType g rounds])], indexedType g]) :=
      .firstOf ⟨.seq ⟨.leaf rfl, .leaf rfl, .optional (.seq ⟨.leaf rfl, ih⟩)⟩, indexed⟩
    intro cursor nodes stop read
    unfold prefixedType at read
    split at read
    · exact marked _ read
    · exact marked _ read
    · exact marked _ read
    · exact inferred read
    · exact indexed read

theorem returnFree_intersectionType : ReturnFree (intersectionType g) :=
  .seq ⟨.optional (.leaf rfl), .separated (returnFree_prefixedType calls) (.leaf rfl)⟩

theorem returnFree_unionType : ReturnFree (unionType g) :=
  .seq ⟨.optional (.leaf rfl), .separated (returnFree_intersectionType calls) (.leaf rfl)⟩

theorem returnFree_typeRule : ReturnFree (typeRule g) := by
  have function : ReturnFree (whenAhead mayBeFunctionType
      (seq [optional (word "abstract"), optional (word "new"), functionType g])) :=
    .whenAhead (.seq ⟨.optional (.leaf rfl), .optional (.leaf rfl), returnFree_functionType calls⟩)
  have tested : ReturnFree (typeRule.unionOrFunction g) :=
    .firstOf ⟨function, returnFree_unionType calls⟩
  exact .node rfl (.firstOf ⟨function, .seq ⟨returnFree_unionType calls,
    .optional (.seq ⟨.leaf rfl, tested, .leaf rfl, calls _ rfl, .leaf rfl, calls _ rfl⟩)⟩⟩)

theorem returnFree_bindingPatternRule : ReturnFree (bindingPatternRule g) := by
  have withDefault : ReturnFree (patternWithDefault g) :=
    .seq ⟨calls _ rfl, .optional (returnFree_defaultValue calls)⟩
  have others : ReturnFree (restPattern g) := .seq ⟨.leaf rfl, calls _ rfl⟩
  have property : ReturnFree (propertyPattern g) :=
    .firstOf ⟨others, .seq ⟨returnFree_propertyName calls, .leaf rfl, withDefault⟩,
      .seq ⟨.leaf rfl, .optional (returnFree_defaultValue calls)⟩⟩
  have object : ReturnFree (objectPattern g) := .node rfl (.seq ⟨.leaf rfl, .listUntil property⟩)
  have array : ReturnFree (arrayPattern g) :=
    .node rfl (.seq ⟨.leaf rfl, .listUntil (.firstOf ⟨others, withDefault, returnFree_hole⟩)⟩)
  intro cursor nodes stop read
  unfold bindingPatternRule at read
  split at read
  · exact object read
  · exact array read
  · exact (.leaf rfl : ReturnFree identifier) read

/-! ## Markup -/

omit calls in
theorem returnFree_elementName : ReturnFree (elementName g) :=
  .seq ⟨.leaf rfl, .many (.seq ⟨.firstOf ⟨.leaf rfl, .leaf rfl⟩, .leaf rfl⟩)⟩

theorem returnFree_markupExpression : ReturnFree (markupExpression g) :=
  .node rfl (.seq ⟨.leaf rfl, .optional (.firstOf ⟨.seq ⟨.leaf rfl, calls _ rfl⟩, calls _ rfl⟩),
    .leaf rfl⟩)

theorem returnFree_elementAttribute : ReturnFree (elementAttribute g) := by
  have value : ReturnFree (attributeValue g) :=
    .firstOf ⟨.leaf rfl, returnFree_markupExpression calls, calls _ rfl⟩
  exact .firstOf ⟨returnFree_markupExpression calls,
    .node rfl (.seq ⟨.leaf rfl, .optional (.seq ⟨.leaf rfl, .leaf rfl⟩),
      .optional (.seq ⟨.leaf rfl, value⟩)⟩)⟩

theorem returnFree_markupChild : ReturnFree (markupChild g) := by
  intro cursor nodes stop read
  unfold markupChild at read
  split at read
  · exact returnFree_markupExpression calls read
  · cases read
  · exact calls .element rfl read
  · exact (.rawLeaf rfl : ReturnFree (rawLeaf .name _)) read
  · exact (.rawLeaf rfl : ReturnFree (rawLeaf .name _)) read

theorem returnFree_elementRule : ReturnFree (elementRule g) := by
  have closing : ReturnFree (closingTag g) :=
    .seq ⟨.rawLeaf rfl, .optional returnFree_elementName, .leaf rfl⟩
  exact .node rfl (.seq ⟨.leaf rfl,
    .optional (.seq ⟨returnFree_elementName, .optional (returnFree_typeArguments calls),
      .many (returnFree_elementAttribute calls)⟩),
    .firstOf ⟨.leaf rfl, .seq ⟨.leaf rfl, .many (returnFree_markupChild calls), closing⟩⟩⟩)

/-! ## Expressions -/

omit calls in
theorem returnFree_functionExpression : ReturnFree (functionExpression g) :=
  .closed fun nodes => by split <;> rfl

omit calls in
theorem returnFree_arrowFunction {allowIn typedArrow : Bool} :
    ReturnFree (arrowFunction g allowIn typedArrow) :=
  .closed fun _ => rfl

omit calls in
theorem returnFree_classExpression : ReturnFree (classExpression g) :=
  .closed fun _ => rfl

theorem returnFree_parenthesized : ReturnFree (parenthesized g) :=
  .node rfl (.seq ⟨.leaf rfl, calls _ rfl, .optional (returnFree_annotatedType calls), .leaf rfl⟩)

theorem returnFree_spreadOrValue : ReturnFree (spreadOrValue g) :=
  .seq ⟨.optional (.leaf rfl), calls _ rfl⟩

theorem returnFree_callArguments : ReturnFree (callArguments g) :=
  .node rfl (.seq ⟨.leaf rfl, .listUntil (returnFree_spreadOrValue calls)⟩)

theorem returnFree_arrayLiteral : ReturnFree (arrayLiteral g) :=
  .node rfl (.seq ⟨.leaf rfl,
    .listUntil (.firstOf ⟨returnFree_spreadOrValue calls, returnFree_hole⟩)⟩)

theorem returnFree_objectLiteral : ReturnFree (objectLiteral g) := by
  have method : ReturnFree (objectMethod g) := .closed fun _ => rfl
  have property : ReturnFree (objectProperty g) :=
    .firstOf ⟨.seq ⟨.leaf rfl, calls _ rfl⟩,
      .node rfl (.seq ⟨.role (returnFree_propertyName calls), .leaf rfl, .role (calls _ rfl)⟩),
      method, .seq ⟨.leaf rfl, .optional (returnFree_defaultValue calls)⟩⟩
  exact .node rfl (.seq ⟨.leaf rfl, .listUntil property⟩)

theorem returnFree_templateLiteral : ReturnFree (templateLiteral g) :=
  .node rfl (returnFree_templateBody (calls _ rfl))

theorem returnFree_angled {typedArrow : Bool} : ReturnFree (angled g typedArrow) := by
  refine .firstOf ⟨returnFree_arrowFunction, ?_⟩
  split
  · exact calls _ rfl
  · exact .node rfl (.seq ⟨returnFree_typeArguments calls, calls _ rfl⟩)

omit calls in
theorem returnFree_nameOrArrow {typedArrow : Bool} : ReturnFree (nameOrArrow g typedArrow) := by
  intro cursor nodes stop read
  unfold nameOrArrow at read
  split at read
  · cases read
  · next found =>
    split at read
    · exact returnFree_arrowFunction read
    · cases read
      exact (.leaf rfl : ReturnFree identifier) found

theorem returnFree_newExpression : ReturnFree (newExpression g) := by
  have name : ReturnFree anyName := .leaf rfl
  have plain : ReturnFree identifier := .leaf rfl
  refine .node rfl (.seq ⟨.leaf rfl, .firstOf ⟨.seq ⟨.leaf rfl, .leaf rfl⟩,
    .seq ⟨fun cursor nodes stop read => ?_,
      .many (.firstOf ⟨.seq ⟨.leaf rfl, .firstOf ⟨.leaf rfl, .leaf rfl⟩⟩,
        .seq ⟨.leaf rfl, calls _ rfl, .leaf rfl⟩⟩),
      .optional (.sameLine (returnFree_typeArguments calls)),
      .optional (returnFree_callArguments calls)⟩⟩⟩)
  dsimp only at read
  split at read
  · exact returnFree_parenthesized calls read
  · split at read
    · exact calls .leftHand rfl read
    · exact returnFree_classExpression read
    · exact returnFree_functionExpression read
    · exact name read
    · exact name read
    · exact name read
    · exact plain read

theorem returnFree_primary {typedArrow : Bool} : ReturnFree (primary g typedArrow) := by
  have leaf : ∀ {kind scan}, (kind == .returnStatement) = false → ReturnFree (leaf kind scan) :=
    fun other => .leaf other
  have arrow : ReturnFree (arrowFunction g true typedArrow) := returnFree_arrowFunction
  intro cursor nodes stop read
  unfold primary at read
  split at read
  · exact (.firstOf ⟨arrow, returnFree_parenthesized calls⟩ : ReturnFree (firstOf [_, _])) read
  · exact returnFree_arrayLiteral calls read
  · exact returnFree_objectLiteral calls read
  · exact returnFree_angled calls read
  · exact returnFree_templateLiteral calls read
  · exact leaf rfl read
  · exact leaf rfl read
  · exact returnFree_classExpression read
  · exact leaf rfl read
  · exact leaf rfl read
  · split at read
    · exact leaf rfl read
    · exact returnFree_functionExpression read
    · exact returnFree_classExpression read
    · exact returnFree_newExpression calls read
    iterate 6 · exact leaf rfl read
    · split at read
      · exact leaf rfl read
      · cases read
    · exact (.firstOf ⟨returnFree_functionExpression, arrow, returnFree_nameOrArrow⟩ :
        ReturnFree (firstOf [_, _, _])) read
    · exact returnFree_nameOrArrow read

end Grammar

/-! ## Operands that grow -/

section Operands

variable {g : Grammar} {operand nodes : Forest} {cursor stop : Cursor} {kind : Kind} {r : Role}
  {p : Parser}

theorem returnFree_of_grown (read : grown operand kind r p cursor = some (nodes, stop))
    (operands : ∀ node ∈ operand, node.isReturnFree = true)
    (other : (kind == .returnStatement) = false) (part : ReturnFree p) :
    ∀ node ∈ nodes, node.isReturnFree = true := by
  unfold grown at read
  split at read
  · cases read
  · next found =>
    cases read
    exact ReturnFree.grow other operands (part found)

variable (calls : CallsReturnFree g)

include calls

/-- An access or a call makes the operand grow. -/
theorem returnFree_of_access (operands : ∀ node ∈ operand, node.isReturnFree = true)
    (read : access g operand cursor = some (nodes, stop)) :
    ∀ node ∈ nodes, node.isReturnFree = true := by
  have property : ReturnFree (role .property (firstOf [anyName, leaf .name privateNameLength])) :=
    .role (.firstOf ⟨.leaf rfl, .leaf rfl⟩)
  have types := returnFree_typeArguments calls
  have arguments := returnFree_callArguments calls
  have element : ReturnFree (seq [mark "[", g.call (.expression true), mark "]"]) :=
    .seq ⟨.leaf rfl, calls _ rfl, .leaf rfl⟩
  unfold access at read
  dsimp only at read
  split at read
  · split at read
    · exact returnFree_of_grown read operands rfl (.seq ⟨.leaf rfl, arguments⟩)
    · exact returnFree_of_grown read operands
        rfl (.seq ⟨.leaf rfl, .leaf rfl, calls _ rfl, .leaf rfl⟩)
    · exact returnFree_of_grown read operands rfl (.seq ⟨.leaf rfl, types, arguments⟩)
    · split at read
      · cases read
      · exact returnFree_of_grown read operands rfl (.seq ⟨.leaf rfl, property⟩)
  · split at read
    · cases read
    · exact returnFree_of_grown read operands rfl (.seq ⟨.leaf rfl, property⟩)
  · exact returnFree_of_grown read operands rfl element
  · exact returnFree_of_grown read operands rfl arguments
  · exact returnFree_of_grown read operands rfl (returnFree_templateLiteral calls)
  iterate 3
    · split at read
      · cases read
      · exact returnFree_of_grown read operands rfl (.leaf rfl)
  · split at read
    · cases read
    · split at read
      · exact returnFree_of_grown read operands rfl (.seq ⟨types, arguments⟩)
      · split at read
        · exact returnFree_of_grown read operands
            rfl (.seq ⟨types, returnFree_templateLiteral calls⟩)
        · split at read
          · exact returnFree_of_grown read operands rfl types
          · cases read
  · cases read

theorem returnFree_of_accesses {rounds : Nat}
    (operands : ∀ node ∈ operand, node.isReturnFree = true)
    (read : accesses g rounds operand cursor = some (nodes, stop)) :
    ∀ node ∈ nodes, node.isReturnFree = true := by
  induction rounds generalizing operand cursor with
  | zero =>
    cases read
    exact operands
  | succ rounds ih =>
    unfold accesses at read
    split at read
    · cases read
      exact operands
    · next grown => exact ih (returnFree_of_access calls operands grown) read

theorem returnFree_leftHandOf {typedArrow : Bool} : ReturnFree (leftHandOf g typedArrow) := by
  intro cursor nodes stop read
  unfold leftHandOf at read
  split at read
  · cases read
  · next operand =>
    have operands := returnFree_primary calls operand
    split at read
    · cases read
      exact operands
    · exact returnFree_of_accesses calls operands read

theorem returnFree_operandRule {typedArrow : Bool} : ReturnFree (operandRule g typedArrow) := by
  intro cursor nodes stop read
  -- an operator in front of an operand
  have unary : ∀ scan, ReturnFree
      (node .expression (seq [leaf .token scan, g.call (.operand typedArrow)])) :=
    fun _ => .node rfl (.seq ⟨.leaf rfl, calls _ rfl⟩)
  unfold operandRule at read
  dsimp only at read
  split at read
  iterate 6 · exact unary _ read
  · split at read
    iterate 3 · exact unary _ read
    · exact (.firstOf ⟨unary _, returnFree_leftHandOf calls⟩ : ReturnFree (firstOf [_, _])) read
    · exact returnFree_leftHandOf calls read

/-- Each operator makes the operand before it grow. -/
theorem returnFree_of_operatorsAfter {strength rounds : Nat} {allowIn typedArrow : Bool}
    (operands : ∀ node ∈ operand, node.isReturnFree = true)
    (read : operatorsAfter g strength allowIn typedArrow rounds operand cursor
      = some (nodes, stop)) :
    ∀ node ∈ nodes, node.isReturnFree = true := by
  have asserted : ReturnFree (assertedType g) := .firstOf ⟨.leaf rfl, calls _ rfl⟩
  induction rounds generalizing operand cursor with
  | zero =>
    cases read
    exact operands
  | succ rounds ih =>
    unfold operatorsAfter at read
    split at read
    · cases read
      exact operands
    · split at read
      · cases read
        exact operands
      · dsimp only at read
        split at read
        · cases read
        · next found =>
          refine ih (ReturnFree.grow ?_ operands fun node member => ?_) read
          · split
            · rfl
            · split <;> rfl
          · refine (.seq ⟨.role (.leaf rfl), ?_⟩ : ReturnFree (seq [_, _])) found node member
            split
            · exact asserted
            · split
              · exact asserted
              · exact .role (calls _ rfl)

theorem returnFree_operatorsRule {strength : Nat} {allowIn typedArrow : Bool} :
    ReturnFree (operatorsRule g strength allowIn typedArrow) := by
  intro cursor nodes stop read
  unfold operatorsRule at read
  split at read
  · cases read
  · next operand =>
    have operands := calls (.operand typedArrow) rfl operand
    split at read
    · cases read
      exact operands
    · exact returnFree_of_operatorsAfter calls operands read

theorem returnFree_ternaryBranches {allowIn typedArrow : Bool} :
    ReturnFree (ternaryBranches g allowIn typedArrow) := by
  intro cursor nodes stop read
  have first : ReturnFree
      (seq [mark "?", role .consequence (g.call (.assignment true true))]) :=
    .seq ⟨.leaf rfl, .role (calls _ rfl)⟩
  have second : ReturnFree
      (seq [mark ":", role .alternative (g.call (.assignment allowIn typedArrow))]) :=
    .seq ⟨.leaf rfl, .role (calls _ rfl)⟩
  unfold ternaryBranches at read
  dsimp only at read
  split at read
  · cases read
  · next found =>
    split at read
    · split at read
      · cases read
      · next others =>
        cases read
        intro node member
        rcases List.mem_append.mp member with here | later
        · exact first found node here
        · exact second others node later
    · exact (.seq ⟨.leaf rfl, .role (calls _ rfl), second⟩ : ReturnFree (seq [_, _, _])) read

theorem returnFree_assignmentRule {allowIn typedArrow : Bool} :
    ReturnFree (assignmentRule g allowIn typedArrow) := by
  intro cursor nodes stop read
  have yielded : ReturnFree (yieldExpression g allowIn) :=
    .node rfl (.seq ⟨.leaf rfl, .firstOf ⟨.seq ⟨.sameLine (.leaf rfl), calls _ rfl⟩,
      .optional (.sameLine (calls _ rfl))⟩⟩)
  have assigned : ReturnFree (seq [leaf .token assignmentLength,
      role .right (g.call (.assignment allowIn typedArrow))]) :=
    .seq ⟨.leaf rfl, .role (calls _ rfl)⟩
  unfold assignmentRule at read
  split at read
  · exact yielded read
  · split at read
    · cases read
    · next operand =>
      have operands := calls (.operators 1 allowIn typedArrow) rfl operand
      split at read
      · cases read
        exact operands
      · split at read
        · split at read
          · cases read
          · next more =>
            cases read
            exact ReturnFree.grow rfl operands (returnFree_ternaryBranches calls more)
        · split at read
          · split at read
            · cases read
            · next more =>
              cases read
              exact ReturnFree.grow rfl operands (assigned more)
          · cases read
            exact operands

theorem returnFree_expressionRule {allowIn : Bool} : ReturnFree (expressionRule g allowIn) := by
  intro cursor nodes stop read
  have others : ReturnFree (many g.rounds (seq [mark ",", g.call (.assignment allowIn true)])) :=
    .many (.seq ⟨.leaf rfl, calls _ rfl⟩)
  unfold expressionRule at read
  split at read
  · cases read
  · next first =>
    have operands := calls (.assignment allowIn true) rfl first
    split at read
    · cases read
    · cases read
      exact operands
    · next more =>
      cases read
      exact ReturnFree.grow rfl operands (others more)

end Operands

/-! ## All rules -/

/-- Expressions, types and patterns hold no return statements, however deep rules may call each
other. By induction on the depth; functions and classes among them may hold what they like. -/
theorem returnFree_parseWithin (markup : Bool) (calls : Nat) (rule : Rule)
    (inline : isInline rule = true) : ReturnFree (parseWithin markup calls rule) := by
  induction calls generalizing rule with
  | zero => exact .fail
  | succ calls ih =>
    have inner : CallsReturnFree ⟨markup, calls + 1, parseWithin markup calls⟩ := ih
    cases rule with
    | expression allowIn => exact returnFree_expressionRule inner
    | assignment allowIn typedArrow => exact returnFree_assignmentRule inner
    | operators strength allowIn typedArrow => exact returnFree_operatorsRule inner
    | operand typedArrow => exact returnFree_operandRule inner
    | leftHand => exact returnFree_leftHandOf inner
    | type => exact returnFree_typeRule inner
    | bindingPattern => exact returnFree_bindingPatternRule inner
    | element => exact returnFree_elementRule inner
    | _ => cases inline

/-- What the rules of expressions read are expressions, with comments before them. -/
theorem isExpression_of_read {markup : Bool} {calls : Nat} {rule : Rule} {cursor stop : Cursor}
    {nodes : Forest} {node : Node} (single : rule.isSingle = true)
    (read : parseWithin markup calls rule cursor = some (nodes, stop)) (member : node ∈ nodes) :
    node.isTrivia = true ∨ IsExpression node := by
  have inline : isInline rule = true := by
    cases rule <;> first | rfl | cases single
  have free := returnFree_parseWithin markup calls rule inline read node member
  obtain ⟨comments, last, rfl, trivia, solid, -⟩ := single_parseWithin markup calls rule single read
  rcases List.mem_append.mp member with comment | here
  · exact .inl (trivia node comment)
  · obtain rfl := List.mem_singleton.mp here
    exact .inr ⟨solid, free⟩

end RenderProbe.Syntax
