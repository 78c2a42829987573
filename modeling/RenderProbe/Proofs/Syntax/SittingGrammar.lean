import RenderProbe.Proofs.Syntax.Sitting

/-!
# Types, patterns, functions, markup and expressions sit in their source

One lemma for each rule of the grammar: if the rules it calls read nodes that sit in the source, so
does the rule. A proof follows the parts of its rule.

* `Grammar.CallsSit`: what is assumed of the rules that a rule calls.
* `reads_templateBody`, `reads_elementRule`: text without trivia before it starts behind a leaf,
  hence at a cut.
* `answers_access`, `answers_operatorsAfter`: what follows an operand makes it grow.
-/

namespace RenderProbe.Syntax

open Text (StyledText)

/-- The rules that a rule calls read nodes that sit in the source. -/
def Grammar.CallsSit (source : StyledText) (g : Grammar) : Prop :=
  ∀ floor rule, Reads source floor (g.call rule)

theorem contains_wordAhead (cursor : Cursor) : (wordAhead cursor).toList.contains '\r' = false := by
  rw [wordAhead, String.toList_ofList]
  simpa using notMem_wordLength (ahead cursor)

section Grammar

variable {source : StyledText} {floor : Nat} {g : Grammar}

theorem Reads.onlyIf {test : Cursor → Prop} [DecidablePred test] {p : Parser}
    (part : Reads source floor p) :
    Reads source floor fun cursor => if test cursor then p cursor else none := by
  intro cursor stands
  dsimp only
  split
  · exact part cursor stands
  · exact .fail

theorem reads_modifierWord {words : List String} : Reads source floor (modifierWord words) := by
  intro cursor stands
  unfold modifierWord
  dsimp only
  split
  · exact Reads.word (contains_wordAhead cursor) cursor stands
  · exact .fail

theorem reads_memberEnd : Reads source floor memberEnd := by
  refine .firstOf ⟨.mark rfl, .mark rfl, fun cursor stands => ?_⟩
  dsimp only
  split
  · exact .found (.nil stands)
  · exact .fail

/-- The text of a template starts behind its quote. -/
theorem reads_templateBody {rounds : Nat} {part : Parser} (reads : Reads source 0 part) :
    Reads source floor (templateBody rounds part) :=
  .behind (crisp_markLength rfl) (.seq ⟨.many (.firstOf ⟨.rawLeaf crisp_templateChunk,
          .seq ⟨.rawLeaf (crisp_markLength rfl), reads, .mark rfl⟩⟩),
      .rawLeaf (crisp_markLength rfl)⟩)

theorem reads_hole : Reads source floor hole := by
  intro cursor stands
  unfold hole
  split
  · exact .found (.nil stands)
  · exact .fail

theorem reads_functionHead : Reads source floor functionHead :=
  .seq ⟨.optional (.word rfl), .sameLine (.word rfl), .optional (.mark rfl)⟩

theorem reads_classMemberEnd {nodes : Forest} : Reads source floor (classMemberEnd nodes) := by
  intro cursor stands
  unfold classMemberEnd
  dsimp only
  split
  · exact Reads.answers (.optional (.mark rfl)) stands
  · exact Reads.answers (.firstOf ⟨.mark rfl, .semicolon⟩) stands

theorem reads_className : Reads source floor className := by
  intro cursor stands
  unfold className
  split
  · exact .fail
  · exact Reads.answers (.role (.leaf crisp_nameLength)) stands

theorem reads_elementName : Reads source floor (elementName g) :=
  .seq ⟨.leaf crisp_markupNameLength,
    .many (.seq ⟨.firstOf ⟨.mark rfl, .mark rfl⟩, .leaf crisp_markupNameLength⟩)⟩

theorem reads_closingTag : Reads source 0 (closingTag g) :=
  .seq ⟨.rawLeaf (crisp_markLength rfl), .optional reads_elementName, .mark rfl⟩

theorem mem_of_operatorAhead {allowIn : Bool} {cursor : Cursor} {operator : BinaryOperator}
    (ahead : operatorAhead allowIn cursor = some operator) : operator ∈ binaryOperators := by
  unfold operatorAhead at ahead
  dsimp only at ahead
  split at ahead
  · cases ahead
  · next found =>
    split at ahead
    · cases ahead
    · split at ahead
      · cases ahead
      · cases ahead
        exact List.mem_of_find?_eq_some found

variable (calls : g.CallsSit source)

include calls

/-! ## Types -/

theorem reads_annotatedType : Reads source floor (annotatedType g) :=
  .node (.seq ⟨.mark rfl, calls _ _⟩)

theorem reads_typeArguments : Reads source floor (typeArguments g) :=
  .node (.seq ⟨.mark rfl, .listUntil (calls _ _) rfl⟩)

theorem reads_typeParameter : Reads source floor (typeParameter g) :=
  .node (.seq ⟨.many (.firstOf ⟨.onlyIf (.word rfl), .onlyIf (.word rfl), .onlyIf (.word rfl)⟩),
      .leaf crisp_nameLength, .optional (.seq ⟨.word rfl, calls _ _⟩),
      .optional (.seq ⟨.markBut rfl, calls _ _⟩)⟩)

theorem reads_typeParameters : Reads source floor (typeParameters g) := by
  have listed : Reads source floor (seq [mark "<", listUntil g.rounds (typeParameter g) ">"]) :=
    .seq ⟨.mark rfl, .listUntil (reads_typeParameter calls) rfl⟩
  unfold typeParameters typeNode
  refine .node fun cursor stands => ?_
  split
  · exact .fail
  · exact listed cursor stands

theorem reads_decorator : Reads source floor (decorator g) :=
  .node (.seq ⟨.mark rfl, calls _ _⟩)

theorem reads_defaultValue : Reads source floor (defaultValue g) :=
  .seq ⟨.markBut rfl, calls _ _⟩

theorem reads_parameter : Reads source floor (parameter g) :=
  .node (.seq ⟨.many (reads_decorator calls), .many reads_modifierWord, .optional (.mark rfl),
      .firstOf ⟨calls _ _, .word rfl⟩, .optional (.mark rfl), .optional (reads_annotatedType calls),
      .optional (reads_defaultValue calls)⟩)

theorem reads_parameters : Reads source floor (parameters g) :=
  .node (.seq ⟨.mark rfl, .listUntil (reads_parameter calls) rfl⟩)

omit calls in
theorem reads_resultSubject : Reads source floor resultSubject :=
  .firstOf ⟨.leaf crisp_nameLength, .word rfl⟩

theorem reads_resultClaim : Reads source floor (resultClaim g) :=
  .seq ⟨reads_resultSubject, .sameLine (.word rfl), calls _ _⟩

theorem reads_result : Reads source floor (result g) :=
  .firstOf ⟨reads_resultClaim calls, .seq ⟨.word rfl, reads_resultClaim calls⟩,
    .seq ⟨.word rfl, .sameLine reads_resultSubject⟩, calls _ _⟩

theorem reads_resultType : Reads source floor (resultType g) :=
  .node (.seq ⟨.mark rfl, reads_result calls⟩)

theorem reads_callSignature : Reads source floor (callSignature g) :=
  .seq ⟨.optional (reads_typeParameters calls), reads_parameters calls,
    .optional (reads_resultType calls)⟩

theorem reads_propertyName : Reads source floor (propertyName g) :=
  .firstOf ⟨.anyName, .stringLiteral, .leaf crisp_numberLength, .leaf crisp_privateNameLength,
    .node (.seq ⟨.mark rfl, calls _ _, .mark rfl⟩)⟩

theorem reads_mappedMember : Reads source floor (mappedMember g) :=
  .node (.seq ⟨.optional (.seq ⟨.optional (.firstOf ⟨.mark rfl, .mark rfl⟩), .word rfl⟩), .mark rfl,
      .leaf crisp_nameLength, .word rfl, calls _ _, .optional (.seq ⟨.word rfl, calls _ _⟩),
      .mark rfl, .optional (.seq ⟨.optional (.firstOf ⟨.mark rfl, .mark rfl⟩), .mark rfl⟩),
      .optional (reads_annotatedType calls)⟩)

theorem reads_indexSignature : Reads source floor (indexSignature g) :=
  .node (.seq ⟨.many reads_modifierWord, .mark rfl, .leaf crisp_nameLength, .mark rfl, calls _ _,
      .mark rfl, reads_annotatedType calls⟩)

theorem reads_propertySignature : Reads source floor (propertySignature g) :=
  .node (.seq ⟨.many reads_modifierWord, reads_propertyName calls, .optional (.mark rfl),
      .firstOf ⟨reads_callSignature calls, .optional (reads_annotatedType calls)⟩⟩)

theorem reads_typeMember : Reads source floor (typeMember g) :=
  .firstOf ⟨.whenAhead (.firstOf ⟨reads_mappedMember calls, reads_indexSignature calls⟩),
    .whenAhead (.node (reads_callSignature calls)),
    .node (.seq ⟨.word rfl, reads_callSignature calls⟩), reads_propertySignature calls⟩

theorem reads_objectType : Reads source floor (objectType g) :=
  .node (.seq ⟨.mark rfl, .many (.seq ⟨reads_typeMember calls, reads_memberEnd⟩), .mark rfl⟩)

theorem reads_tupleElement : Reads source floor (tupleElement g) :=
  .firstOf ⟨.seq ⟨.optional (.mark rfl), .anyName, .optional (.mark rfl),
      reads_annotatedType calls⟩, .seq ⟨.optional (.mark rfl), calls _ _, .optional (.mark rfl)⟩⟩

theorem reads_typeReference : Reads source floor (typeReference g) :=
  .seq ⟨.anyName, .many (.seq ⟨.markBut rfl, .anyName⟩),
    .optional (.sameLine (reads_typeArguments calls))⟩

theorem reads_typeQuery : Reads source floor (typeQuery g) :=
  .seq ⟨.word rfl, .firstOf ⟨.seq ⟨.word rfl, .mark rfl, .stringLiteral, .mark rfl⟩, .anyName⟩,
    .many (.firstOf (.seq ⟨.markBut rfl, .firstOf ⟨.anyName, .leaf crisp_privateNameLength⟩⟩)),
    .optional (.sameLine (reads_typeArguments calls))⟩

theorem reads_importType : Reads source floor (importType g) :=
  .seq ⟨.word rfl, .mark rfl, calls _ _, .mark rfl, .many (.seq ⟨.mark rfl, .anyName⟩),
    .optional (reads_typeArguments calls)⟩

theorem reads_functionType : Reads source floor (functionType g) :=
  .seq ⟨.optional (reads_typeParameters calls), reads_parameters calls,
    .mark rfl, reads_result calls⟩

theorem reads_primaryType : Reads source floor (primaryType g) := by
  intro cursor stands
  unfold primaryType
  split
  · exact Reads.answers (.seq ⟨.mark rfl, calls _ _, .mark rfl⟩) stands
  · exact reads_objectType calls cursor stands
  · exact Reads.answers (.seq ⟨.mark rfl, .listUntil (reads_tupleElement calls) rfl⟩) stands
  · exact reads_templateBody (calls _ _) cursor stands
  · exact Reads.answers (.seq ⟨.mark rfl, .leaf crisp_numberLength⟩) stands
  · split
    · exact reads_typeQuery calls cursor stands
    · exact reads_importType calls cursor stands
    · exact Reads.answers (.firstOf ⟨.stringLiteral, .leaf crisp_numberLength⟩) stands
    all_goals first | exact .fail | exact reads_typeReference calls cursor stands

theorem reads_indexedType : Reads source floor (indexedType g) :=
  .seq ⟨reads_primaryType calls,
    .many (.sameLine (.firstOf ⟨.seq ⟨.mark rfl, .mark rfl⟩,
          .seq ⟨.mark rfl, calls _ _, .mark rfl⟩⟩))⟩

theorem reads_prefixedType {rounds : Nat} : Reads source floor (prefixedType g rounds) := by
  induction rounds with
  | zero => exact .fail
  | succ rounds ih =>
    intro cursor stands
    have marked : Reads source floor
        (firstOf [seq [word (wordAhead cursor), prefixedType g rounds], indexedType g]) :=
      .firstOf ⟨.seq ⟨.word (contains_wordAhead cursor), ih⟩, reads_indexedType calls⟩
    have inferred : Reads source floor (firstOf [seq [word "infer", leaf .name nameLength,
        optional (seq [word "extends", prefixedType g rounds])], indexedType g]) :=
      .firstOf ⟨.seq ⟨.word rfl, .leaf crisp_nameLength, .optional (.seq ⟨.word rfl, ih⟩)⟩,
        reads_indexedType calls⟩
    unfold prefixedType
    split
    · exact marked cursor stands
    · exact marked cursor stands
    · exact marked cursor stands
    · exact inferred cursor stands
    · exact reads_indexedType calls cursor stands

theorem reads_intersectionType : Reads source floor (intersectionType g) :=
  .seq ⟨.optional (.markBut rfl), .separated (reads_prefixedType calls) (.markBut rfl)⟩

theorem reads_unionType : Reads source floor (unionType g) :=
  .seq ⟨.optional (.markBut rfl), .separated (reads_intersectionType calls) (.markBut rfl)⟩

theorem reads_unionOrFunction : Reads source floor (typeRule.unionOrFunction g) :=
  .firstOf ⟨.whenAhead (.seq ⟨.optional (.word rfl), .optional (.word rfl),
        reads_functionType calls⟩), reads_unionType calls⟩

theorem reads_typeRule : Reads source floor (typeRule g) :=
  .node (.firstOf ⟨.whenAhead (.seq ⟨.optional (.word rfl), .optional (.word rfl),
          reads_functionType calls⟩),
      .seq ⟨reads_unionType calls,
        .optional (.seq ⟨.word rfl, reads_unionOrFunction calls, .mark rfl, calls _ _, .mark rfl,
            calls _ _⟩)⟩⟩)

/-! ## Patterns -/

theorem reads_patternWithDefault : Reads source floor (patternWithDefault g) :=
  .seq ⟨calls _ _, .optional (reads_defaultValue calls)⟩

theorem reads_restPattern : Reads source floor (restPattern g) :=
  .seq ⟨.mark rfl, calls _ _⟩

theorem reads_propertyPattern : Reads source floor (propertyPattern g) :=
  .firstOf ⟨reads_restPattern calls,
    .seq ⟨reads_propertyName calls, .mark rfl, reads_patternWithDefault calls⟩,
    .seq ⟨.identifier, .optional (reads_defaultValue calls)⟩⟩

theorem reads_objectPattern : Reads source floor (objectPattern g) :=
  .node (.seq ⟨.mark rfl, .listUntil (reads_propertyPattern calls) rfl⟩)

theorem reads_arrayPattern : Reads source floor (arrayPattern g) :=
  .node (.seq ⟨.mark rfl,
      .listUntil (.firstOf ⟨reads_restPattern calls, reads_patternWithDefault calls,
          reads_hole⟩) rfl⟩)

theorem reads_bindingPatternRule : Reads source floor (bindingPatternRule g) := by
  intro cursor stands
  unfold bindingPatternRule
  split
  · exact reads_objectPattern calls cursor stands
  · exact reads_arrayPattern calls cursor stands
  · exact Reads.identifier cursor stands

/-! ## Functions and classes -/

theorem reads_functionBody : Reads source floor (functionBody g) :=
  .role (calls _ _)

theorem reads_functionDeclaration : Reads source floor (functionDeclaration g) :=
  .nodeBy (.seq ⟨.optional (.word rfl), .word rfl, .optional (.mark rfl), .role .identifier,
      reads_callSignature calls,
      .firstOf ⟨.seq ⟨reads_functionBody calls, .trailingComments⟩, .semicolon⟩⟩)

theorem reads_functionExpression : Reads source floor (functionExpression g) :=
  .nodeBy (.seq ⟨reads_functionHead, .optional (.role .identifier), reads_callSignature calls,
      reads_functionBody calls⟩)

theorem reads_arrowBody {allowIn typedArrow : Bool} :
    Reads source floor (arrowBody g allowIn typedArrow) := by
  refine .role fun cursor stands => ?_
  split
  · exact calls _ _ cursor stands
  · exact calls _ _ cursor stands

theorem reads_arrowFunction {allowIn typedArrow : Bool} :
    Reads source floor (arrowFunction g allowIn typedArrow) := by
  have signature : Reads source floor (seq [optional (typeParameters g), parameters g,
      if typedArrow then optional (resultType g) else nothing]) := by
    refine .seq ⟨.optional (reads_typeParameters calls), reads_parameters calls, ?_⟩
    split
    · exact .optional (reads_resultType calls)
    · exact .nothing
  exact .node (.seq
    ⟨.firstOf ⟨.seq ⟨.word rfl, .sameLine (.firstOf ⟨signature, .identifier⟩), .mark rfl⟩,
        .seq ⟨.firstOf ⟨signature, .identifier⟩, .mark rfl⟩⟩, reads_arrowBody calls⟩)

theorem reads_extendsClause : Reads source floor (extendsClause g) :=
  .node (.seq ⟨.word rfl,
      .separated (.seq ⟨.role (calls _ _), .optional (reads_typeArguments calls)⟩) (.mark rfl)⟩)

theorem reads_implementsClause : Reads source floor (implementsClause g) :=
  .node (.seq ⟨.word rfl, .separated (calls _ _) (.mark rfl)⟩)

theorem reads_classHeritage : Reads source floor (classHeritage g) :=
  .node (.firstOf ⟨.seq ⟨reads_extendsClause calls, .optional (reads_implementsClause calls)⟩,
      reads_implementsClause calls⟩)

theorem reads_namedMember : Reads source floor (namedMember g) :=
  .nodeBy (.seq ⟨.many (reads_decorator calls), .many reads_modifierWord, .optional (.mark rfl),
      .role (reads_propertyName calls), .optional (.firstOf ⟨.mark rfl, .markBut rfl⟩),
      .firstOf ⟨.seq ⟨reads_callSignature calls, .optional (reads_functionBody calls)⟩,
        .seq ⟨.optional (reads_annotatedType calls),
          .optional (.seq ⟨.markBut rfl, .role (calls _ _)⟩)⟩⟩⟩)

theorem reads_staticBlock : Reads source floor (staticBlock g) :=
  .node (.seq ⟨.word rfl, .role (calls _ _)⟩)

theorem reads_classMember : Reads source floor (classMember g) := by
  have member : Reads source floor
      (firstOf [mark ";", staticBlock g, indexSignature g, namedMember g]) :=
    .firstOf ⟨.mark rfl, reads_staticBlock calls, reads_indexSignature calls,
      reads_namedMember calls⟩
  intro cursor stands
  unfold classMember
  split
  · exact .fail
  · next found =>
    have yields := member cursor stands _ _ found
    split
    · exact .found yields
    · split
      · exact .fail
      · next ends => exact .found (yields.append (reads_classMemberEnd _ yields.stands _ _ ends))

theorem reads_classBody : Reads source floor (classBody g) :=
  .node (.seq ⟨.mark rfl, .many (reads_classMember calls), .mark rfl⟩)

theorem reads_classTail {nameRule : Parser} (named : Reads source floor nameRule) :
    Reads source floor (classTail g nameRule) :=
  .seq ⟨.word rfl, named, .optional (reads_typeParameters calls),
    .optional (reads_classHeritage calls), .role (reads_classBody calls)⟩

theorem reads_classDeclaration : Reads source floor (classDeclaration g) :=
  .nodeBy (.seq ⟨.many (reads_decorator calls), .optional (.word rfl),
      reads_classTail calls reads_className, .trailingComments⟩)

theorem reads_classExpression : Reads source floor (classExpression g) :=
  .node (.seq ⟨.many (reads_decorator calls), reads_classTail calls (.optional reads_className)⟩)

/-! ## Markup -/

theorem reads_markupExpression : Reads source floor (markupExpression g) :=
  .node (.seq ⟨.mark rfl, .optional (.firstOf ⟨.seq ⟨.mark rfl, calls _ _⟩, calls _ _⟩), .mark rfl⟩)

theorem reads_attributeValue : Reads source floor (attributeValue g) :=
  .firstOf ⟨.leaf crisp_attributeStringLength, reads_markupExpression calls, calls _ _⟩

theorem reads_elementAttribute : Reads source floor (elementAttribute g) :=
  .firstOf ⟨reads_markupExpression calls,
    .node (.seq ⟨.leaf crisp_markupNameLength,
        .optional (.seq ⟨.mark rfl, .leaf crisp_markupNameLength⟩),
        .optional (.seq ⟨.mark rfl, reads_attributeValue calls⟩)⟩)⟩

theorem reads_markupChild : Reads source 0 (markupChild g) := by
  intro cursor stands
  unfold markupChild
  split
  · exact reads_markupExpression calls cursor stands
  · exact .fail
  · exact calls _ _ cursor stands
  · exact Reads.rawLeaf crisp_referenceLength cursor stands
  · exact Reads.rawLeaf crisp_markupTextLength cursor stands

theorem reads_elementRule : Reads source floor (elementRule g) :=
  .node (.seq ⟨.mark rfl,
      .optional (.seq ⟨reads_elementName, .optional (reads_typeArguments calls),
          .many (reads_elementAttribute calls)⟩),
      .firstOf ⟨.mark rfl,
        .behind (crisp_markLength rfl) (.seq ⟨.many (reads_markupChild calls), reads_closingTag⟩)⟩⟩)

/-! ## Expressions -/

theorem reads_parenthesized : Reads source floor (parenthesized g) :=
  .node (.seq ⟨.mark rfl, calls _ _, .optional (reads_annotatedType calls), .mark rfl⟩)

theorem reads_spreadOrValue : Reads source floor (spreadOrValue g) :=
  .seq ⟨.optional (.mark rfl), calls _ _⟩

theorem reads_callArguments : Reads source floor (callArguments g) :=
  .node (.seq ⟨.mark rfl, .listUntil (reads_spreadOrValue calls) rfl⟩)

theorem reads_arrayLiteral : Reads source floor (arrayLiteral g) :=
  .node (.seq ⟨.mark rfl, .listUntil (.firstOf ⟨reads_spreadOrValue calls, reads_hole⟩) rfl⟩)

theorem reads_objectMethod : Reads source floor (objectMethod g) :=
  .node (.seq ⟨.many reads_modifierWord, .optional (.mark rfl), .role (reads_propertyName calls),
      reads_callSignature calls, reads_functionBody calls⟩)

theorem reads_objectProperty : Reads source floor (objectProperty g) :=
  .firstOf ⟨.seq ⟨.mark rfl, calls _ _⟩,
    .node (.seq ⟨.role (reads_propertyName calls), .mark rfl, .role (calls _ _)⟩),
    reads_objectMethod calls, .seq ⟨.identifier, .optional (reads_defaultValue calls)⟩⟩

theorem reads_objectLiteral : Reads source floor (objectLiteral g) :=
  .node (.seq ⟨.mark rfl, .listUntil (reads_objectProperty calls) rfl⟩)

theorem reads_templateLiteral : Reads source floor (templateLiteral g) :=
  .node (reads_templateBody (calls _ _))

theorem reads_prefixCast : Reads source floor (prefixCast g) :=
  .node (.seq ⟨reads_typeArguments calls, calls _ _⟩)

theorem reads_angled {typedArrow : Bool} : Reads source floor (angled g typedArrow) := by
  refine .firstOf ⟨reads_arrowFunction calls, ?_⟩
  split
  · exact calls _ _
  · exact reads_prefixCast calls

theorem reads_nameOrArrow {typedArrow : Bool} : Reads source floor (nameOrArrow g typedArrow) := by
  intro cursor stands
  unfold nameOrArrow
  split
  · exact .fail
  · next found =>
    split
    · exact reads_arrowFunction calls cursor stands
    · exact fun _ _ read => Reads.identifier cursor stands _ _ (found.trans read)

theorem reads_newExpression : Reads source floor (newExpression g) := by
  refine .node
    (.seq ⟨.word rfl, .firstOf ⟨.seq ⟨.mark rfl, .word rfl⟩, .seq ⟨fun cursor stands => ?_,
      .many (.firstOf ⟨.seq ⟨.markBut rfl, .firstOf ⟨.anyName, .leaf crisp_privateNameLength⟩⟩,
      .seq ⟨.mark rfl, calls _ _, .mark rfl⟩⟩),
    .optional (.sameLine (reads_typeArguments calls)), .optional (reads_callArguments calls)⟩⟩⟩)
  dsimp only
  split
  · exact reads_parenthesized calls cursor stands
  · split
    · exact calls _ _ cursor stands
    · exact reads_classExpression calls cursor stands
    · exact reads_functionExpression calls cursor stands
    all_goals first | exact Reads.anyName cursor stands | exact Reads.identifier cursor stands

theorem reads_primary {typedArrow : Bool} : Reads source floor (primary g typedArrow) := by
  intro cursor stands
  have name : Reads source floor (leaf .expression wordLength) := .leaf crisp_wordLength
  unfold primary
  split
  · exact Reads.answers (.firstOf ⟨reads_arrowFunction calls, reads_parenthesized calls⟩) stands
  · exact reads_arrayLiteral calls cursor stands
  · exact reads_objectLiteral calls cursor stands
  · exact reads_angled calls cursor stands
  · exact reads_templateLiteral calls cursor stands
  · exact Reads.answers (.leaf crisp_patternLength) stands
  · exact Reads.answers (.leaf crisp_privateNameLength) stands
  · exact reads_classExpression calls cursor stands
  · exact Reads.stringLiteral cursor stands
  · exact Reads.stringLiteral cursor stands
  · split
    · exact Reads.answers (.leaf crisp_numberLength) stands
    · exact reads_functionExpression calls cursor stands
    · exact reads_classExpression calls cursor stands
    · exact reads_newExpression calls cursor stands
    iterate 6 · exact name cursor stands
    · split
      · exact name cursor stands
      · exact .fail
    · exact Reads.answers (.firstOf ⟨reads_functionExpression calls, reads_arrowFunction calls,
        reads_nameOrArrow calls⟩) stands
    · exact reads_nameOrArrow calls cursor stands

/-- An access or a call makes the operand grow. -/
theorem answers_access {operand : Forest} {start cursor : Cursor}
    (operands : Yields source floor start operand cursor) :
    Answers source floor start (access g operand cursor) := by
  have property : Reads source floor
      (role .property (firstOf [anyName, leaf .name privateNameLength])) :=
    .role (.firstOf ⟨.anyName, .leaf crisp_privateNameLength⟩)
  unfold access
  dsimp only
  split
  · split
    · exact operands.grown (.seq ⟨.mark rfl, reads_callArguments calls⟩)
    · exact operands.grown (.seq ⟨.mark rfl, .mark rfl, calls _ _, .mark rfl⟩)
    · exact operands.grown (.seq ⟨.mark rfl, reads_typeArguments calls, reads_callArguments calls⟩)
    · split
      · exact .fail
      · exact operands.grown (.seq ⟨.mark rfl, property⟩)
  · split
    · exact .fail
    · exact operands.grown (.seq ⟨.mark rfl, property⟩)
  · exact operands.grown (.seq ⟨.mark rfl, calls _ _, .mark rfl⟩)
  · exact operands.grown (reads_callArguments calls)
  · exact operands.grown (reads_templateLiteral calls)
  iterate 3
    · split
      · exact .fail
      · exact operands.grown (.mark rfl)
  · split
    · exact .fail
    · split
      · exact operands.grown (.seq ⟨reads_typeArguments calls, reads_callArguments calls⟩)
      · split
        · exact operands.grown (.seq ⟨reads_typeArguments calls, reads_templateLiteral calls⟩)
        · split
          · exact operands.grown (reads_typeArguments calls)
          · exact .fail
  · exact .fail

theorem answers_accesses {operand : Forest} {start cursor : Cursor} {rounds : Nat}
    (operands : Yields source floor start operand cursor) :
    Answers source floor start (accesses g rounds operand cursor) := by
  induction rounds generalizing operand cursor with
  | zero => exact .found operands
  | succ rounds ih =>
    unfold accesses
    split
    · exact .found operands
    · next grown => exact ih (answers_access calls operands _ _ grown)

theorem reads_leftHandOf {typedArrow : Bool} : Reads source floor (leftHandOf g typedArrow) := by
  intro cursor stands
  unfold leftHandOf
  split
  · exact .fail
  · next operand =>
    have operands := reads_primary calls cursor stands _ _ operand
    split
    · exact .found operands
    · exact answers_accesses calls operands

theorem reads_leftHandRule : Reads source floor (leftHandRule g) :=
  reads_leftHandOf calls

theorem reads_operandRule {typedArrow : Bool} : Reads source floor (operandRule g typedArrow) := by
  intro cursor stands
  -- an operator in front of an operand
  have unary : ∀ {p : Parser}, Reads source floor p →
      Reads source floor (node .expression (seq [p, g.call (.operand typedArrow)])) :=
    fun part => .node (.seq ⟨part, calls _ _⟩)
  unfold operandRule
  dsimp only
  split
  iterate 6 · exact unary (.mark rfl) cursor stands
  · split
    · exact unary (.word rfl) cursor stands
    · exact unary (.word rfl) cursor stands
    · exact unary (.word rfl) cursor stands
    · exact Reads.answers (.firstOf ⟨unary (.word rfl), reads_leftHandOf calls⟩) stands
    · exact reads_leftHandOf calls cursor stands

theorem reads_assertedType : Reads source floor (assertedType g) :=
  .firstOf ⟨.word rfl, calls _ _⟩

/-- Each operator makes the operand before it grow. -/
theorem answers_operatorsAfter {operand : Forest} {start cursor : Cursor} {strength rounds : Nat}
    {allowIn typedArrow : Bool} (operands : Yields source floor start operand cursor) :
    Answers source floor start
      (operatorsAfter g strength allowIn typedArrow rounds operand cursor) := by
  induction rounds generalizing operand cursor with
  | zero => exact .found operands
  | succ rounds ih =>
    unfold operatorsAfter
    split
    · exact .found operands
    · next operator ahead =>
      have crisp := crisp_operatorLength (mem_of_operatorAhead ahead)
      split
      · exact .found operands
      · dsimp only
        split
        · exact .fail
        · next found =>
          refine ih (operands.grow (Reads.answers ?_ operands.stands _ _ found))
          refine .seq ⟨.role (.leaf crisp), ?_⟩
          split
          · exact reads_assertedType calls
          · split
            · exact reads_assertedType calls
            · exact .role (calls _ _)

theorem reads_operatorsRule {strength : Nat} {allowIn typedArrow : Bool} :
    Reads source floor (operatorsRule g strength allowIn typedArrow) := by
  intro cursor stands
  unfold operatorsRule
  split
  · exact .fail
  · next operand =>
    have operands := calls _ _ cursor stands _ _ operand
    split
    · exact .found operands
    · exact answers_operatorsAfter calls operands

theorem reads_ternaryBranches {allowIn typedArrow : Bool} :
    Reads source floor (ternaryBranches g allowIn typedArrow) := by
  intro cursor stands
  have first : ∀ {typedArrow : Bool}, Reads source floor
      (seq [mark "?", role .consequence (g.call (.assignment true typedArrow))]) :=
    .seq ⟨.mark rfl, .role (calls _ _)⟩
  have second : Reads source floor
      (seq [mark ":", role .alternative (g.call (.assignment allowIn typedArrow))]) :=
    .seq ⟨.mark rfl, .role (calls _ _)⟩
  unfold ternaryBranches
  dsimp only
  split
  · exact .fail
  · next found =>
    have yields := first cursor stands _ _ found
    split
    · split
      · exact .fail
      · next others => exact .found (yields.append (second _ yields.stands _ _ others))
    · exact Reads.answers (.seq ⟨.mark rfl, .role (calls _ _), second⟩) stands

theorem reads_yieldExpression {allowIn : Bool} : Reads source floor (yieldExpression g allowIn) :=
  .node (.seq ⟨.word rfl,
      .firstOf ⟨.seq ⟨.sameLine (.mark rfl), calls _ _⟩, .optional (.sameLine (calls _ _))⟩⟩)

theorem reads_assignmentRule {allowIn typedArrow : Bool} :
    Reads source floor (assignmentRule g allowIn typedArrow) := by
  intro cursor stands
  have assigned : Reads source floor (seq [leaf .token assignmentLength,
      role .right (g.call (.assignment allowIn typedArrow))]) :=
    .seq ⟨.leaf crisp_assignmentLength, .role (calls _ _)⟩
  unfold assignmentRule
  split
  · exact reads_yieldExpression calls cursor stands
  · split
    · exact .fail
    · next operand =>
      have operands := calls _ _ cursor stands _ _ operand
      split
      · exact .found operands
      · split
        · split
          · exact .fail
          · next more =>
            exact .found (operands.grow (reads_ternaryBranches calls _ operands.stands _ _ more))
        · split
          · split
            · exact .fail
            · next more => exact .found (operands.grow (assigned _ operands.stands _ _ more))
          · exact .found operands

theorem reads_expressionRule {allowIn : Bool} : Reads source floor (expressionRule g allowIn) := by
  intro cursor stands
  have others :
      Reads source floor (many g.rounds (seq [mark ",", g.call (.assignment allowIn true)])) :=
    .many (.seq ⟨.mark rfl, calls _ _⟩)
  unfold expressionRule
  split
  · exact .fail
  · next first =>
    have operands := calls _ _ cursor stands _ _ first
    split
    · exact .fail
    · next none =>
      have yields := operands.append (others _ operands.stands _ _ none)
      exact .found (yields.subset fun node member => List.mem_append_left _ member)
    · next more => exact .found (operands.grow (others _ operands.stands _ _ more))

end Grammar

end RenderProbe.Syntax
