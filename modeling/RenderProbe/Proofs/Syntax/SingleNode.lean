import RenderProbe.Proofs.Syntax.Reading

/-!
# Expressions and patterns are single nodes

Each rule of expressions and each pattern reads one node, with comments before it at most. So a
value or a name in a statement is one child of it, whatever is inside.

* `isSingle_access`, `isSingle_operatorsAfter`: what follows an operand grows it.
* `single_parseWithin`: the rules read single nodes, however deep they call each other.
-/

namespace RenderProbe.Syntax

/-- The rules of expressions and patterns. -/
def Rule.isSingle : Rule → Bool
  | .expression _ | .assignment _ _ | .operators _ _ _ | .operand _ | .leftHand | .element
  | .bindingPattern => true
  | _ => false

/-- The rules of expressions and patterns that a rule calls read single nodes. -/
def Grammar.CallsSingle (g : Grammar) : Prop :=
  ∀ rule : Rule, rule.isSingle = true → Single (g.call rule)

section Expressions

variable {g : Grammar}

theorem single_arrowFunction (allowIn typedArrow : Bool) :
    Single (arrowFunction g allowIn typedArrow) :=
  Single.node rfl

theorem single_functionExpression : Single (functionExpression g) :=
  Single.nodeBy fun nodes => by split <;> rfl

theorem single_nameOrArrow (typedArrow : Bool) : Single (nameOrArrow g typedArrow) := by
  intro cursor nodes stop read
  unfold nameOrArrow at read
  split at read
  · cases read
  · next found =>
    split at read
    · exact single_arrowFunction _ _ read
    · cases read
      exact (Single.leaf rfl : Single identifier) found

theorem single_angled (calls : g.CallsSingle) (typedArrow : Bool) :
    Single (angled g typedArrow) := by
  refine (single_arrowFunction _ _).orElse (Single.orElse ?_ .fail)
  split
  · exact calls .element rfl
  · exact Single.node rfl

theorem single_primary (calls : g.CallsSingle) (typedArrow : Bool) :
    Single (primary g typedArrow) := by
  intro cursor nodes stop read
  unfold primary at read
  split at read
  · exact ((single_arrowFunction _ _).orElse ((Single.node rfl).orElse .fail)) read
  · exact Single.node rfl read
  · exact Single.node rfl read
  · exact single_angled calls typedArrow read
  · exact Single.node rfl read
  · exact Single.leaf rfl read
  · exact Single.leaf rfl read
  · exact Single.node rfl read
  · exact Single.leaf rfl read
  · exact Single.leaf rfl read
  · split at read
    · exact Single.leaf rfl read
    · exact single_functionExpression read
    · exact Single.node rfl read
    · exact Single.node rfl read
    · exact Single.leaf rfl read
    · exact Single.leaf rfl read
    · exact Single.leaf rfl read
    · exact Single.leaf rfl read
    · exact Single.leaf rfl read
    · exact Single.leaf rfl read
    · split at read
      · exact Single.leaf rfl read
      · cases read
    · exact (single_functionExpression.orElse ((single_arrowFunction _ _).orElse
        ((single_nameOrArrow _).orElse .fail))) read
    · exact single_nameOrArrow _ read

theorem isSingle_grown {operand nodes : Forest} {kind : Kind} {r : Role} {p : Parser}
    {cursor stop : Cursor} (single : operand.IsSingle) (solid : kind.isSolid = true)
    (read : grown operand kind r p cursor = some (nodes, stop)) : nodes.IsSingle := by
  simp only [grown] at read
  split at read
  · cases read
  · cases read
    exact single.grow solid _ _ _

/-- An access grows the operand. -/
theorem isSingle_access {operand nodes : Forest} {cursor stop : Cursor} (single : operand.IsSingle)
    (read : access g operand cursor = some (nodes, stop)) : nodes.IsSingle := by
  unfold access at read
  dsimp only at read
  split at read
  · split at read
    · exact isSingle_grown single rfl read
    · exact isSingle_grown single rfl read
    · exact isSingle_grown single rfl read
    · split at read
      · cases read
      · exact isSingle_grown single rfl read
  · split at read
    · cases read
    · exact isSingle_grown single rfl read
  · exact isSingle_grown single rfl read
  · exact isSingle_grown single rfl read
  · exact isSingle_grown single rfl read
  · split at read
    · cases read
    · exact isSingle_grown single rfl read
  · split at read
    · cases read
    · exact isSingle_grown single rfl read
  · split at read
    · cases read
    · exact isSingle_grown single rfl read
  · split at read
    · cases read
    · split at read
      · exact isSingle_grown single rfl read
      · split at read
        · exact isSingle_grown single rfl read
        · split at read
          · exact isSingle_grown single rfl read
          · cases read
  · cases read

theorem isSingle_accesses {operand nodes : Forest} {cursor stop : Cursor} {rounds : Nat}
    (single : operand.IsSingle) (read : accesses g rounds operand cursor = some (nodes, stop)) :
    nodes.IsSingle := by
  induction rounds generalizing operand cursor with
  | zero =>
    cases read
    exact single
  | succ rounds ih =>
    simp only [accesses] at read
    split at read
    · cases read
      exact single
    · next grown => exact ih (isSingle_access single grown) read

theorem single_leftHandOf (calls : g.CallsSingle) (typedArrow : Bool) :
    Single (leftHandOf g typedArrow) := by
  intro cursor nodes stop read
  unfold leftHandOf at read
  split at read
  · cases read
  · next operand =>
    split at read
    · cases read
      exact single_primary calls typedArrow operand
    · exact isSingle_accesses (single_primary calls typedArrow operand) read

theorem single_operandRule (calls : g.CallsSingle) (typedArrow : Bool) :
    Single (operandRule g typedArrow) := by
  intro cursor nodes stop read
  unfold operandRule at read
  dsimp only at read
  split at read
  · exact Single.node rfl read
  · exact Single.node rfl read
  · exact Single.node rfl read
  · exact Single.node rfl read
  · exact Single.node rfl read
  · exact Single.node rfl read
  · split at read
    · exact Single.node rfl read
    · exact Single.node rfl read
    · exact Single.node rfl read
    · exact ((Single.node rfl).orElse ((single_leftHandOf calls typedArrow).orElse .fail)) read
    · exact single_leftHandOf calls typedArrow read

theorem isSingle_operatorsAfter {operand nodes : Forest} {cursor stop : Cursor}
    {strength rounds : Nat} {allowIn typedArrow : Bool} (single : operand.IsSingle)
    (read : operatorsAfter g strength allowIn typedArrow rounds operand cursor
      = some (nodes, stop)) :
    nodes.IsSingle := by
  induction rounds generalizing operand cursor with
  | zero =>
    cases read
    exact single
  | succ rounds ih =>
    simp only [operatorsAfter] at read
    split at read
    · cases read
      exact single
    · split at read
      · cases read
        exact single
      · split at read
        · cases read
        · refine ih (single.grow ?_ _ _ _) read
          split
          · rfl
          · split <;> rfl

theorem single_operatorsRule (calls : g.CallsSingle) (strength : Nat) (allowIn typedArrow : Bool) :
    Single (operatorsRule g strength allowIn typedArrow) := by
  intro cursor nodes stop read
  unfold operatorsRule at read
  split at read
  · cases read
  · next operand =>
    have single := calls (.operand typedArrow) rfl operand
    split at read
    · cases read
      exact single
    · exact isSingle_operatorsAfter single read

theorem single_assignmentRule (calls : g.CallsSingle) (allowIn typedArrow : Bool) :
    Single (assignmentRule g allowIn typedArrow) := by
  intro cursor nodes stop read
  unfold assignmentRule at read
  split at read
  · exact Single.node rfl read
  · split at read
    · cases read
    · next operand =>
      have single := calls (.operators 1 allowIn typedArrow) rfl operand
      split at read
      · cases read
        exact single
      · split at read
        · split at read
          · cases read
          · cases read
            exact single.grow rfl _ _ _
        · split at read
          · split at read
            · cases read
            · cases read
              exact single.grow rfl _ _ _
          · cases read
            exact single

theorem single_expressionRule (calls : g.CallsSingle) (allowIn : Bool) :
    Single (expressionRule g allowIn) := by
  intro cursor nodes stop read
  unfold expressionRule at read
  split at read
  · cases read
  · next first =>
    have single := calls (.assignment allowIn true) rfl first
    split at read
    · cases read
    · cases read
      exact single
    · cases read
      exact single.grow rfl _ _ _

theorem single_bindingPatternRule : Single (bindingPatternRule g) := by
  intro cursor nodes stop read
  unfold bindingPatternRule at read
  split at read
  · exact Single.node rfl read
  · exact Single.node rfl read
  · exact Single.leaf rfl read

end Expressions

/-- Each rule of expressions and patterns reads a single node, however deep rules may call each
other. By induction on the depth, with the rules of less depth behind `Grammar.call`. -/
theorem single_parseWithin (markup : Bool) (calls : Nat) (rule : Rule)
    (isSingle : rule.isSingle = true) : Single (parseWithin markup calls rule) := by
  induction calls generalizing rule with
  | zero =>
    intro cursor nodes stop read
    cases read
  | succ calls ih =>
    have inner : Grammar.CallsSingle ⟨markup, calls + 1, parseWithin markup calls⟩ := ih
    cases rule with
    | expression allowIn => exact single_expressionRule inner allowIn
    | assignment allowIn typedArrow => exact single_assignmentRule inner allowIn typedArrow
    | operators strength allowIn typedArrow =>
      exact single_operatorsRule inner strength allowIn typedArrow
    | operand typedArrow => exact single_operandRule inner typedArrow
    | leftHand => exact single_leftHandOf inner true
    | element => exact Single.node rfl
    | bindingPattern => exact single_bindingPatternRule
    | _ => cases isSingle

end RenderProbe.Syntax
