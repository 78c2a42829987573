import RenderProbe.Syntax.Grammar.Module

/-!
# Programs

The whole grammar tied together. A rule that calls another one has one call less left, and a source
gets more calls than its length allows to nest, so the bound is never what makes a parse fail.
-/

namespace RenderProbe.Syntax

/-- A rule of the grammar, by its name. Each case is the definition of its rule, with the other
rules behind `Grammar.call`. -/
def Grammar.parseRule (g : Grammar) : Rule → Parser
  | .statement => statementRule g
  | .expression allowIn => expressionRule g allowIn
  | .assignment allowIn typedArrow => assignmentRule g allowIn typedArrow
  | .operators strength allowIn typedArrow => operatorsRule g strength allowIn typedArrow
  | .operand typedArrow => operandRule g typedArrow
  | .leftHand => leftHandRule g
  | .type => typeRule g
  | .bindingPattern => bindingPatternRule g
  | .element => elementRule g
  | .block => blockRule g

/-- A rule with a bound on how deep rules may call each other. The recursion is on the bound alone,
so whatever each rule preserves is preserved by the parse of a source. -/
def parseWithin (markup : Bool) : Nat → Rule → Parser
  | 0, _ => fun _ => none
  | calls + 1, rule => fun cursor =>
    Grammar.parseRule ⟨markup, calls + 1, parseWithin markup calls⟩ rule cursor

/-- The line that names an interpreter, at the very start of a source. Only a line feed ends it, so
a carriage return before the line feed belongs to it. -/
def hashBangLine : Parser :=
  leaf .hashBang fun rest =>
    if "#!".toList.isPrefixOf rest then countWhile (· != '\n') rest else 0

/-- The statements of a program and the comments after the last one. Nothing may be left over, and
no comment may be open at the end. -/
def programBody (markup : Bool) (calls : Nat) : Parser := fun cursor =>
  match seq [optional hashBangLine, many calls (parseWithin markup calls .statement)] cursor with
  | none => none
  | some (nodes, stop) =>
    let trivia := stop.skipTrivia
    if trivia.next.rest.isEmpty && !trivia.unclosed then
      some (nodes ++ trivia.comments, trivia.next)
    else none

/-- How deep rules may call each other in a source of a length. -/
def callBound (length : Nat) : Nat :=
  24 * (length + 16)

/-- The tree of a source, if it has no errors. -/
def parse (markup : Bool) (text : String) : Option Node :=
  let cursor := Cursor.ofText text
  match programBody markup (callBound cursor.rest.length) cursor with
  | none => none
  | some (children, stop) => some ⟨.program, .plain, cursor.spanTo stop, "", children⟩

end RenderProbe.Syntax
