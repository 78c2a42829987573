import Mathlib.Tactic.MkIffOfInductiveProp
import RenderProbe.Proofs.Engine.Naming
import RenderProbe.Proofs.Fallback.Shape
import RenderProbe.Proofs.Wrap.Agreement
import RenderProbe.Proofs.Wrap.Conservation

/-!
# Remarks on a default export

A default export of a name may say more than the name: comments in its parentheses, and types that
it is asserted to have. The rule for such exports looks through all of that to find the name, and
then puts a call on the name in the place of the whole value.

* `Node.remarks`: the comments and asserted types in a value, in order.
* `Rewrite.exists_printed`: the edits of a node are printed where the node stood.
* `replaces_value`: around the value the statement stays as it was; what stands in the place of the
  value keeps no comment, and a type only if the call happens to spell it.
-/

namespace RenderProbe.Syntax.Node

/-- An expression that asserts a type. -/
def assertsType (node : Node) : Bool :=
  node.kind == .asExpression || node.kind == .satisfiesExpression

mutual

/-- The comments and the asserted types in a node, in order; a comment inside of a type is part of
it. -/
def remarks : Node → List Node
  | ⟨kind, role, span, lexeme, children⟩ =>
    if kind == .comment then [⟨kind, role, span, lexeme, children⟩]
    else remarksAmong (assertsType ⟨kind, role, span, lexeme, children⟩) children

/-- The remarks among the children of a node. Behind the word by which it asserts a type stand
comments and the type. -/
def remarksAmong (asserts : Bool) : List Node → List Node
  | [] => []
  | node :: rest =>
    if asserts && node.role == .operator then rest.filter isNamed
    else node.remarks ++ remarksAmong asserts rest

end

end RenderProbe.Syntax.Node

namespace RenderProbe.Wrap

open Syntax (Node Forest)
open Patch (Edit weave slice encode)

/-! ## Parts of a text -/

section Parts

variable {α : Type} {parts : List (List α)} {text part : List α}

/-- The parts stand in the text, one behind the other. -/
def HoldsInOrder : List (List α) → List α → Prop
  | [], _ => True
  | part :: parts, text =>
    ∃ before after, text = before ++ (part ++ after) ∧ HoldsInOrder parts after

theorem HoldsInOrder.isInfix (holds : HoldsInOrder parts text) (member : part ∈ parts) :
    part <:+: text := by
  induction parts generalizing text with
  | nil => cases member
  | cons first rest ih =>
    obtain ⟨before, after, rfl, holds⟩ := holds
    rcases List.mem_cons.mp member with rfl | later
    · exact ⟨before, after, List.append_assoc ..⟩
    · exact (ih holds later).trans ((List.suffix_append _ _).trans (List.suffix_append _ _)).isInfix

end Parts

/-! ## The statement -/

/-- A statement of a module exports a name as the default: its value is the name, looked through. -/
@[mk_iff]
structure DefaultReference (root : Node) (name : String) (statement value : Node) : Prop where
  member : statement ∈ root.children
  exported : statement.kind = .exportStatement
  keyword : statement.hasKeyword "default" = true
  undeclared : statement.child? .declaration = none
  valued : statement.child? .value = some value
  refers : (value.unwrap.any fun reference =>
    reference.kind == .identifier && reference.lexeme == name) = true

instance (root : Node) (name : String) (statement value : Node) :
    Decidable (DefaultReference root name statement value) :=
  decidable_of_iff _ (defaultReference_iff root name statement value).symm

section Statement

variable {rewrite : Rewrite} {root statement value : Node} {signatures : Bool}

/-- The edits of a node are printed where the node stood. -/
theorem Rewrite.exists_printed (rewrite : Rewrite) (signatures : Bool) (imports : List Patch)
    {nodes : Forest} {node : Node} (member : node ∈ nodes) (start : Nat) :
    ∃ before after, rewrite.printed signatures imports nodes start =
      before ++ weave rewrite.bytes node.span.start node.span.stop (rewrite.edits signatures node)
        ++ after := by
  induction nodes generalizing start with
  | nil => cases member
  | cons first rest ih =>
    rw [Rewrite.printed]
    rcases List.mem_cons.mp member with rfl | later
    · exact ⟨_, _, List.append_assoc ..⟩
    · obtain ⟨before, after, printed⟩ := ih later first.span.stop
      rw [printed, ← List.append_assoc, ← List.append_assoc]
      exact ⟨_, _, rfl⟩

theorem Rewrite.exists_woven {symbol newline : String} {style : QuoteStyle} {target : ImportTarget}
    {imports : List Patch}
    (imported : importPatches (scanImports root symbol) style newline target = imports)
    (wellFormed : root.WellFormed rewrite.bytes) (signatures : Bool)
    (member : statement ∈ root.children) :
    ∃ before after, weave rewrite.bytes 0 rewrite.bytes.length
        ((rewrite.patchesInOrder signatures imports root.children).map Patch.edit) =
      before ++ weave rewrite.bytes statement.span.start statement.span.stop
        (rewrite.edits signatures statement) ++ after := by
  obtain ⟨before, after, printed⟩ := rewrite.exists_printed signatures imports member 0
  rw [Rewrite.weave_patchesInOrder imported wellFormed, printed, ← List.append_assoc,
    ← List.append_assoc]
  exact ⟨_, _, rfl⟩

/-- Where anything of the name is wrapped, its default exports are. -/
theorem DefaultReference.defaultValue?
    (reference : DefaultReference root rewrite.name statement value)
    (fires : rewrite.firing root ≠ []) : rewrite.aim.defaultValue? statement = some value := by
  have uppercase : StartsUppercase rewrite.name := by
    refine Classical.byContradiction fun other => fires ?_
    rw [Rewrite.firing_eq_nil_iff]
    exact fun statement _ _ rule => Aim.wrapped_of_not_startsUppercase other statement rule
  refine Aim.defaultValue?_eq_some.mpr
    ⟨reference.keyword, reference.undeclared, reference.valued, ?_⟩
  rw [Aim.acceptsReference, accepts_reference, Bool.and_eq_true]
  exact ⟨reference.refers, isComponentName_iff.mpr uppercase⟩

/-- The value is replaced by the call, and the rest of the statement stays. The value is the whole
expression, with the parentheses and the type around the name. -/
theorem DefaultReference.weave (reference : DefaultReference root rewrite.name statement value)
    (fires : rewrite.firing root ≠ []) :
    weave rewrite.bytes statement.span.start statement.span.stop
      (rewrite.edits signatures statement)
        = slice rewrite.bytes statement.span.start value.span.start
        ++ encode (Snippet.wrapCall rewrite.style rewrite.symbol rewrite.name rewrite.name)
        ++ slice rewrite.bytes value.span.stop statement.span.stop := by
  have wraps := reference.defaultValue? fires
  have fires : rewrite.fires? statement = some .defaultIdentifier := by
    refine Rewrite.fires?_eq_some_iff.mpr ⟨reference.exported, ?_⟩
    rw [Aim.wrapped, wraps]
    simp
  simp only [Rewrite.edits, fires, wraps, Option.toList_some, List.map_cons,
    List.map_nil, Patch.weave]

end Statement

/-! ## The output -/

section Output

variable {criteria : Component.Criteria} {style : QuoteStyle} {text name output : String}
  {root statement value : Node} {target : ImportTarget} {rules : List Rule}

theorem slash_notMem_wrapCall {symbol : String} (style : QuoteStyle) (inName : '/' ∉ name.toList)
    (inSymbol : '/' ∉ symbol.toList) : '/' ∉ (Snippet.wrapCall style symbol name name).toList := by
  rw [Fallback.toList_wrapCall]
  simp [inName, inSymbol, Fallback.notMem_stringLiteral (by decide) inName]

/-- A wrap prints the edits of each node where the node stood. -/
theorem exists_printed_of_wrapped (wellFormed : root.WellFormed (encode text))
    (answer : transform criteria style text root name target = .ok (.wrapped output rules))
    {node : Node} (member : node ∈ root.children) :
    ∃ before after, encode output = before ++ weave (encode text) node.span.start node.span.stop
        ((Rewrite.of criteria style text root name target.symbol).edits
          ((Rewrite.of criteria style text root name target.symbol).demotesSignatures root) node)
      ++ after := by
  obtain ⟨-, rendered, -, -⟩ := transform_eq_wrapped_iff.mp answer
  obtain ⟨chain, woven⟩ := Patch.render_eq_ok rendered
  have placed : root.WellFormed (Rewrite.of criteria style text root name target.symbol).bytes :=
    wellFormed
  rw [woven, Rewrite.arrange_eq_patchesInOrder rfl placed rfl chain]
  exact Rewrite.exists_woven rfl placed _ member

/-- The text of a node. -/
def nodeText (text : String) (node : Node) : List Char :=
  (Patch.sliceText (encode text) node.span.start node.span.stop).toList

/-- A wrap puts the call in the place of the value of a default export, and leaves the statement as
it was around the value. Comments have slashes and names have none, so the call keeps what the value
remarks exactly if none of it is a comment and the types are spelled in the call. -/
theorem replaces_value (wellFormed : root.WellFormed (encode text))
    (reference : DefaultReference root name statement value)
    (answer : transform criteria style text root name target = .ok (.wrapped output rules)) :
    (∃ before after, encode output = before
      ++ (slice (encode text) statement.span.start value.span.start
        ++ encode (Snippet.wrapCall style target.symbol name name)
        ++ slice (encode text) value.span.stop statement.span.stop)
      ++ after)
    ∧ ('/' ∉ name.toList → '/' ∉ target.symbol.toList →
      (∀ remark ∈ value.remarks, remark.kind = .comment → '/' ∈ nodeText text remark) →
      (HoldsInOrder (value.remarks.map (nodeText text))
          (Snippet.wrapCall style target.symbol name name).toList
        ↔ (∀ remark ∈ value.remarks, remark.kind ≠ .comment)
          ∧ HoldsInOrder ((value.remarks.filter (·.kind != .comment)).map (nodeText text))
            (Snippet.wrapCall style target.symbol name name).toList)) := by
  constructor
  · obtain ⟨before, after, printed⟩ := exists_printed_of_wrapped wellFormed answer reference.member
    have fires := (transform_eq_wrapped_iff.mp answer).1
    change DefaultReference root (Rewrite.of criteria style text root name target.symbol).name _ _
      at reference
    rw [show encode text = (Rewrite.of criteria style text root name target.symbol).bytes from rfl,
      reference.weave fires] at printed
    exact ⟨before, after, printed⟩
  · intro inName inSymbol slashed
    have plain := slash_notMem_wrapCall style inName inSymbol
    constructor
    · intro holds
      have uncommented : ∀ remark ∈ value.remarks, remark.kind ≠ .comment := by
        intro remark member comment
        have inCall := holds.isInfix (List.mem_map_of_mem member)
        exact plain (inCall.subset (slashed remark member comment))
      refine ⟨uncommented, ?_⟩
      rwa [List.filter_eq_self.mpr fun remark member => by simpa using uncommented remark member]
    · rintro ⟨uncommented, holds⟩
      rwa [List.filter_eq_self.mpr fun remark member => by simpa using uncommented remark member]
        at holds

/-- A reference asserted to be of a type with its own name, with a comment behind the statement. -/
def spelledType : String :=
  "export default (A as A)//c"

/-- A type that the call happens to spell stays, and so does the comment behind the statement. -/
theorem replaces_value_spelled :
    ∃ root statement value output rules, Syntax.parse true spelledType = some root
      ∧ root.WellFormed (encode spelledType)
      ∧ DefaultReference root "A" statement value
      ∧ transform .standard .single spelledType root "A" ⟨"w", "m"⟩ = .ok (.wrapped output rules)
      ∧ (∃ before after, encode output = before
        ++ (slice (encode spelledType) statement.span.start value.span.start
          ++ encode "w(A, 'A')" ++ slice (encode spelledType) value.span.stop statement.span.stop)
        ++ after)
      ∧ HoldsInOrder (value.remarks.map (nodeText spelledType)) "w(A, 'A')".toList := by
  have passes : wrapPasses spelledType (fun root _ _ =>
      decide (root.WellFormed (encode spelledType))
        && root.children.any fun statement => (statement.child? .value).any fun value =>
          decide (DefaultReference root "A" statement value
            ∧ (∀ remark ∈ value.remarks, remark.kind ≠ .comment)
            ∧ (value.remarks.filter (·.kind != .comment)).map (nodeText spelledType) = [['A']])) =
      true := by
    decide +kernel
  obtain ⟨root, output, rules, parsed, answer, holds⟩ := exists_of_wrapPasses passes
  simp only [Option.any_eq_true, List.any_eq_true, Bool.and_eq_true, decide_eq_true_eq] at holds
  obtain ⟨wellFormed, statement, -, value, -, reference, uncommented, types⟩ := holds
  obtain ⟨replaced, keeps⟩ := replaces_value wellFormed reference answer
  have holds : HoldsInOrder [['A']] "w(A, 'A')".toList :=
    ⟨['w', '('], ", 'A')".toList, rfl, trivial⟩
  refine ⟨root, statement, value, output, rules, parsed, wellFormed, reference, answer, replaced,
    ?_⟩
  exact (keeps (by decide) (by decide) fun remark member comment =>
    absurd comment (uncommented remark member)).mpr ⟨uncommented, types ▸ holds⟩

/-- A reference with a comment and a type around it. -/
def remarkedReference : String :=
  "export default (/* c */ A as B)"

/-- A comment in the parentheses of a default export is nowhere in the output. -/
theorem loses_comment :
    ¬ ∀ (criteria : Component.Criteria) (style : QuoteStyle) (markup : Bool) (text name : String)
        (root statement value : Node) (target : ImportTarget) (output : String) (rules : List Rule),
      Syntax.parse markup text = some root → DefaultReference root name statement value →
      transform criteria style text root name target = .ok (.wrapped output rules) →
      HoldsInOrder (value.remarks.map (nodeText text)) output.toList := by
  intro keeps
  have passes : wrapPasses remarkedReference (fun root output _ => decide ('/' ∉ output.toList)
      && root.children.any fun statement => (statement.child? .value).any fun value =>
        decide (DefaultReference root "A" statement value
          ∧ ∃ remark ∈ value.remarks, '/' ∈ nodeText remarkedReference remark)) = true := by
    decide +kernel
  obtain ⟨root, output, rules, parsed, answer, holds⟩ := exists_of_wrapPasses passes
  simp only [Option.any_eq_true, List.any_eq_true, Bool.and_eq_true, decide_eq_true_eq] at holds
  obtain ⟨unslashed, statement, -, value, -, reference, remark, member, slashed⟩ := holds
  have kept := keeps _ _ _ _ _ _ _ _ _ _ _ parsed reference answer
  exact unslashed ((kept.isInfix (List.mem_map_of_mem member)).subset slashed)

end Output

end RenderProbe.Wrap
