import Mathlib.Data.List.Forall2
import RenderProbe.Proofs.Syntax.Covers
import RenderProbe.Proofs.Syntax.ReturnFreeGrammar
import RenderProbe.Wrap.Rule

/-!
# Covers do not change verdicts

Parentheses, asserted types and the non-null mark may stand around a whole value, and also around
the parts of a value that detection looks at: the branches of a conditional, the operands of a
logical operator, the callee of a call.

* `Padded`: a tree with covers put around such parts of it, at any depth.
* `Padded.unwrap`, `Padded.isMarkup`, `Padded.returnsIn` and the lemmas between them: one for each
  reading that detection makes of a tree.
* `verdicts_of_padded`: covers change no verdict, neither within a value nor around it.

In a tree that the grammar reads, expressions are what `Syntax.isExpression_of_read` says, and
`Syntax.covers_of_parenthesized` and `Syntax.covers_of_grow` say which nodes are covers.
-/

namespace RenderProbe.Component

open Syntax (Node Kind Role Covers IsExpression)
open Relation (ReflTransGen)

/-! ## Covers in a tree -/

/-- Whether covers are put around the child of a node in a role: a branch of a conditional, an
operand of a logical operator or the callee of a call. -/
def takesCovers (node : Node) (role : Role) : Bool :=
  match node.kind with
  | .ternary => role == .consequence || role == .alternative
  | .binary => hasLogicalOperator node && (role == .left || role == .right)
  | .call => role == .callee
  | _ => false

mutual

/-- The second tree is the first one with covers around branches, operands and callees in it. Covers
move the text behind them, so where the nodes stand plays no part. -/
inductive Padded : Node → Node → Prop
  | node {kind : Kind} {role role' : Role} {span span' : Syntax.Span} {lexeme : String}
    {children children' : List Node} :
    PaddedRow (takesCovers ⟨kind, role, span, lexeme, children⟩) children children' →
    Padded ⟨kind, role, span, lexeme, children⟩ ⟨kind, role', span', lexeme, children'⟩

/-- The same of a row of trees; `takes` says in which roles they may get covers. A cover takes over
the role of what it is put around. -/
inductive PaddedRow : (Role → Bool) → List Node → List Node → Prop
  | nil {takes : Role → Bool} : PaddedRow takes [] []
  | keep {takes : Role → Bool} {node padded : Node} {rest rest' : List Node} :
    padded.role = node.role → Padded node padded → PaddedRow takes rest rest' →
    PaddedRow takes (node :: rest) (padded :: rest')
  | cover {takes : Role → Bool} {node padded cover : Node} {rest rest' : List Node} :
    takes node.role = true → cover.role = node.role → IsExpression node → IsExpression cover →
    Padded node padded → ReflTransGen Covers cover padded → PaddedRow takes rest rest' →
    PaddedRow takes (node :: rest) (cover :: rest')

end

/-- What stands in the place of a child: the child with covers in it, and around it if its role
allows. A name or a keyword cannot be covered, an operand can. -/
structure Fits (takes : Role → Bool) (node found : Node) : Prop where
  role : found.role = node.role
  covered : ∃ padded, Padded node padded ∧ ReflTransGen Covers found padded
  kept : Padded node found ∨ takes node.role = true ∧ IsExpression node ∧ IsExpression found

mutual

/-- A tree without further covers is a case of a padded one, so the relation says nothing of how
many covers there are. -/
theorem Padded.refl : ∀ node : Node, Padded node node
  | ⟨_, _, _, _, children⟩ => .node (.refl _ children)

theorem PaddedRow.refl (takes : Role → Bool) : ∀ nodes : List Node, PaddedRow takes nodes nodes
  | [] => .nil
  | node :: rest => .keep rfl (Padded.refl node) (.refl takes rest)

end

section Fields

variable {node padded : Node} {takes : Role → Bool} {nodes found : List Node}

theorem Padded.kind (pads : Padded node padded) : padded.kind = node.kind := by
  cases pads
  rfl

theorem Padded.lexeme (pads : Padded node padded) : padded.lexeme = node.lexeme := by
  cases pads
  rfl

theorem Padded.children (pads : Padded node padded) :
    PaddedRow (takesCovers node) node.children padded.children := by
  cases pads with
  | node row => exact row

theorem Padded.isNamed (pads : Padded node padded) : padded.isNamed = node.isNamed := by
  simp [Node.isNamed, pads.kind]

theorem Padded.isMeaningful (pads : Padded node padded) :
    padded.isMeaningful = node.isMeaningful := by
  simp [Node.isMeaningful, Node.isNamed, pads.kind]

theorem Padded.lexeme? (pads : Padded node padded) : padded.lexeme? = node.lexeme? := by
  simp [Node.lexeme?, pads.lexeme]

theorem PaddedRow.fits : ∀ {nodes found : List Node}, PaddedRow takes nodes found →
    List.Forall₂ (Fits takes) nodes found
  | _, _, .nil => .nil
  | _, _, .keep role pads row => .cons ⟨role, ⟨_, pads, .refl⟩, .inl pads⟩ row.fits
  | _, _, .cover taken role expression expression' pads covers row =>
    .cons ⟨role, ⟨_, pads, covers⟩, .inr ⟨taken, expression, expression'⟩⟩ row.fits

theorem Fits.exact (fits : Fits takes node padded) (closed : takes node.role = false) :
    Padded node padded := by
  rcases fits.kept with pads | ⟨taken, -⟩
  · exact pads
  · rw [closed] at taken
    cases taken

theorem Fits.isMeaningful (fits : Fits takes node padded) :
    padded.isMeaningful = node.isMeaningful := by
  rcases fits.kept with pads | ⟨-, expression, expression'⟩
  · exact pads.isMeaningful
  · rw [Syntax.isMeaningful_of_isSolid expression.solid,
      Syntax.isMeaningful_of_isSolid expression'.solid]

/-- Where no role allows covers, the children correspond one by one. -/
theorem PaddedRow.exact (row : PaddedRow takes nodes found) (closed : ∀ role, takes role = false) :
    List.Forall₂ (fun node found => found.role = node.role ∧ Padded node found) nodes found :=
  row.fits.imp fun _ _ fits => ⟨fits.role, fits.exact (closed _)⟩

end Fields

/-! ## Children -/

section Children

variable {R : Node → Node → Prop} {test : Node → Bool} {nodes found : List Node}
  {first second : Option Node}

theorem find?_of_forall₂ (related : List.Forall₂ R nodes found)
    (agree : ∀ a b, R a b → test b = test a) :
    Option.Rel R (nodes.find? test) (found.find? test) := by
  induction related with
  | nil => exact .none
  | @cons a b _ _ head _ ih =>
    cases passes : test a with
    | true => simpa [passes, agree a b head] using Option.Rel.some head
    | false => simpa [passes, agree a b head] using ih

theorem any_of_forall₂ (related : List.Forall₂ R nodes found)
    (agree : ∀ a b, R a b → test b = test a) : found.any test = nodes.any test := by
  induction related with
  | nil => rfl
  | cons head _ ih => simp [agree _ _ head, ih]

theorem isEmpty_of_forall₂ (related : List.Forall₂ R nodes found) :
    found.isEmpty = nodes.isEmpty := by
  cases related <;> rfl

theorem filter_of_forall₂ (related : List.Forall₂ R nodes found) (test : Node → Bool)
    (agree : ∀ a b, R a b → test b = test a) :
    List.Forall₂ (fun a b => test a = true ∧ R a b) (nodes.filter test) (found.filter test) := by
  induction related with
  | nil => exact .nil
  | @cons a b _ _ head _ ih =>
    cases passes : test a with
    | true => simpa [passes, agree a b head] using ⟨head, ih⟩
    | false => simpa [passes, agree a b head] using ih

/-- Neither of two related nodes is there, or both are. -/
theorem cases_of_rel (related : Option.Rel R first second) :
    (first = none ∧ second = none) ∨ ∃ a b, first = some a ∧ second = some b ∧ R a b := by
  cases related with
  | none => exact .inl ⟨rfl, rfl⟩
  | some same => exact .inr ⟨_, _, rfl, rfl, same⟩

theorem any_of_rel (related : Option.Rel R first second)
    (agree : ∀ a b, R a b → test b = test a) : second.any test = first.any test := by
  cases related with
  | none => rfl
  | some same => exact agree _ _ same

variable {node padded : Node} {role : Role}

theorem takesCovers_of_kind (other : node.kind ∉ [.ternary, .binary, .call]) (role : Role) :
    takesCovers node role = false := by
  unfold takesCovers
  split <;> simp_all

theorem takesCovers_of_role (node : Node) {role : Role}
    (other : role ∉ [.consequence, .alternative, .left, .right, .callee]) :
    takesCovers node role = false := by
  unfold takesCovers
  split <;> simp_all

theorem Padded.child? (pads : Padded node padded) (role : Role) :
    Option.Rel (Fits (takesCovers node)) (node.child? role) (padded.child? role) :=
  find?_of_forall₂ pads.children.fits fun _ _ fits => by rw [fits.role]

/-- A child in a role without covers corresponds to the child in its place. -/
theorem Padded.child?_exact (pads : Padded node padded) (role : Role)
    (closed : takesCovers node role = false) :
    Option.Rel Padded (node.child? role) (padded.child? role) := by
  obtain ⟨absent, absent'⟩ | ⟨child, found, present, present', fits⟩ :=
    cases_of_rel (pads.child? role)
  · rw [absent, absent']
    exact .none
  · have isRole : child.role = role := by simpa using List.find?_some present
    rw [present, present']
    exact .some (fits.exact (isRole ▸ closed))

/-- The children of a node that takes no covers correspond one by one. -/
theorem Padded.forall₂_children (pads : Padded node padded)
    (other : node.kind ∉ [.ternary, .binary, .call]) :
    List.Forall₂ Padded node.children padded.children :=
  (pads.children.exact (takesCovers_of_kind other)).imp fun _ _ => And.right

theorem Padded.forall₂_namedChildren (pads : Padded node padded)
    (other : node.kind ∉ [.ternary, .binary, .call]) :
    List.Forall₂ Padded node.namedChildren padded.namedChildren :=
  List.rel_filter (fun _ _ child => by simp [child.isNamed]) (pads.forall₂_children other)

end Children

/-! ## What values stand for -/

theorem takesCovers_of_isTransparent {node : Node} (transparent : node.kind.isTransparent = true)
    (role : Role) : takesCovers node role = false := by
  have solid : ∀ kind ∈ [Kind.ternary, .binary, .call], kind.isTransparent = false := by decide
  refine takesCovers_of_kind (fun takes => ?_) role
  simp [solid _ takes] at transparent

mutual

theorem Padded.unwrap : ∀ (node : Node) {padded : Node}, Padded node padded →
    Option.Rel Padded node.unwrap padded.unwrap
  | ⟨kind, role, span, lexeme, children⟩, _, .node row => by
    rw [Node.unwrap, Node.unwrap]
    split
    case isTrue transparent => exact row.unwrapFirst (takesCovers_of_isTransparent transparent)
    case isFalse => exact .some (.node row)

theorem PaddedRow.unwrapFirst : ∀ {nodes found : List Node} {takes : Role → Bool},
    PaddedRow takes nodes found → (∀ role, takes role = false) →
    Option.Rel Padded (Node.unwrapFirst nodes) (Node.unwrapFirst found)
  | _, _, _, .nil, _ => .none
  | _, _, _, .keep _ pads row, closed => by
    rw [Node.unwrapFirst, Node.unwrapFirst, pads.isMeaningful]
    split
    · exact Padded.unwrap _ pads
    · exact row.unwrapFirst closed
  | _, _, _, .cover taken _ _ _ _ _ _, closed => absurd taken (by simp [closed])

end

section Values

variable {node padded found : Node} {takes : Role → Bool}

/-- What stands in the place of a child comes to the same, looked through. -/
theorem Fits.unwrap (fits : Fits takes node found) :
    Option.Rel Padded node.unwrap found.unwrap := by
  obtain ⟨inner, pads, covers⟩ := fits.covered
  rw [Syntax.unwrap_of_covers covers]
  exact Padded.unwrap node pads

/-- The last name of a member chain stays. -/
theorem Padded.property (pads : Padded node padded) :
    (padded.child? .property).bind Node.lexeme? = (node.child? .property).bind Node.lexeme? := by
  obtain ⟨absent, absent'⟩ | ⟨name, name', present, present', same⟩ :=
    cases_of_rel (pads.child?_exact .property (takesCovers_of_role node (by decide)))
  · rw [absent, absent']
  · rw [present, present']
    exact same.lexeme?

theorem Padded.calleeName? (pads : Padded node padded) : padded.calleeName? = node.calleeName? := by
  have callees : Option.Rel Padded ((node.child? .callee).bind Node.unwrap)
      ((padded.child? .callee).bind Node.unwrap) := by
    obtain ⟨absent, absent'⟩ | ⟨callee, found, present, present', fits⟩ :=
      cases_of_rel (pads.child? .callee)
    · rw [absent, absent']
      exact .none
    · rw [present, present']
      exact fits.unwrap
  rw [Node.calleeName?, Node.calleeName?, pads.kind]
  obtain ⟨absent, absent'⟩ | ⟨callee, callee', present, present', same⟩ := cases_of_rel callees
  · rw [absent, absent']
  · simp only [present, present', same.kind, same.lexeme]
    split
    · split
      · rfl
      · exact same.property
      · rfl
    · rfl

theorem Padded.referenceName? (pads : Padded node padded) :
    padded.referenceName? = node.referenceName? := by
  rw [Node.referenceName?, Node.referenceName?]
  obtain ⟨absent, absent'⟩ | ⟨reference, reference', present, present', same⟩ :=
    cases_of_rel (Padded.unwrap node pads)
  · rw [absent, absent']
  · simp only [present, present', same.kind, same.lexeme]
    split
    · rfl
    · rfl
    · exact same.property
    · rfl

theorem Padded.isCallTo (pads : Padded node padded) (name : String) :
    padded.isCallTo name = node.isCallTo name := by
  rw [Node.isCallTo, Node.isCallTo]
  obtain ⟨absent, absent'⟩ | ⟨call, call', present, present', same⟩ :=
    cases_of_rel (Padded.unwrap node pads)
  · rw [absent, absent']
  · simp only [present, present', same.kind, same.calleeName?]

theorem Padded.isLikelyComponent (pads : Padded node padded) (helpers : List String) :
    Wrap.isLikelyComponent helpers padded = Wrap.isLikelyComponent helpers node := by
  rw [Wrap.isLikelyComponent, Wrap.isLikelyComponent]
  refine any_of_rel (Padded.unwrap node pads) fun _ _ same => ?_
  simp only [same.kind, same.calleeName?]

end Values

/-! ## Markup -/

/-- What makes an expression markup, by its kind. -/
theorem isMarkup_eq (node : Node) :
    isMarkup node =
      if node.kind.isTransparent then firstIsMarkup node.children
      else match node.kind with
        | .markup => true
        | .call => node.calleeName? == some "createElement"
        | .ternary =>
          roleIsMarkup .consequence node.children || roleIsMarkup .alternative node.children
        | .binary =>
          hasLogicalOperator node
            && (roleIsMarkup .left node.children || roleIsMarkup .right node.children)
        | _ => false := by
  cases node
  unfold isMarkup
  rfl

theorem firstIsMarkup_of_inert {before after : List Node} {inner : Node}
    (inert : ∀ node ∈ before, node.isMeaningful = false) (meaningful : inner.isMeaningful = true) :
    firstIsMarkup (before ++ inner :: after) = isMarkup inner := by
  induction before with
  | nil => simp [firstIsMarkup, meaningful]
  | cons node rest ih =>
    rw [List.cons_append, firstIsMarkup, inert node List.mem_cons_self]
    exact ih fun other later => inert other (List.mem_cons_of_mem _ later)

theorem isMarkup_of_covers {cover inner : Node} (covers : ReflTransGen Covers cover inner) :
    isMarkup cover = isMarkup inner := by
  induction covers with
  | refl => rfl
  | tail _ covers ih =>
    obtain ⟨transparent, meaningful, before, after, children, inert⟩ := covers
    rw [ih, isMarkup_eq, if_pos transparent, children, firstIsMarkup_of_inert inert meaningful]

theorem Padded.hasLogicalOperator {node padded : Node} (pads : Padded node padded) :
    hasLogicalOperator padded = hasLogicalOperator node := by
  rw [Component.hasLogicalOperator, Component.hasLogicalOperator]
  exact any_of_rel (pads.child?_exact .operator (takesCovers_of_role node (by decide)))
    fun _ _ same => by rw [same.lexeme]

mutual

theorem Padded.isMarkup : ∀ (node : Node) {padded : Node}, Padded node padded →
    isMarkup padded = isMarkup node
  | ⟨kind, role, span, lexeme, children⟩, ⟨_, role', span', _, children'⟩, .node row => by
    have pads :
        Padded ⟨kind, role, span, lexeme, children⟩ ⟨kind, role', span', lexeme, children'⟩ :=
      .node row
    simp only [isMarkup_eq]
    split
    case isTrue transparent => exact row.firstIsMarkup (takesCovers_of_isTransparent transparent)
    case isFalse =>
      split
      · rfl
      · rw [pads.calleeName?]
      · rw [row.roleIsMarkup, row.roleIsMarkup]
      · rw [pads.hasLogicalOperator, row.roleIsMarkup, row.roleIsMarkup]
      · rfl

theorem PaddedRow.firstIsMarkup : ∀ {nodes found : List Node} {takes : Role → Bool},
    PaddedRow takes nodes found → (∀ role, takes role = false) →
    firstIsMarkup found = firstIsMarkup nodes
  | _, _, _, .nil, _ => rfl
  | _, _, _, .keep _ pads row, closed => by
    rw [Component.firstIsMarkup, Component.firstIsMarkup, pads.isMeaningful,
      Padded.isMarkup _ pads, row.firstIsMarkup closed]
  | _, _, _, .cover taken _ _ _ _ _ _, closed => absurd taken (by simp [closed])

theorem PaddedRow.roleIsMarkup : ∀ {nodes found : List Node} {takes : Role → Bool} {role : Role},
    PaddedRow takes nodes found → roleIsMarkup role found = roleIsMarkup role nodes
  | _, _, _, _, .nil => rfl
  | _, _, _, _, .keep sameRole pads row => by
    rw [Component.roleIsMarkup, Component.roleIsMarkup, sameRole, Padded.isMarkup _ pads,
      row.roleIsMarkup]
  | _, _, _, _, .cover _ sameRole _ _ pads covers row => by
    rw [Component.roleIsMarkup, Component.roleIsMarkup, sameRole, isMarkup_of_covers covers,
      Padded.isMarkup _ pads, row.roleIsMarkup]

end

/-! ## Functions -/

theorem returnsAmong_cons_of_isExpression {node : Node} (expression : IsExpression node)
    (maxDepth depth : Nat) (rest : List Node) :
    returnsAmong maxDepth depth (node :: rest) = returnsAmong maxDepth depth rest := by
  rw [returnsAmong, Syntax.returnsIn_of_isReturnFree node expression.returnFree]
  split <;> rfl

mutual

theorem Padded.returnsIn {maxDepth : Nat} : ∀ (node : Node) {padded : Node} {depth : Nat},
    Padded node padded →
    List.Forall₂ Padded (returnsIn maxDepth depth node) (returnsIn maxDepth depth padded)
  | ⟨kind, role, span, lexeme, children⟩, _, depth, .node row => by
    rw [Component.returnsIn, Component.returnsIn]
    split
    · exact .cons (.node row) .nil
    · split
      · exact .nil
      · exact row.returnsAmong

theorem PaddedRow.returnsAmong {maxDepth : Nat} : ∀ {nodes found : List Node}
    {takes : Role → Bool} {depth : Nat}, PaddedRow takes nodes found →
    List.Forall₂ Padded (returnsAmong maxDepth depth nodes) (returnsAmong maxDepth depth found)
  | _, _, _, _, .nil => .nil
  | _, _, _, _, .keep _ pads row => by
    rw [Component.returnsAmong, Component.returnsAmong, pads.isNamed]
    split
    · exact List.rel_append (Padded.returnsIn _ pads) row.returnsAmong
    · exact row.returnsAmong
  | _, _, _, _, .cover _ _ expression expression' _ _ row => by
    -- what is covered and what covers it may nest differently deep: neither has return statements
    rw [returnsAmong_cons_of_isExpression expression, returnsAmong_cons_of_isExpression expression']
    exact row.returnsAmong

end

section Functions

variable {node padded : Node}

theorem Padded.returnsMarkup (pads : Padded node padded) :
    returnsMarkup padded = returnsMarkup node := by
  have values :
      Option.Rel (Fits (takesCovers node)) node.firstMeaningful? padded.firstMeaningful? :=
    find?_of_forall₂ pads.children.fits fun _ _ fits => fits.isMeaningful
  rw [Component.returnsMarkup, Component.returnsMarkup]
  refine any_of_rel values fun value value' fits => ?_
  obtain ⟨inner, same, covers⟩ := fits.covered
  rw [isMarkup_of_covers covers, Padded.isMarkup value same]

theorem Padded.functionRenders (pads : Padded node padded) (maxDepth : Nat) :
    functionRenders maxDepth padded = functionRenders maxDepth node := by
  rw [Component.functionRenders, Component.functionRenders]
  obtain ⟨absent, absent'⟩ | ⟨body, body', present, present', same⟩ :=
    cases_of_rel (pads.child?_exact .body (takesCovers_of_role node (by decide)))
  · rw [absent, absent']
  · have found : List.Forall₂ Padded (returnsAmong maxDepth 1 body.children)
        (returnsAmong maxDepth 1 body'.children) := same.children.returnsAmong
    simp only [present, present', same.kind, isEmpty_of_forall₂ found,
      any_of_forall₂ found fun _ _ => Padded.returnsMarkup, Padded.isMarkup body same]

end Functions

/-! ## Classes -/

section Classes

variable {node padded : Node}

theorem Padded.superclasses (pads : Padded node padded)
    (isClass : Declaration.isClassKind node.kind = true) :
    List.Forall₂ Padded (superclasses node) (superclasses padded) := by
  have noClass : ∀ kind ∈ [Kind.ternary, .binary, .call], Declaration.isClassKind kind = false := by
    decide
  have other : node.kind ∉ [.ternary, .binary, .call] := fun takes => by
    simp [noClass _ takes] at isClass
  refine List.rel_flatMap (filter_of_forall₂ (pads.forall₂_namedChildren other)
    (·.kind == .classHeritage) fun _ _ child => by rw [child.kind]) ?_
  rintro heritage heritage' ⟨isHeritage, same⟩
  have parts := same.forall₂_namedChildren (by simp [beq_iff_eq.mp isHeritage])
  have clauses := filter_of_forall₂ parts (·.kind == .extendsClause)
    fun _ _ child => by rw [child.kind]
  simp only [isEmpty_of_forall₂ clauses]
  split
  · exact (filter_of_forall₂ parts (·.kind != .implementsClause)
      fun _ _ child => by rw [child.kind]).imp fun _ _ => And.right
  · refine List.rel_flatMap clauses ?_
    rintro clause clause' ⟨isClause, same⟩
    have values := same.children.exact (takesCovers_of_kind (by simp [beq_iff_eq.mp isClause]))
    exact (filter_of_forall₂ values (·.role == .value)
      fun _ _ child => by rw [child.1]).imp fun _ _ child => child.2.2

theorem Padded.extendsBase (pads : Padded node padded)
    (isClass : Declaration.isClassKind node.kind = true) (baseClasses : List String) :
    extendsBase baseClasses padded = extendsBase baseClasses node :=
  any_of_forall₂ (pads.superclasses isClass) fun _ _ same => by rw [same.referenceName?]

theorem not_member_of_isExpression (expression : IsExpression node) :
    (node.kind == .methodDefinition || node.kind == .fieldDefinition) = false := by
  have solid := expression.solid
  simp only [Kind.isSolid, Bool.and_eq_true, Syntax.memberKinds] at solid
  simpa using And.intro (fun isMethod => by simp [isMethod] at solid)
    (fun isField => by simp [isField] at solid)

/-- The name of a member stays. -/
theorem Padded.isNamedRender (pads : Padded node padded) :
    (padded.child? .name).any (·.lexeme == "render")
      = (node.child? .name).any (·.lexeme == "render") :=
  any_of_rel (pads.child?_exact .name (takesCovers_of_role node (by decide)))
    fun _ _ same => by rw [same.lexeme]

theorem Padded.definesRender (pads : Padded node padded) :
    definesRender padded = definesRender node := by
  rw [Component.definesRender, Component.definesRender]
  refine any_of_rel (pads.child?_exact .body (takesCovers_of_role node (by decide)))
    fun body body' same => ?_
  rw [Node.namedChildren, Node.namedChildren, List.any_filter, List.any_filter]
  refine any_of_forall₂ same.children.fits fun member member' fits => ?_
  rcases fits.kept with pads | ⟨-, expression, expression'⟩
  · rw [pads.isNamed, pads.kind, pads.isNamedRender]
  · rw [not_member_of_isExpression expression, not_member_of_isExpression expression']
    simp

end Classes

/-! ## Verdicts -/

section Verdicts

variable {node padded cover : Node}

theorem Padded.isComponentValue (pads : Padded node padded) (criteria : Criteria) :
    criteria.isComponentValue padded = criteria.isComponentValue node := by
  rw [Criteria.isComponentValue, Criteria.isComponentValue, pads.kind, pads.functionRenders,
    pads.calleeName?]

theorem not_functionDeclaration_of_isExpression (expression : IsExpression node) :
    (node.kind == .functionDeclaration) = false := by
  have solid := expression.solid
  simp only [Kind.isSolid, Bool.and_eq_true, Syntax.declarationKinds] at solid
  simpa using fun isFunction => by simp [isFunction] at solid

/-- Neither an expression nor a cover is a function declaration. -/
theorem not_functionDeclaration_of_covers (expression : IsExpression node)
    (pads : Padded node padded) (covers : ReflTransGen Covers cover padded) :
    (cover.kind == .functionDeclaration) = false := by
  rcases covers.cases_head with rfl | ⟨inner, covers, -⟩
  · rw [pads.kind]
    exact not_functionDeclaration_of_isExpression expression
  · simpa using fun isFunction => by simpa [isFunction, Kind.isTransparent] using covers.transparent

/-- Every rule says of the padded value what it says of the value. The verdicts follow from it, as
they are made of rules alone. -/
theorem holds_of_padded (expression : IsExpression node) (pads : Padded node padded)
    (covers : ReflTransGen Covers cover padded) (criteria : Criteria) (name : String)
    (exportKind : ExportKind) (rule : Rule) :
    criteria.holds ⟨name, .initializer, exportKind, some cover⟩ rule
      = criteria.holds ⟨name, .initializer, exportKind, some node⟩ rule := by
  have values : Option.Rel Padded node.unwrap cover.unwrap := by
    rw [Syntax.unwrap_of_covers covers]
    exact Padded.unwrap node pads
  cases rule with
  | componentName => rfl
  | defaultIdentifier => rfl
  | functionReturnsMarkup =>
    simp only [Criteria.holds, Option.any_some, not_functionDeclaration_of_isExpression expression,
      not_functionDeclaration_of_covers expression pads covers, Bool.false_and]
  | classComponent =>
    refine any_of_rel values fun value value' same => ?_
    rw [same.kind, same.definesRender]
    cases isClass : Declaration.isClassKind value.kind with
    | true => rw [same.extendsBase isClass]
    | false => rfl
  | componentInitializer =>
    exact any_of_rel values fun _ _ same => same.isComponentValue criteria

/-- Covers change no answer. With covers around branches, operands and callees anywhere in an
expression and more of them around it, what is unwrapped is the first node that is no cover, and
markup, calls, references, likely components and exported variables are judged as for the bare
expression. -/
theorem verdicts_of_padded (expression : IsExpression node) (pads : Padded node padded)
    (covers : ReflTransGen Covers cover padded) :
    (∀ value, cover.unwrap = some value ↔
        ReflTransGen Covers cover value ∧ value.kind.isTransparent = false)
      ∧ (node.kind.isTransparent = false → cover.unwrap = some padded)
      ∧ isMarkup cover = isMarkup node
      ∧ (∀ name, cover.isCallTo name = node.isCallTo name)
      ∧ cover.referenceName? = node.referenceName?
      ∧ (∀ helpers, Wrap.isLikelyComponent helpers cover = Wrap.isLikelyComponent helpers node)
      ∧ ∀ (criteria : Criteria) name exportKind,
        criteria.verdict ⟨name, .initializer, exportKind, some cover⟩
            = criteria.verdict ⟨name, .initializer, exportKind, some node⟩
          ∧ criteria.accepts ⟨name, .initializer, exportKind, some cover⟩
            = criteria.accepts ⟨name, .initializer, exportKind, some node⟩ := by
  have looked := Syntax.unwrap_of_covers covers
  refine ⟨fun _ => Syntax.unwrap_eq_some_iff, fun solid => ?_, ?_, fun name => ?_, ?_,
    fun helpers => ?_, fun criteria name exportKind => ?_⟩
  · rw [looked, Node.unwrap_of_not_transparent (by rw [pads.kind, solid])]
  · rw [isMarkup_of_covers covers, Padded.isMarkup node pads]
  · rw [← pads.isCallTo, Node.isCallTo, Node.isCallTo, looked]
  · rw [← pads.referenceName?, Node.referenceName?, Node.referenceName?, looked]
  · rw [← pads.isLikelyComponent, Wrap.isLikelyComponent, Wrap.isLikelyComponent, looked]
  · have same := funext (holds_of_padded expression pads covers criteria name exportKind)
    constructor
    · rw [Criteria.verdict, Criteria.verdict, same]
    · rw [Criteria.accepts, Criteria.accepts, same]

/-- A node of one piece, wherever it stands. -/
def leaf (kind : Kind) (role : Role) (text : String) : Node :=
  ⟨kind, role, default, text, []⟩

/-- The call of something on `Card`. -/
def cardCall (callee : Node) : Node :=
  ⟨.call, .plain, default, "", [callee, ⟨.arguments, .plain, default, "",
    [leaf .token .plain "(", leaf .identifier .plain "Card", leaf .token .plain ")"]⟩]⟩

/-- `(/* kept */ memo)`, as what is called. -/
def coveredMemo : Node :=
  ⟨.parenthesized, .callee, default, "", [leaf .token .plain "(", leaf .comment .plain "/* kept */",
    leaf .identifier .plain "memo", leaf .token .plain ")"]⟩

/-- `((/* kept */ memo)(Card) as Wrapped)!`. -/
def coveredCall : Node :=
  ⟨.nonNull, .plain, default, "", [⟨.parenthesized, .plain, default, "", [leaf .token .plain "(",
    ⟨.asExpression, .plain, default, "", [cardCall coveredMemo, leaf .token .plain "as",
      leaf .type .plain "Wrapped"]⟩, leaf .token .plain ")"]⟩, leaf .token .plain "!"]⟩

/-- `((/* kept */ memo)(Card) as Wrapped)!` is judged as `memo(Card)` is. -/
theorem verdicts_of_padded_memoCall :
    IsExpression (cardCall (leaf .identifier .callee "memo"))
      ∧ Padded (cardCall (leaf .identifier .callee "memo")) (cardCall coveredMemo)
      ∧ ReflTransGen Covers coveredCall (cardCall coveredMemo)
      ∧ coveredCall.unwrap = some (cardCall coveredMemo) ∧ coveredCall.isCallTo "memo" = true
      ∧ Criteria.standard.verdict ⟨"Shown", .initializer, .named, some coveredCall⟩
        = .accepted .componentInitializer := by
  have expression : IsExpression (cardCall (leaf .identifier .callee "memo")) := ⟨rfl, rfl⟩
  have name : Padded (leaf .identifier .callee "memo") (leaf .identifier .plain "memo") :=
    .node .nil
  have named : Covers coveredMemo (leaf .identifier .plain "memo") :=
    ⟨rfl, rfl, [leaf .token .plain "(", leaf .comment .plain "/* kept */"],
      [leaf .token .plain ")"], rfl, by decide⟩
  have pads : Padded (cardCall (leaf .identifier .callee "memo")) (cardCall coveredMemo) :=
    .node (.cover rfl rfl ⟨rfl, rfl⟩ ⟨rfl, rfl⟩ name (.single named) (.refl _ _))
  have covers : ReflTransGen Covers coveredCall (cardCall coveredMemo) :=
    .head ⟨rfl, rfl, [], [leaf .token .plain "!"], rfl, by simp⟩
      (.head ⟨rfl, rfl, [leaf .token .plain "("], [leaf .token .plain ")"], rfl, by decide⟩
        (.single ⟨rfl, rfl, [], [leaf .token .plain "as", leaf .type .plain "Wrapped"], rfl,
          by simp⟩))
  obtain ⟨-, unwraps, -, calls, -, -, judges⟩ := verdicts_of_padded expression pads covers
  refine ⟨expression, pads, covers, unwraps rfl, (calls "memo").trans (by decide), ?_⟩
  rw [(judges _ _ _).1]
  decide

end Verdicts

end RenderProbe.Component
