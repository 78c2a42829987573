import Mathlib.Data.List.Basic
import RenderProbe.Proofs.Syntax.SingleNode

/-!
# Expressions hold no return statements

A return statement belongs to the function whose body it stands in. So whatever an expression holds,
the return statements in it belong to functions and classes in it, not to the function around it,
and the scan for return statements finds nothing in an expression.

* `Node.isReturnFree`: a tree with no return statement of the function around it.
* `returnsIn_of_isReturnFree`: the scan finds nothing in such a tree.
* `IsExpression`: a node that may stand for a value.
* `ReturnFree` and its combinators: parsers of such trees. A function or class may hold what it
  likes.
-/

namespace RenderProbe.Syntax

open Component (isScopeBoundary returnsIn returnsAmong)

mutual

/-- Whether no return statement stands in a node other than in functions and classes in it. -/
def Node.isReturnFree : Node → Bool
  | ⟨kind, _, _, _, children⟩ =>
    kind != .returnStatement && (isScopeBoundary kind || areReturnFree children)

/-- Whether no return statement stands in a row of nodes other than in functions and classes. -/
def Node.areReturnFree : List Node → Bool
  | [] => true
  | node :: rest => node.isReturnFree && areReturnFree rest

end

theorem areReturnFree_iff {nodes : List Node} :
    Node.areReturnFree nodes = true ↔ ∀ node ∈ nodes, node.isReturnFree = true := by
  induction nodes with
  | nil => simp [Node.areReturnFree]
  | cons node rest ih => simp [Node.areReturnFree, ih]

mutual

/-- A scan for return statements finds none, at whatever depth it comes to the node. -/
theorem returnsIn_of_isReturnFree {maxDepth : Nat} : ∀ (node : Node) {depth : Nat},
    node.isReturnFree = true → returnsIn maxDepth depth node = []
  | ⟨kind, role, span, lexeme, children⟩, depth, free => by
    simp only [Node.isReturnFree, Bool.and_eq_true, bne_iff_ne, Bool.or_eq_true] at free
    have other : (kind == .returnStatement) = false := by simpa using free.1
    rw [returnsIn, if_neg (by simp [other])]
    split
    · rfl
    · next entered =>
      simp only [Bool.or_eq_true, decide_eq_true_eq, not_or] at entered
      exact returnsAmong_of_areReturnFree children (free.2.resolve_left entered.1)

theorem returnsAmong_of_areReturnFree {maxDepth : Nat} : ∀ (nodes : List Node) {depth : Nat},
    Node.areReturnFree nodes = true → returnsAmong maxDepth depth nodes = []
  | [], _, _ => rfl
  | node :: rest, depth, free => by
    simp only [Node.areReturnFree, Bool.and_eq_true] at free
    rw [returnsAmong, returnsIn_of_isReturnFree node free.1,
      returnsAmong_of_areReturnFree rest free.2]
    split <;> rfl

end

/-- A node that may stand for a value: no mark, comment, declaration or member of a class, and
without return statements of the function around it. -/
structure IsExpression (node : Node) : Prop where
  solid : node.kind.isSolid = true
  returnFree : node.isReturnFree = true

/-! ## Combinators -/

/-- Whatever the parser reads is free of return statements of the function around it. -/
def ReturnFree (p : Parser) : Prop :=
  Ensures (fun node => node.isReturnFree = true) p

theorem isReturnFree_of_isTrivia : SparesTrivia fun node => node.isReturnFree = true := by
  rintro ⟨kind, role, span, lexeme, children⟩ trivia
  obtain rfl : kind = .comment := Node.kind_of_isTrivia trivia
  obtain rfl : children = [] := Node.children_of_isTrivia trivia
  rfl

theorem isReturnFree_withRole {node : Node} (role : Role) (free : node.isReturnFree = true) :
    (node.withRole role).isReturnFree = true := by
  cases node
  exact free

namespace ReturnFree

variable {p item separator : Parser} {ps : List Parser} {kind : Kind} {kindOf : Forest → Kind}
  {scan : List Char → Nat} {rounds : Nat} {close : String}

theorem leaf (other : (kind == .returnStatement) = false) : ReturnFree (leaf kind scan) :=
  Ensures.leaf isReturnFree_of_isTrivia fun _ _ _ => by
    simpa [Node.isReturnFree, Node.areReturnFree] using other

theorem rawLeaf (other : (kind == .returnStatement) = false) : ReturnFree (rawLeaf kind scan) := by
  intro cursor nodes stop read node member
  unfold Syntax.rawLeaf at read
  split at read
  · cases read
  · cases read
    obtain rfl := List.mem_singleton.mp member
    simpa [Node.isReturnFree, Node.areReturnFree] using other

theorem fail : ReturnFree fun _ => none := by
  intro cursor nodes stop read
  cases read

theorem nothing : ReturnFree nothing :=
  Ensures.done

theorem seq (parts : ps.Forall ReturnFree) : ReturnFree (seq ps) := by
  induction ps with
  | nil => exact Ensures.done
  | cons p ps ih =>
    obtain ⟨first, others⟩ := List.forall_cons _ _ _ |>.mp parts
    exact Ensures.andThen first (ih others)

theorem firstOf (parts : ps.Forall ReturnFree) : ReturnFree (firstOf ps) := by
  induction ps with
  | nil => exact Ensures.fail
  | cons p ps ih =>
    obtain ⟨first, others⟩ := List.forall_cons _ _ _ |>.mp parts
    exact Ensures.orElse first (ih others)

theorem optional (part : ReturnFree p) : ReturnFree (optional p) :=
  Ensures.optional part

theorem many (part : ReturnFree p) : ReturnFree (many rounds p) :=
  Ensures.many part rounds

theorem sameLine (part : ReturnFree p) : ReturnFree (sameLine p) :=
  Ensures.sameLine part

theorem whenAhead {test : List Char → Bool} (part : ReturnFree p) : ReturnFree (whenAhead test p) :=
  Ensures.whenAhead part test

theorem onlyIf {test : Cursor → Prop} [DecidablePred test] (part : ReturnFree p) :
    ReturnFree fun cursor => if test cursor then p cursor else none := by
  intro cursor nodes stop read
  dsimp only at read
  split at read
  · exact part read
  · cases read

theorem listUntil (part : ReturnFree item) : ReturnFree (listUntil rounds item close) := by
  induction rounds with
  | zero => exact fail
  | succ rounds ih =>
    have ends : ReturnFree (Syntax.firstOf
        [Syntax.seq [Syntax.mark ",", Syntax.listUntil rounds item close], Syntax.mark close]) :=
      firstOf ⟨seq ⟨leaf rfl, ih⟩, leaf rfl⟩
    refine firstOf ⟨leaf rfl, fun cursor nodes stop read node member => ?_⟩
    dsimp only at read
    split at read
    · cases read
    · next found =>
      split at read
      · cases read
      · next further =>
        cases read
        rcases List.mem_append.mp member with here | later
        · exact part found node here
        · exact ends further node later

theorem separated (part : ReturnFree item) (between : ReturnFree separator) :
    ReturnFree (separated rounds item separator) :=
  seq ⟨part, many (seq ⟨between, part⟩)⟩

theorem node (other : (kind == .returnStatement) = false) (part : ReturnFree p) :
    ReturnFree (node kind p) :=
  Ensures.nodeBy isReturnFree_of_isTrivia fun cursor children stop read span => by
    simpa [Node.isReturnFree, areReturnFree_iff.mpr (part read)] using other

/-- Functions and classes may hold what they like. -/
theorem closed (closes : ∀ nodes, isScopeBoundary (kindOf nodes) = true) :
    ReturnFree (nodeBy kindOf p) :=
  Ensures.nodeBy isReturnFree_of_isTrivia fun cursor children stop read span => by
    have other : kindOf children ≠ .returnStatement := fun same => by
      simpa [same, isScopeBoundary] using closes children
    simp [Node.isReturnFree, other, closes children]

theorem role {r : Role} (part : ReturnFree p) : ReturnFree (role r p) :=
  Ensures.role part fun _ free => ⟨free, isReturnFree_withRole r free⟩

/-- An operand that grows into a node keeps what it holds. -/
theorem grow {r : Role} {more operand : Forest} {stop : Cursor}
    (other : (kind == .returnStatement) = false)
    (operands : ∀ node ∈ operand, node.isReturnFree = true)
    (free : ∀ node ∈ more, node.isReturnFree = true) :
    ∀ node ∈ grow kind r more stop operand, node.isReturnFree = true := by
  induction operand with
  | nil => simp [Syntax.grow]
  | cons first rest ih =>
    cases rest with
    | nil =>
      intro node member
      obtain rfl := List.mem_singleton.mp member
      have inner := isReturnFree_withRole r (operands first List.mem_cons_self)
      simpa [Node.isReturnFree, Node.areReturnFree, inner, areReturnFree_iff.mpr free] using other
    | cons second others =>
      intro node member
      rcases List.mem_cons.mp member with rfl | later
      · exact operands node List.mem_cons_self
      · exact ih (fun other inRest => operands other (List.mem_cons_of_mem _ inRest)) node later

end ReturnFree

end RenderProbe.Syntax
