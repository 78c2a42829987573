import Mathlib.Logic.Relation
import RenderProbe.Proofs.Syntax.SingleNode

/-!
# Covers

A transparent node covers the expression in it: parentheses, an asserted type or the non-null mark,
with nothing but marks and comments before the expression. `Node.unwrap` takes covers off, one after
the other.

* `Covers`: one cover. Each step inwards leads to a smaller tree (`wellFounded_covers`).
* `unwrap_eq_some_iff`: what is unwrapped is the first node under the covers that is none itself.
* `covers_of_parenthesized`, `covers_of_grow`: what the grammar makes of parentheses covers the
  expression in them, and what it makes of the words and marks behind an operand covers the operand.
-/

namespace RenderProbe.Syntax

open Relation (ReflTransGen)

/-- A transparent node around an expression. -/
structure Covers (cover inner : Node) : Prop where
  transparent : cover.kind.isTransparent = true
  meaningful : inner.isMeaningful = true
  /-- Only marks, keywords and comments stand before the expression. -/
  first : ∃ before after, cover.children = before ++ inner :: after
    ∧ ∀ node ∈ before, node.isMeaningful = false

section Covers

variable {cover inner value : Node} {before after : List Node}

theorem unwrapFirst_of_inert (inert : ∀ node ∈ before, node.isMeaningful = false)
    (meaningful : inner.isMeaningful = true) :
    Node.unwrapFirst (before ++ inner :: after) = inner.unwrap := by
  induction before with
  | nil => simp [Node.unwrapFirst, meaningful]
  | cons node rest ih =>
    rw [List.cons_append, Node.unwrapFirst, inert node List.mem_cons_self]
    exact ih fun other later => inert other (List.mem_cons_of_mem _ later)

/-- A cover takes nothing away from what is under it. -/
theorem Covers.unwrap_eq (covers : Covers cover inner) : cover.unwrap = inner.unwrap := by
  obtain ⟨kind, role, span, lexeme, children⟩ := cover
  obtain ⟨transparent, meaningful, before, after, rfl, inert⟩ := covers
  rw [Node.unwrap, if_pos transparent, unwrapFirst_of_inert inert meaningful]

theorem unwrap_of_covers (covers : ReflTransGen Covers cover inner) :
    cover.unwrap = inner.unwrap := by
  induction covers with
  | refl => rfl
  | tail _ covers ih => exact ih.trans covers.unwrap_eq

theorem Covers.sizeOf_lt (covers : Covers cover inner) : sizeOf inner < sizeOf cover := by
  obtain ⟨kind, role, span, lexeme, children⟩ := cover
  obtain ⟨-, -, before, after, rfl, -⟩ := covers
  have member : inner ∈ before ++ inner :: after := by simp
  have smaller := List.sizeOf_lt_of_mem member
  simp only [Node.mk.sizeOf_spec]
  omega

/-- No tree has endlessly many covers. A cover has what it covers as a child, so the trees get
smaller. -/
theorem wellFounded_covers : WellFounded fun inner cover => Covers cover inner :=
  Subrelation.wf (fun covers => covers.sizeOf_lt) (measure sizeOf).wf

mutual

/-- What is unwrapped stands under the covers of the node, and is no cover. -/
theorem covers_of_unwrap : ∀ cover : Node, cover.unwrap = some value →
    ReflTransGen Covers cover value ∧ value.kind.isTransparent = false
  | ⟨kind, role, span, lexeme, children⟩, found => by
    rw [Node.unwrap] at found
    split at found
    case isTrue transparent =>
      obtain ⟨before, inner, after, rfl, inert, meaningful, covers, solid⟩ :=
        exists_of_unwrapFirst children found
      exact ⟨.head ⟨transparent, meaningful, before, after, rfl, inert⟩ covers, solid⟩
    case isFalse solid =>
      obtain rfl := Option.some.inj found
      exact ⟨.refl, Bool.eq_false_iff.mpr solid⟩

theorem exists_of_unwrapFirst : ∀ nodes : List Node, Node.unwrapFirst nodes = some value →
    ∃ before inner after, nodes = before ++ inner :: after
      ∧ (∀ node ∈ before, node.isMeaningful = false) ∧ inner.isMeaningful = true
      ∧ ReflTransGen Covers inner value ∧ value.kind.isTransparent = false
  | [], found => by cases found
  | node :: rest, found => by
    rw [Node.unwrapFirst] at found
    split at found
    case isTrue meaningful =>
      obtain ⟨covers, solid⟩ := covers_of_unwrap node found
      exact ⟨[], node, rest, rfl, by simp, meaningful, covers, solid⟩
    case isFalse inert =>
      obtain ⟨before, inner, after, rfl, inerts, others⟩ := exists_of_unwrapFirst rest found
      refine ⟨node :: before, inner, after, rfl, ?_, others⟩
      intro other member
      rcases List.mem_cons.mp member with rfl | later
      · exact Bool.eq_false_iff.mpr inert
      · exact inerts other later

end

/-- Unwrapping a node gives the first node under its covers that is no cover itself. There is at
most one, since the covers of a node stand in a row. -/
theorem unwrap_eq_some_iff :
    cover.unwrap = some value ↔
      ReflTransGen Covers cover value ∧ value.kind.isTransparent = false := by
  constructor
  · exact covers_of_unwrap cover
  · rintro ⟨covers, solid⟩
    rw [unwrap_of_covers covers, Node.unwrap_of_not_transparent solid]

end Covers

/-! ## Covers in the grammar -/

section Grammar

variable {operand nodes : Forest} {kind : Kind} {cursor stop : Cursor}

theorem not_isMeaningful_of_isTrivia {node : Node} (trivia : node.isTrivia = true) :
    node.isMeaningful = false := by
  simp [Node.isMeaningful, Node.kind_of_isTrivia trivia]

/-- A transparent node that an operand grows into covers the operand. -/
theorem covers_of_grow (single : operand.IsSingle) (transparent : kind.isTransparent = true)
    (r : Role) (more : Forest) (stop : Cursor) :
    ∃ comments inner cover, operand = comments ++ [inner]
      ∧ grow kind r more stop operand = comments ++ [cover] ∧ Covers cover (inner.withRole r) := by
  obtain ⟨comments, inner, rfl, -, solid, -⟩ := single
  have grown : ∃ cover, grow kind r more stop (comments ++ [inner]) = comments ++ [cover]
      ∧ Covers cover (inner.withRole r) := by
    induction comments with
    | nil =>
      exact ⟨_, rfl, transparent, isMeaningful_of_isSolid solid, [], more, rfl, by simp⟩
    | cons first rest ih =>
      obtain ⟨cover, same, covers⟩ := ih
      refine ⟨cover, ?_, covers⟩
      rw [List.cons_append, List.cons_append, ← same]
      cases rest <;> rfl
  obtain ⟨cover, same, covers⟩ := grown
  exact ⟨comments, inner, cover, rfl, same, covers⟩

/-- Parentheses cover the expression that is read in them. -/
theorem covers_of_parenthesized {g : Grammar} (calls : g.CallsSingle)
    (read : parenthesized g cursor = some (nodes, stop)) :
    ∃ comments cover before inner start next, nodes = comments ++ [cover] ∧ Covers cover inner
      ∧ g.call (.expression true) start = some (before ++ [inner], next) := by
  have inert : Ensures (fun node => node.isMeaningful = false) (mark "(") :=
    Ensures.mark (fun _ => not_isMeaningful_of_isTrivia) fun _ => rfl
  simp only [parenthesized, node, nodeBy] at read
  split at read
  · cases read
  · next children stop found =>
    cases read
    obtain ⟨opening, _, _, opens, behind, rfl⟩ := seq_cons_eq_some.mp found
    obtain ⟨_, next, closing, expression, -, rfl⟩ := seq_cons_eq_some.mp behind
    obtain ⟨comments, inner, rfl, trivia, solid, -⟩ := calls _ rfl expression
    refine ⟨_, _, comments, inner, _, next, rfl, ⟨rfl, isMeaningful_of_isSolid solid,
      opening ++ comments, closing, by simp, fun node member => ?_⟩, expression⟩
    rcases List.mem_append.mp member with mark | comment
    · exact inert opens node mark
    · exact not_isMeaningful_of_isTrivia (trivia node comment)

end Grammar

end RenderProbe.Syntax
