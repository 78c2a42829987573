import Mathlib.Logic.Relation
import RenderProbe.Component.Rendering
import RenderProbe.Syntax.Program

/-!
# The scan for return statements

What `functionRenders` finds, and that no order of looking for it finds anything else.

* `Below`: the nodes a scan reaches from a body, with their depths. Return statements and nodes with
  returns of their own are reached and not entered.
* `Returned`: the return statements of a function that stand within the bound.
* `mem_returnsAmong_iff`: they are the statements `functionRenders` looks at.
* `Search`: the scan as a loop over pending nodes that may take any of them next. A step keeps the
  verdict (`Search.Step.verdict_eq`) and makes the search smaller (`Search.Step.weight_lt`).
* `functionRenders_meets_spec`: the verdict on every function, and that every search comes to it.
-/

namespace RenderProbe.Component

open Syntax (Node Kind Role)
open Relation (ReflTransGen)

/-! ## What a scan reaches -/

/-- A node a scan reaches from a body, at its depth: a named child of the body, or of a reached node
that is no return statement and has no returns of its own. -/
inductive Below (body : Node) : Nat → Node → Prop
  | child {node : Node} : node ∈ body.namedChildren → Below body 1 node
  | deeper {depth : Nat} {parent node : Node} :
    Below body depth parent → parent.kind ≠ .returnStatement → isScopeBoundary parent.kind = false →
    node ∈ parent.namedChildren → Below body (depth + 1) node

/-- A return statement of a function: one that is reached from the body within the bound. It does
not say in which order the nodes on the way are looked at. -/
def Returned (body : Node) (bound : Int) (statement : Node) : Prop :=
  statement.kind = .returnStatement
    ∧ ∃ depth : Nat, (depth : Int) ≤ max 1 bound ∧ Below body depth statement

variable {body node statement : Node} {nodes : List Node} {bound : Int} {depth maxDepth : Nat}

theorem Below.depth_pos (below : Below body depth node) : 0 < depth := by
  cases below <;> omega

theorem mem_namedChildren : node ∈ body.namedChildren ↔ node ∈ body.children ∧ node.isNamed := by
  simp [Node.namedChildren]

/-! ## The list of return statements -/

theorem returnsIn_of_return (isReturn : node.kind = .returnStatement) :
    returnsIn maxDepth depth node = [node] := by
  obtain ⟨kind, role, span, lexeme, children⟩ := node
  simp_all [returnsIn]

theorem returnsIn_of_closed (other : node.kind ≠ .returnStatement)
    (closed : isScopeBoundary node.kind = true ∨ maxDepth ≤ depth) :
    returnsIn maxDepth depth node = [] := by
  obtain ⟨kind, role, span, lexeme, children⟩ := node
  simp_all [returnsIn]

theorem returnsIn_of_open (other : node.kind ≠ .returnStatement)
    (entered : isScopeBoundary node.kind = false) (within : depth < maxDepth) :
    returnsIn maxDepth depth node = returnsAmong maxDepth (depth + 1) node.children := by
  obtain ⟨kind, role, span, lexeme, children⟩ := node
  have deep : ¬maxDepth ≤ depth := by omega
  simp only at other entered
  simp [returnsIn, other, entered, deep]

theorem returnsAmong_eq_flatMap :
    returnsAmong maxDepth depth nodes
      = (nodes.filter Node.isNamed).flatMap (returnsIn maxDepth depth) := by
  induction nodes with
  | nil => rfl
  | cons node rest ih => cases named : node.isNamed <;> simp [returnsAmong, named, ih]

theorem mem_returnsAmong :
    statement ∈ returnsAmong maxDepth depth nodes ↔
      ∃ node ∈ nodes, node.isNamed ∧ statement ∈ returnsIn maxDepth depth node := by
  simp [returnsAmong_eq_flatMap, and_assoc]

/-- What is listed in a reached node is listed in the body. -/
theorem Below.returnsIn_subset (below : Below body depth node)
    (within : (depth : Int) ≤ max 1 bound) (member : statement ∈ returnsIn bound.toNat depth node) :
    statement ∈ returnsAmong bound.toNat 1 body.children := by
  induction below with
  | child isChild =>
    have listed := mem_namedChildren.mp isChild
    exact mem_returnsAmong.mpr ⟨_, listed.1, listed.2, member⟩
  | deeper below other entered isChild ih =>
    have positive := below.depth_pos
    have listed := mem_namedChildren.mp isChild
    apply ih (by omega)
    rw [returnsIn_of_open other entered (by omega)]
    exact mem_returnsAmong.mpr ⟨_, listed.1, listed.2, member⟩

mutual

/-- A statement listed in a reached node is a return statement of the function. -/
theorem Below.returned : ∀ (node : Node) {depth : Nat}, Below body depth node →
    (depth : Int) ≤ max 1 bound → statement ∈ returnsIn bound.toNat depth node →
    Returned body bound statement
  | ⟨kind, role, span, lexeme, children⟩, depth, below, within, member => by
    by_cases isReturn : kind = .returnStatement
    · rw [returnsIn_of_return isReturn, List.mem_singleton] at member
      subst member
      exact ⟨isReturn, depth, within, below⟩
    · by_cases closed : isScopeBoundary kind = true ∨ bound.toNat ≤ depth
      · rw [returnsIn_of_closed isReturn closed] at member
        cases member
      · simp only [not_or, Bool.not_eq_true, Nat.not_le] at closed
        rw [returnsIn_of_open isReturn closed.1 closed.2] at member
        refine returned_of_mem_returnsAmong children (fun child isChild named => ?_) ?_ member
        · exact .deeper below isReturn closed.1 (mem_namedChildren.mpr ⟨isChild, named⟩)
        · omega

/-- A statement listed in a row of reached nodes is a return statement of the function. -/
theorem returned_of_mem_returnsAmong : ∀ (nodes : List Node) {depth : Nat},
    (∀ node ∈ nodes, node.isNamed → Below body depth node) → (depth : Int) ≤ max 1 bound →
    statement ∈ returnsAmong bound.toNat depth nodes → Returned body bound statement
  | [], _, _, _, member => by cases member
  | node :: rest, depth, below, within, member => by
    have later : statement ∈ returnsAmong bound.toNat depth rest → Returned body bound statement :=
      returned_of_mem_returnsAmong rest (fun node isMember => below node (.tail _ isMember)) within
    rw [returnsAmong] at member
    split at member
    case isTrue named =>
      rcases List.mem_append.mp member with here | there
      · exact Below.returned node (below node (.head _) named) within here
      · exact later there
    case isFalse => exact later member

end

/-- The list holds the return statements of the function, and no other node. So the list of the
program can stand for the relation, and the other way round. -/
theorem mem_returnsAmong_iff :
    statement ∈ returnsAmong bound.toNat 1 body.children ↔ Returned body bound statement := by
  constructor
  · intro member
    refine returned_of_mem_returnsAmong body.children (fun node isChild named => ?_) ?_ member
    · exact .child (mem_namedChildren.mpr ⟨isChild, named⟩)
    · omega
  · rintro ⟨isReturn, depth, within, below⟩
    apply below.returnsIn_subset within
    rw [returnsIn_of_return isReturn]
    exact List.mem_singleton_self statement

/-! ## Searches in any order -/

/-- A search for return statements: nodes still to visit, at their depths, and whether a return
statement was met so far; or the verdict. -/
inductive Search where
  | visiting (pending : List (Node × Nat)) (found : Bool)
  | settled (verdict : Bool)

namespace Search

/-- The search of a body before its first step. -/
def start (body : Node) : Search :=
  .visiting (body.namedChildren.map (·, 1)) false

/-- One step of a search: take any pending node, or come to an end when there is none. A search in a
fixed order is one of many that take such steps. -/
inductive Step (bound : Int) : Search → Search → Prop
  | accept {pending rest : List (Node × Nat)} {node : Node} {depth : Nat} {found : Bool} :
    pending.Perm ((node, depth) :: rest) → node.kind = .returnStatement →
      returnsMarkup node = true →
    Step bound (.visiting pending found) (.settled true)
  | note {pending rest : List (Node × Nat)} {node : Node} {depth : Nat} {found : Bool} :
    pending.Perm ((node, depth) :: rest) → node.kind = .returnStatement →
      returnsMarkup node = false →
    Step bound (.visiting pending found) (.visiting rest true)
  | skip {pending rest : List (Node × Nat)} {node : Node} {depth : Nat} {found : Bool} :
    pending.Perm ((node, depth) :: rest) → node.kind ≠ .returnStatement →
    isScopeBoundary node.kind = true ∨ bound ≤ depth →
    Step bound (.visiting pending found) (.visiting rest found)
  | enter {pending rest : List (Node × Nat)} {node : Node} {depth : Nat} {found : Bool} :
    pending.Perm ((node, depth) :: rest) → node.kind ≠ .returnStatement →
    isScopeBoundary node.kind = false → (depth : Int) < bound →
    Step bound (.visiting pending found)
      (.visiting (node.namedChildren.map (·, depth + 1) ++ rest) found)
  | finish {found : Bool} : Step bound (.visiting [] found) (.settled !found)

/-- The return statements that pending nodes still hold. -/
def held (bound : Int) (pending : List (Node × Nat)) : List Node :=
  pending.flatMap fun item => returnsIn bound.toNat item.2 item.1

/-- The verdict a search is bound for. -/
def verdict (bound : Int) : Search → Bool
  | .visiting pending found =>
    (!found && (held bound pending).isEmpty) || (held bound pending).any returnsMarkup
  | .settled verdict => verdict

mutual

/-- How many nodes a tree has. -/
def nodeCount : Node → Nat
  | ⟨_, _, _, _, children⟩ => nodeCountAll children + 1

/-- How many nodes a row of trees has. -/
def nodeCountAll : List Node → Nat
  | [] => 0
  | node :: rest => nodeCount node + nodeCountAll rest

end

/-- What a search has left to do. -/
def weight : Search → Nat
  | .visiting pending _ => nodeCountAll (pending.map Prod.fst) + 1
  | .settled _ => 0

variable {pending rest : List (Node × Nat)} {found : Bool} {search next last : Search}

theorem held_cons (item : Node × Nat) :
    held bound (item :: rest) = returnsIn bound.toNat item.2 item.1 ++ held bound rest :=
  List.flatMap_cons

theorem held_perm {other : List (Node × Nat)} (same : pending.Perm other) :
    (held bound pending).Perm (held bound other) :=
  same.flatMap_right _

/-- A node's named children hold what the node holds when it is entered. -/
theorem held_namedChildren :
    held bound (node.namedChildren.map (·, depth))
      = returnsAmong bound.toNat depth node.children := by
  simp [held, returnsAmong_eq_flatMap, Node.namedChildren, List.flatMap_map]

theorem verdict_perm {other : List (Node × Nat)} (same : pending.Perm other) :
    verdict bound (.visiting pending found) = verdict bound (.visiting other found) := by
  have held : (held bound pending).Perm (held bound other) := held_perm same
  simp only [verdict, held.isEmpty_eq, held.any_eq]

theorem nodeCountAll_append (first second : List Node) :
    nodeCountAll (first ++ second) = nodeCountAll first + nodeCountAll second := by
  induction first with
  | nil => simp [nodeCountAll]
  | cons node rest ih => simp only [List.cons_append, nodeCountAll, ih]; omega

theorem nodeCountAll_perm {nodes other : List Node} (same : nodes.Perm other) :
    nodeCountAll nodes = nodeCountAll other := by
  induction same with
  | nil => rfl
  | cons node _ ih => simp only [nodeCountAll, ih]
  | swap => simp only [nodeCountAll]; omega
  | trans _ _ first second => exact first.trans second

theorem nodeCountAll_filter_le (test : Node → Bool) (nodes : List Node) :
    nodeCountAll (nodes.filter test) ≤ nodeCountAll nodes := by
  induction nodes with
  | nil => exact Nat.le_refl 0
  | cons node rest ih => cases kept : test node <;> simp [nodeCountAll, kept] <;> omega

/-- Entering a node takes the node itself away. -/
theorem nodeCountAll_namedChildren_lt (node : Node) :
    nodeCountAll node.namedChildren < nodeCount node := by
  obtain ⟨kind, role, span, lexeme, children⟩ := node
  exact Nat.lt_succ_of_le (nodeCountAll_filter_le Node.isNamed children)

/-- A step keeps the verdict, whichever pending node it takes. This is the invariant that makes the
order of a search irrelevant. -/
theorem Step.verdict_eq (step : Step bound search next) :
    search.verdict bound = next.verdict bound := by
  cases step with
  | accept taken isReturn markup =>
    rw [verdict_perm taken]
    simp [verdict, held_cons, returnsIn_of_return isReturn, markup]
  | note taken isReturn markup =>
    rw [verdict_perm taken]
    simp [verdict, held_cons, returnsIn_of_return isReturn, markup]
  | skip taken other closed =>
    rw [verdict_perm taken]
    simp only [verdict, held_cons]
    rw [returnsIn_of_closed other (closed.imp_right fun deep => by omega), List.nil_append]
  | enter taken other entered within =>
    rw [verdict_perm taken]
    simp only [verdict, held_cons]
    rw [returnsIn_of_open other entered (by omega), ← held_namedChildren]
    simp only [held, List.flatMap_append]
  | finish => simp [verdict, held]

theorem weight_perm (taken : pending.Perm ((node, depth) :: rest)) :
    weight (.visiting pending found) = nodeCount node + nodeCountAll (rest.map Prod.fst) + 1 := by
  rw [weight, nodeCountAll_perm (taken.map Prod.fst)]
  rfl

/-- A step leaves less to do: the node that is taken counts by itself, and its children count no
more than they did inside it. -/
theorem Step.weight_lt (step : Step bound search next) : next.weight < search.weight := by
  have positive (node : Node) : 0 < nodeCount node := by
    cases node
    exact Nat.succ_pos _
  cases step with
  | accept taken =>
    rw [weight_perm taken]
    exact Nat.succ_pos _
  | @note _ _ node _ _ taken | @skip _ _ node _ _ taken =>
    have counted := positive node
    rw [weight_perm taken, weight]
    omega
  | @enter _ _ node _ _ taken =>
    have inside := nodeCountAll_namedChildren_lt node
    rw [weight_perm taken, weight, List.map_append, nodeCountAll_append, List.map_map,
      Function.comp_def, List.map_id']
    omega
  | finish => exact Nat.succ_pos _

/-- A search that has no verdict can go on. -/
theorem exists_step (bound : Int) (pending : List (Node × Nat)) (found : Bool) :
    ∃ next, Step bound (.visiting pending found) next := by
  cases pending with
  | nil => exact ⟨_, .finish⟩
  | cons item rest =>
    obtain ⟨node, depth⟩ := item
    have taken : ((node, depth) :: rest).Perm ((node, depth) :: rest) := .refl _
    by_cases isReturn : node.kind = .returnStatement
    · cases markup : returnsMarkup node with
      | true => exact ⟨_, .accept taken isReturn markup⟩
      | false => exact ⟨_, .note taken isReturn markup⟩
    · by_cases closed : isScopeBoundary node.kind = true ∨ bound ≤ depth
      · exact ⟨_, .skip taken isReturn closed⟩
      · simp only [not_or, Bool.not_eq_true, Int.not_le] at closed
        exact ⟨_, .enter taken isReturn closed.1 closed.2⟩

/-- There is no endless search. -/
theorem wellFounded_step : WellFounded fun next search => Step bound search next :=
  Subrelation.wf (fun step => step.weight_lt) (measure weight).wf

theorem verdict_of_steps (steps : ReflTransGen (Step bound) search last) :
    search.verdict bound = last.verdict bound := by
  induction steps with
  | refl => rfl
  | tail _ step ih => exact ih.trans step.verdict_eq

/-- Every search that has come to a stop has the verdict it was bound for. By induction on the
steps, each of which keeps the verdict. -/
theorem eq_settled_of_steps (steps : ReflTransGen (Step bound) search last)
    (stopped : ∀ next, ¬Step bound last next) : last = .settled (search.verdict bound) := by
  cases last with
  | visiting pending found =>
    obtain ⟨next, step⟩ := exists_step bound pending found
    exact absurd step (stopped next)
  | settled verdict => rw [verdict_of_steps steps]; rfl

end Search

/-! ## The verdict on a function -/

theorem functionRenders_of_block {function : Node} (hasBody : function.child? .body = some body)
    (isBlock : body.kind = .block) :
    functionRenders bound.toNat function = (Search.start body).verdict bound := by
  simp [functionRenders, hasBody, isBlock, Search.start, Search.verdict, Search.held_namedChildren]

theorem functionRenders_iff_of_block {function : Node}
    (hasBody : function.child? .body = some body) (isBlock : body.kind = .block) :
    functionRenders bound.toNat function = true ↔
      (∀ statement, ¬Returned body bound statement)
        ∨ ∃ statement, Returned body bound statement
          ∧ ∃ value, statement.firstMeaningful? = some value ∧ isMarkup value = true := by
  simp only [functionRenders, hasBody, isBlock, beq_self_eq_true, if_true, Bool.or_eq_true,
    List.isEmpty_iff, List.eq_nil_iff_forall_not_mem, List.any_eq_true, mem_returnsAmong_iff,
    returnsMarkup, Option.any_eq_true]

/-- A function without a body renders; one whose body is an expression renders when that is markup;
any other renders when none of its return statements stands within the bound or one of them returns
markup. Searches come to that verdict in whichever order they take the nodes, and all of them come
to an end. -/
theorem functionRenders_meets_spec (function : Node) (bound : Int) :
    (function.child? .body = none → functionRenders bound.toNat function = true)
      ∧ (∀ body, function.child? .body = some body → body.kind ≠ .block →
          functionRenders bound.toNat function = isMarkup body)
      ∧ (∀ body, function.child? .body = some body → body.kind = .block →
          (functionRenders bound.toNat function = true ↔
            (∀ statement, ¬Returned body bound statement)
              ∨ ∃ statement, Returned body bound statement
                ∧ ∃ value, statement.firstMeaningful? = some value ∧ isMarkup value = true)
          ∧ (∀ last, ReflTransGen (Search.Step bound) (.start body) last →
              (∀ next, ¬Search.Step bound last next) →
                last = .settled (functionRenders bound.toNat function)))
      ∧ WellFounded fun next search => Search.Step bound search next := by
  refine ⟨fun noBody => ?_, fun body hasBody notBlock => ?_, fun body hasBody isBlock => ?_,
    Search.wellFounded_step⟩
  · simp [functionRenders, noBody]
  · simp [functionRenders, hasBody, notBlock]
  · refine ⟨functionRenders_iff_of_block hasBody isBlock, fun last steps stopped => ?_⟩
    rw [functionRenders_of_block hasBody isBlock]
    exact Search.eq_settled_of_steps steps stopped

/-- A return statement beyond the bound counts as none. -/
example :
    ((Syntax.parse true "function A() { { return 1; } }").bind fun program =>
      program.namedChildren.head?.map fun function =>
        (functionRenders 1 function, functionRenders 2 function)) = some (true, false) := by
  decide +kernel

end RenderProbe.Component
