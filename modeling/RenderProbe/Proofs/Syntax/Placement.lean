import RenderProbe.Proofs.Source.Splice
import RenderProbe.Wrap.Rule

/-!
# Where nodes stand

A tree is placed in the bytes of its source when siblings stand in order and apart, children stand
inside their parent, every node covers whole characters and at least one, and the keywords of
an export statement stand before what it exports, with no node of the statement starting in a blank.

* `Node.WellFormed`: the tree of a whole source is placed in its bytes.
* `Forest.Placed.of_mem` and `Forest.Placed.apart`: what is known of one node of a row, and of two.
* `afterBlanks_le`: the blanks after a keyword end before the next node.
-/

namespace RenderProbe.Syntax

open Patch (slice decode)

/-- A keyword that an export statement starts with. -/
def Node.isExportKeyword (node : Node) : Bool :=
  node.kind == .token && (node.lexeme == "export" || node.lexeme == "default")

/-- A space or a tab. -/
def isBlank (byte : UInt8) : Bool :=
  byte == 32 || byte == 9

/-- No node starts in a blank, and what comes last is no keyword. -/
def Forest.KeywordsLead (bytes : List UInt8) (children : Forest) : Prop :=
  (∀ child ∈ children, (bytes[child.span.start]?).any isBlank = false)
    ∧ ∀ child ∈ children.getLast?, child.isExportKeyword = false

instance (bytes : List UInt8) (children : Forest) :
    Decidable (Forest.KeywordsLead bytes children) :=
  inferInstanceAs (Decidable (_ ∧ _))

mutual

/-- The node is a nonempty stretch of characters with its children placed inside. -/
def Node.Placed (bytes : List UInt8) : Node → Prop
  | ⟨kind, _, span, _, children⟩ =>
    span.start < span.stop
      ∧ (decode (slice bytes span.start span.stop)).isSome = true
      ∧ (kind = .exportStatement → Forest.KeywordsLead bytes children)
      ∧ Forest.Placed bytes children span.start span.stop

/-- The nodes are placed one behind the other between two offsets. -/
def Forest.Placed (bytes : List UInt8) : List Node → Nat → Nat → Prop
  | [], start, stop => start ≤ stop
  | node :: rest, start, stop =>
    start ≤ node.span.start ∧ node.Placed bytes ∧ Forest.Placed bytes rest node.span.stop stop

end

mutual

/-- Placement is checked node by node. -/
def Node.decidablePlaced (bytes : List UInt8) : ∀ node : Node, Decidable (node.Placed bytes)
  | ⟨kind, _, span, _, children⟩ =>
    have := Forest.decidablePlaced bytes children span.start span.stop
    inferInstanceAs (Decidable (_ ∧ _ ∧ (kind = .exportStatement → _) ∧ _))

/-- The placement of a row is checked node by node. -/
def Forest.decidablePlaced (bytes : List UInt8) :
    ∀ (nodes : List Node) (start stop : Nat), Decidable (Forest.Placed bytes nodes start stop)
  | [], start, stop => inferInstanceAs (Decidable (start ≤ stop))
  | node :: rest, _, stop =>
    have := node.decidablePlaced bytes
    have := Forest.decidablePlaced bytes rest node.span.stop stop
    inferInstanceAs (Decidable (_ ∧ _ ∧ _))

end

/-- The top-level nodes of a program are placed in the bytes of its source. -/
def Node.WellFormed (bytes : List UInt8) (root : Node) : Prop :=
  Forest.Placed bytes root.children 0 bytes.length

instance (bytes : List UInt8) (root : Node) : Decidable (root.WellFormed bytes) :=
  Forest.decidablePlaced bytes root.children 0 bytes.length

section Placed

variable {bytes : List UInt8} {node : Node} {nodes : List Node} {start stop : Nat}

theorem Node.Placed.nonempty (placed : node.Placed bytes) : node.span.start < node.span.stop := by
  cases node
  exact placed.1

theorem Node.Placed.spelled (placed : node.Placed bytes) :
    (decode (slice bytes node.span.start node.span.stop)).isSome = true := by
  cases node
  exact placed.2.1

theorem Node.Placed.keywordsLead (placed : node.Placed bytes)
    (exported : node.kind = .exportStatement) : Forest.KeywordsLead bytes node.children := by
  cases node
  exact placed.2.2.1 exported

theorem Node.Placed.children (placed : node.Placed bytes) :
    Forest.Placed bytes node.children node.span.start node.span.stop := by
  cases node
  exact placed.2.2.2

theorem Forest.Placed.le (placed : Forest.Placed bytes nodes start stop) : start ≤ stop := by
  induction nodes generalizing start with
  | nil => exact placed
  | cons node rest ih =>
    obtain ⟨before, here, after⟩ := placed
    exact Nat.le_trans before (Nat.le_trans (Nat.le_of_lt here.nonempty) (ih after))

/-- A row may be said to start anywhere before its first node. -/
theorem Forest.Placed.of_le {offset : Nat} (placed : Forest.Placed bytes (node :: nodes) start stop)
    (le : offset ≤ node.span.start) : Forest.Placed bytes (node :: nodes) offset stop :=
  ⟨le, placed.2⟩

theorem Forest.Placed.of_le_start {offset : Nat} (placed : Forest.Placed bytes nodes start stop)
    (le : offset ≤ start) : Forest.Placed bytes nodes offset stop := by
  cases nodes with
  | nil => exact Nat.le_trans le placed
  | cons node rest => exact placed.of_le (Nat.le_trans le placed.1)

theorem Forest.Placed.filter (placed : Forest.Placed bytes nodes start stop) (test : Node → Bool) :
    Forest.Placed bytes (nodes.filter test) start stop := by
  induction nodes generalizing start with
  | nil => exact placed
  | cons node rest ih =>
    obtain ⟨before, here, after⟩ := placed
    rw [List.filter_cons]
    split
    · exact ⟨before, here, ih after⟩
    · exact (ih after).of_le_start (Nat.le_trans before (Nat.le_of_lt here.nonempty))

theorem Forest.Placed.of_mem (placed : Forest.Placed bytes nodes start stop)
    (member : node ∈ nodes) :
    start ≤ node.span.start ∧ node.Placed bytes ∧ node.span.stop ≤ stop := by
  induction nodes generalizing start with
  | nil => cases member
  | cons first rest ih =>
    obtain ⟨before, here, after⟩ := placed
    rcases List.mem_cons.mp member with rfl | later
    · exact ⟨before, here, after.le⟩
    · obtain ⟨before', here', inside⟩ := ih after later
      exact ⟨Nat.le_trans before (Nat.le_trans (Nat.le_of_lt here.nonempty) before'), here', inside⟩

/-- Of two nodes of a row one ends before the other starts. Edits inside different nodes therefore
never meet. -/
theorem Forest.Placed.apart {other : Node} (placed : Forest.Placed bytes nodes start stop)
    (member : node ∈ nodes) (member' : other ∈ nodes) (differ : node ≠ other) :
    node.span.stop ≤ other.span.start ∨ other.span.stop ≤ node.span.start := by
  induction nodes generalizing start with
  | nil => cases member
  | cons first rest ih =>
    obtain ⟨-, -, after⟩ := placed
    rcases List.mem_cons.mp member with rfl | later <;>
      rcases List.mem_cons.mp member' with rfl | later'
    · exact absurd rfl differ
    · exact .inl (after.of_mem later').1
    · exact .inr (after.of_mem later).1
    · exact ih after later later'

/-- No two nodes of a row end at one offset. -/
theorem Forest.Placed.eq_of_stop {other : Node} (placed : Forest.Placed bytes nodes start stop)
    (member : node ∈ nodes) (member' : other ∈ nodes) (same : node.span.stop = other.span.stop) :
    node = other := by
  refine Classical.byContradiction fun differ => ?_
  have nonempty := (placed.of_mem member).2.1.nonempty
  have nonempty' := (placed.of_mem member').2.1.nonempty
  rcases placed.apart member member' differ with before | after <;> omega

/-- A child stands inside its parent. -/
theorem Node.Placed.child {role : Role} {child : Node} (placed : node.Placed bytes)
    (found : node.child? role = some child) :
    node.span.start ≤ child.span.start ∧ child.Placed bytes ∧ child.span.stop ≤ node.span.stop :=
  placed.children.of_mem (List.mem_of_find?_eq_some found)

end Placed

/-- Blanks end before a byte that is none. -/
theorem afterBlanks_le {bytes : List UInt8} {offset next : Nat} (le : offset ≤ next)
    (notBlank : (bytes[next]?).any isBlank = false) : Wrap.afterBlanks bytes offset ≤ next := by
  obtain ⟨count, rfl⟩ := Nat.exists_eq_add_of_le le
  have run : ((bytes.drop offset).takeWhile isBlank).length ≤ count := by
    rw [← List.getElem?_drop] at notBlank
    generalize bytes.drop offset = rest at notBlank
    induction rest generalizing count with
    | nil => exact Nat.zero_le count
    | cons byte rest ih =>
      cases count with
      | zero =>
        have stops : isBlank byte = false := by simpa using notBlank
        simp [stops]
      | succ count =>
        rw [List.takeWhile_cons]
        split
        · exact Nat.succ_le_succ (ih count (Nat.le_add_right _ _) (by simpa using notBlank))
        · exact Nat.zero_le _
  exact Nat.add_le_add_left run offset

end RenderProbe.Syntax
