import RenderProbe.Diff.Unified
import RenderProbe.Proofs.Diff.Match

/-!
# Hunks are parts of the change

The changes that matches leave lead from the start of two lists to their ends. Hunks are stretches
of them, with what is left out between them common to both lists.

* `Chain` and `chain_changesFrom`: changes one behind the other.
* `Hunks` and `Chain.hunks`: hunks one behind the other.
-/

namespace RenderProbe.Diff

/-- Changes lead from one place in each of two lists to another: what stays is common to both,
something is replaced or replaces it, and no replacement comes right behind another. `replaced` says
whether one came right before. -/
inductive Chain {α : Type} (old new : List α) :
    (replaced : Bool) → (a b a' b' : Nat) → List Change → Prop
  | nil {replaced : Bool} {a b : Nat} :
      a ≤ old.length → b ≤ new.length → Chain old new replaced a b a b []
  | keep {replaced : Bool} {a b a' b' size : Nat} {rest : List Change} :
    0 < size → Common old new a b size → Chain old new false (a + size) (b + size) a' b' rest →
    Chain old new replaced a b a' b' (.keep (a, a + size) (b, b + size) :: rest)
  | replace {a b c d a' b' : Nat} {rest : List Change} :
    a ≤ c → b ≤ d → a < c ∨ b < d → Chain old new true c d a' b' rest →
    Chain old new false a b a' b' (.replace (a, c) (b, d) :: rest)

/-- Hunks lead from one place in each of two lists to another, with what is common to both left out
before, between and behind them. Only the first may begin with a replacement, if none came
before. -/
inductive Hunks {α : Type} (old new : List α) :
    (replaced : Bool) → (a b a' b' : Nat) → List (List Change) → Prop
  | nil {replaced : Bool} {a b gap : Nat} : Common old new a b gap → a + gap = old.length →
    b + gap = new.length → Hunks old new replaced a b a b []
  | cons {replaced : Bool} {a b gap c d a' b' : Nat} {hunk : List Change}
      {rest : List (List Change)} :
    Common old new a b gap → Chain old new replaced (a + gap) (b + gap) c d hunk →
    Hunks old new true c d a' b' rest → Hunks old new replaced a b a' b' (hunk :: rest)

section Chains

variable {α : Type} {old new : List α} {replaced : Bool}
  {a b a' b' c d : Nat} {changes : List Change}

theorem Chain.bounds (chain : Chain old new replaced a b a' b' changes) :
    a ≤ a' ∧ b ≤ b' ∧ a' ≤ old.length ∧ b' ≤ new.length := by
  induction chain with
  | nil le le' => exact ⟨Nat.le_refl _, Nat.le_refl _, le, le'⟩
  | keep _ _ _ ih => omega
  | replace _ _ _ _ ih => omega

theorem Chain.grows (chain : Chain old new replaced a b a' b' changes) (nonempty : changes ≠ []) :
    a < a' ∨ b < b' := by
  cases chain with
  | nil => exact absurd rfl nonempty
  | keep positive _ rest =>
    have bounds := rest.bounds
    omega
  | replace le le' grows rest =>
    have bounds := rest.bounds
    omega

/-- If a replacement may not come first, others may still. -/
theorem Chain.mono (chain : Chain old new true a b a' b' changes) :
    Chain old new replaced a b a' b' changes := by
  cases chain with
  | nil le le' => exact .nil le le'
  | keep positive common rest => exact .keep positive common rest

/-- The changes between matches lead from place to place. By induction on the matches: what lies in
front of each is replaced, and the match itself stays. -/
theorem chain_changesFrom {blocks : List Block}
    (aligned : Aligned old new a b old.length new.length blocks) :
    Chain old new false a b old.length new.length
      (changesFrom old.length new.length a b blocks) := by
  induction blocks generalizing a b with
  | nil =>
    cases aligned with
    | nil le le' =>
      rw [changesFrom]
      split
      · next rest =>
        simp only [Bool.or_eq_true, decide_eq_true_eq] at rest
        exact .replace le le' rest (.nil (Nat.le_refl _) (Nat.le_refl _))
      · next nothing =>
        simp only [Bool.or_eq_true, decide_eq_true_eq, not_or, Nat.not_lt] at nothing
        obtain rfl := Nat.le_antisymm le nothing.1
        obtain rfl := Nat.le_antisymm le' nothing.2
        exact .nil le le'
  | cons block blocks ih =>
    cases aligned with
    | cons le le' positive common aligned =>
      have kept : ∀ replaced, Chain old new replaced block.left block.right old.length new.length
          (.keep (block.left, block.left + block.size) (block.right, block.right + block.size)
            :: changesFrom old.length new.length (block.left + block.size)
              (block.right + block.size) blocks) :=
        fun _ => .keep positive common (ih aligned)
      rw [changesFrom]
      split
      · next grows =>
        simp only [Bool.or_eq_true, decide_eq_true_eq] at grows
        exact .replace le le' grows (kept true)
      · next nothing =>
        simp only [Bool.or_eq_true, decide_eq_true_eq, not_or, Nat.not_lt] at nothing
        obtain rfl := Nat.le_antisymm le nothing.1
        obtain rfl := Nat.le_antisymm le' nothing.2
        exact kept false

/-! ## Trimmed ends -/

theorem keepTail_keep (a b size : Nat) : keepTail (.keep (a, a + size) (b, b + size)) =
    .keep (a + (size - context), a + (size - context) + min size context)
      (b + (size - context), b + (size - context) + min size context) := by
  rw [keepTail, Change.keep.injEq, Prod.mk.injEq, Prod.mk.injEq]
  omega

theorem keepHead_keep (a b size : Nat) : keepHead (.keep (a, a + size) (b, b + size)) =
    .keep (a, a + min size context) (b, b + min size context) := by
  rw [keepHead, Change.keep.injEq, Prod.mk.injEq, Prod.mk.injEq]
  omega

theorem context_pos : 0 < context := by decide

/-- Without their first lines, changes begin behind something that is common. -/
theorem Chain.mapFirst (chain : Chain old new replaced a b a' b' changes) :
    ∃ gap, Common old new a b gap
      ∧ Chain old new replaced (a + gap) (b + gap) a' b' (mapFirst keepTail changes) := by
  cases chain with
  | nil le le' => exact ⟨0, .empty le le', .nil le le'⟩
  | @replace a b c d a' b' rest le le' grows chain =>
    have bounds := chain.bounds
    exact ⟨0, .empty (by omega) (by omega), .replace le le' grows chain⟩
  | @keep replaced a b a' b' size rest positive common chain =>
    have leftEnd : a + size = a + (size - context) + min size context := by omega
    have rightEnd : b + size = b + (size - context) + min size context := by omega
    refine ⟨size - context, common.start (Nat.sub_le ..), ?_⟩
    rw [Diff.mapFirst, keepTail_keep]
    rw [leftEnd, rightEnd] at chain
    exact .keep (Nat.lt_min.mpr ⟨positive, context_pos⟩) (common.part (by omega)) chain

/-- Without their last lines, changes end before something that is common. -/
theorem Chain.mapLast (chain : Chain old new replaced a b a' b' changes) :
    ∃ c d gap, Chain old new replaced a b c d (mapLast keepHead changes)
      ∧ Common old new c d gap ∧ c + gap = a' ∧ d + gap = b' := by
  induction changes using mapLast.induct generalizing replaced a b with
  | case1 =>
    cases chain with
    | nil le le' => exact ⟨_, _, 0, .nil le le', .empty le le', rfl, rfl⟩
  | case2 change =>
    cases chain with
    | replace le le' grows chain =>
      cases chain with
      | nil le₁ le₂ =>
        exact ⟨_, _, 0, .replace le le' grows (.nil le₁ le₂), .empty le₁ le₂, rfl, rfl⟩
    | @keep _ _ _ _ _ size _ positive common chain =>
      cases chain with
      | nil le le' =>
        refine ⟨a + min size context, b + min size context, size - context, ?_,
          common.part (by omega), by omega, by omega⟩
        rw [Diff.mapLast, keepHead_keep]
        exact .keep (Nat.lt_min.mpr ⟨positive, context_pos⟩) (common.start (Nat.min_le_left ..))
          (.nil (by omega) (by omega))
  | case3 change rest nonempty ih =>
    rw [Diff.mapLast]
    · cases chain with
      | keep positive common chain =>
        obtain ⟨c, d, gap, chain, ends⟩ := ih chain
        exact ⟨c, d, gap, .keep positive common chain, ends⟩
      | replace le le' grows chain =>
        obtain ⟨c, d, gap, chain, ends⟩ := ih chain
        exact ⟨c, d, gap, .replace le le' grows chain, ends⟩
    · exact nonempty

/-! ## Cuts -/

/-- What a hunk so far holds comes before the first hunk of the rest. -/
theorem exists_hunksFrom (changes : List Change) :
    ∃ first rest, ∀ hunk, hunksFrom hunk changes = (hunk.reverse ++ first) :: rest := by
  induction changes with
  | nil => exact ⟨[], [], fun hunk => by rw [hunksFrom, List.append_nil]⟩
  | cons change changes ih =>
    obtain ⟨first, rest, cut⟩ := ih
    by_cases large : (change.isKeep && 2 * context < change.oldCount) = true
    · refine ⟨[keepHead change], hunksFrom [keepTail change] changes, fun hunk => ?_⟩
      rw [hunksFrom, if_pos large, List.reverse_cons]
    · refine ⟨change :: first, rest, fun hunk => ?_⟩
      rw [hunksFrom, if_neg large, cut, List.reverse_cons, List.append_assoc]
      rfl

theorem hunksFrom_eq {first : List Change} {rest : List (List Change)}
    (cut : hunksFrom [] changes = first :: rest) (hunk : List Change) :
    hunksFrom hunk changes = (hunk.reverse ++ first) :: rest := by
  obtain ⟨first', rest', cut'⟩ := exists_hunksFrom changes
  rw [cut' []] at cut
  obtain ⟨rfl, rfl⟩ := List.cons.inj cut
  exact cut' hunk

/-- Changes up to something common at the ends are cut into hunks. What is left out between two of
them is common, so its lengths agree. -/
theorem Chain.hunksFrom {gap : Nat} (chain : Chain old new replaced a b a' b' changes)
    (ends : Common old new a' b' gap) (leftEnd : a' + gap = old.length)
    (rightEnd : b' + gap = new.length) :
    ∃ first rest c d e e', Diff.hunksFrom [] changes = first :: rest
      ∧ Chain old new replaced a b c d first ∧ Hunks old new true c d e e' rest := by
  induction chain with
  | nil le le' => exact ⟨[], [], _, _, _, _, rfl, .nil le le', .nil ends leftEnd rightEnd⟩
  | @replace a b c d a' b' rest le le' grows chain ih =>
    obtain ⟨first, hunks, c', d', e, e', cut, isFirst, isRest⟩ := ih ends leftEnd rightEnd
    exact ⟨_, hunks, c', d', e, e', hunksFrom_eq cut [_], .replace le le' grows isFirst, isRest⟩
  | @keep replaced a b a' b' size rest positive common chain ih =>
    obtain ⟨first, hunks, c', d', e, e', cut, isFirst, isRest⟩ := ih ends leftEnd rightEnd
    rw [Diff.hunksFrom]
    split
    · next large =>
      -- the lines are cut: some end this hunk, some begin the next, and those between are left out
      have many :
          2 * context < size := by simpa [Change.isKeep, Change.oldCount, Change.old] using large
      have bounds := chain.bounds
      have less : min size context = context := by omega
      have leftTail : a + context + (size - 2 * context) = a + (size - context) := by omega
      have rightTail : b + context + (size - 2 * context) = b + (size - context) := by omega
      have leftStop : a + size = a + (size - context) + context := by omega
      have rightStop : b + size = b + (size - context) + context := by omega
      have tail :
          Chain old new true (a + context + (size - 2 * context))
            (b + context + (size - 2 * context))
          c' d' (keepTail (.keep (a, a + size) (b, b + size)) :: first) := by
        rw [keepTail_keep, less, leftTail, rightTail]
        rw [leftStop, rightStop] at isFirst
        exact .keep context_pos (common.part (by omega)) isFirst
      rw [hunksFrom_eq cut, keepHead_keep, less]
      refine ⟨[_], _, a + context, b + context, e, e', rfl, ?_,
        .cons (common.part (by omega)) tail isRest⟩
      exact .keep context_pos (common.start (by omega)) (.nil (by omega) (by omega))
    · exact ⟨_, hunks, c', d', e, e', hunksFrom_eq cut [_], .keep positive common isFirst, isRest⟩

/-! ## Hunks of a change -/

/-- Without replacements all is common. -/
theorem Chain.common_of_keeps (chain : Chain old new replaced a b a' b' changes)
    (keeps : isHunk changes = false) :
    ∃ size, Common old new a b size ∧ a + size = a' ∧ b + size = b' := by
  induction chain with
  | nil le le' => exact ⟨0, .empty le le', rfl, rfl⟩
  | keep positive common chain ih =>
    obtain ⟨size', common', left, right⟩ := ih (by simpa [isHunk, Change.isKeep] using keeps)
    exact ⟨_, common.append common', by omega, by omega⟩
  | replace => simp [isHunk, Change.isKeep] at keeps

variable {found : List (List Change)}

theorem Hunks.bounds (isHunks : Hunks old new replaced a b a' b' found) :
    a ≤ a' ∧ b ≤ b' ∧ a' ≤ old.length ∧ b' ≤ new.length := by
  induction isHunks with
  | nil common left right => omega
  | cons common chain _ ih =>
    have bounds := chain.bounds
    omega

theorem Hunks.mono (isHunks : Hunks old new true a b a' b' found) :
    Hunks old new replaced a b a' b' found := by
  cases isHunks with
  | nil common left right => exact .nil common left right
  | cons common chain rest => exact .cons common chain.mono rest

/-- More may be left out in front of hunks. -/
theorem Hunks.from_earlier {size : Nat} (common : Common old new a b size)
    (isHunks : Hunks old new replaced (a + size) (b + size) a' b' found) :
    ∃ c d, Hunks old new replaced a b c d found := by
  cases isHunks with
  | nil common' left right =>
    exact ⟨a, b, .nil (common.append common') (by omega) (by omega)⟩
  | cons common' chain rest =>
    rw [Nat.add_assoc, Nat.add_assoc] at chain
    exact ⟨a', b', .cons (common.append common') chain rest⟩

/-- Hunks that change nothing may be left out. -/
theorem Hunks.filter (isHunks : Hunks old new replaced a b a' b' found) :
    ∃ c d, Hunks old new replaced a b c d (found.filter isHunk) := by
  induction isHunks with
  | nil common left right => exact ⟨_, _, .nil common left right⟩
  | @cons replaced a b gap c d a' b' hunk rest common chain _ ih =>
    obtain ⟨e, e', isRest⟩ := ih
    cases changes : isHunk hunk with
    | true =>
      rw [List.filter_cons_of_pos changes]
      exact ⟨e, e', .cons common chain isRest⟩
    | false =>
      obtain ⟨size, common', rfl, rfl⟩ := chain.common_of_keeps changes
      rw [List.filter_cons_of_neg (by simp [changes])]
      rw [Nat.add_assoc, Nat.add_assoc] at isRest
      exact isRest.mono.from_earlier (common.append common')

/-- The hunks of a change from the start of two lists to their ends. -/
theorem Chain.hunks (chain : Chain old new false 0 0 old.length new.length changes) :
    ∃ c d, Hunks old new false 0 0 c d (Diff.hunks changes) := by
  obtain ⟨gap, common, chain⟩ := chain.mapFirst
  obtain ⟨c, d, gap', chain, common', left, right⟩ := chain.mapLast
  obtain ⟨first, rest, e, e', f, f', cut, isFirst, isRest⟩ := chain.hunksFrom common' left right
  rw [Diff.hunks, cut]
  exact (Hunks.cons common isFirst isRest).filter

theorem ne_nil_of_mem_hunks {hunk : List Change} (isHunk : hunk ∈ Diff.hunks changes) :
    hunk ≠ [] := by
  rintro rfl
  cases (List.mem_filter.mp isHunk).2

/-- The first change tells where a chain begins. -/
theorem Chain.first_eq {first : Change} (chain : Chain old new replaced a b a' b' changes)
    (isFirst : changes.head? = some first) : first.old.1 = a ∧ first.new.1 = b := by
  cases chain with
  | nil => cases isFirst
  | keep | replace =>
    cases isFirst
    exact ⟨rfl, rfl⟩

/-- The last change tells where a chain ends. -/
theorem Chain.last_eq {last : Change} (chain : Chain old new replaced a b a' b' changes)
    (isLast : changes.getLast? = some last) : last.old.2 = a' ∧ last.new.2 = b' := by
  induction chain with
  | nil => cases isLast
  | @keep _ _ _ _ _ _ rest _ _ chain ih =>
    cases rest with
    | nil =>
      cases chain
      cases isLast
      exact ⟨rfl, rfl⟩
    | cons => exact ih (by rwa [List.getLast?_cons_cons] at isLast)
  | @replace _ _ _ _ _ _ rest _ _ _ chain ih =>
    cases rest with
    | nil =>
      cases chain
      cases isLast
      exact ⟨rfl, rfl⟩
    | cons => exact ih (by rwa [List.getLast?_cons_cons] at isLast)

/-- How many lines of each list there are up to the end of the last hunk. -/
def hunksEnd (found : List (List Change)) : Nat × Nat :=
  match found.getLast?.bind List.getLast? with
  | some change => (change.old.2, change.new.2)
  | none => (0, 0)

theorem Hunks.end_eq (isHunks : Hunks old new replaced a b a' b' found) (some : found ≠ [])
    (nonempty : ∀ hunk ∈ found, hunk ≠ []) : hunksEnd found = (a', b') := by
  induction isHunks with
  | nil => exact absurd rfl some
  | @cons _ _ _ _ _ _ _ _ hunk rest _ chain isRest ih =>
    by_cases none : rest = []
    · subst none
      cases isRest
      have isLast := List.getLast?_eq_some_getLast (nonempty hunk List.mem_cons_self)
      obtain ⟨left, right⟩ := chain.last_eq isLast
      simp [hunksEnd, isLast, left, right]
    · have ends := ih none fun hunk isMember => nonempty hunk (List.mem_cons_of_mem _ isMember)
      rw [← ends, hunksEnd, hunksEnd, List.getLast?_cons_of_ne_nil none]

end Chains

end RenderProbe.Diff
