import Mathlib.Data.List.TakeWhile
import RenderProbe.Diff.Match

/-!
# Matches are shared

Matching finds runs of lines that two lists have in common, in the order of both lists.

* `Common`: a run of elements that two lists share.
* `within_longest`: the longest match in a window is such a run, inside of the window.
* `Aligned` and `aligned_blocks`: all matches of two lists, one behind the other.
-/

namespace RenderProbe.Diff

/-! ## Common runs -/

/-- Two lists have the same `size` elements, the one from `a` on and the other from `b` on. Matches
are judged by this alone, not by how they were found. -/
structure Common {α : Type} (left right : List α) (a b size : Nat) : Prop where
  leftBound : a + size ≤ left.length
  rightBound : b + size ≤ right.length
  same : ∀ i < size, left[a + i]? = right[b + i]?

namespace Common

variable {α β : Type} {left right : List α} {a b size size' : Nat}

theorem empty (leftBound : a ≤ left.length) (rightBound : b ≤ right.length) :
    Common left right a b 0 :=
  ⟨leftBound, rightBound, fun _ less => absurd less (Nat.not_lt_zero _)⟩

theorem single (bound : a < left.length) (same : left[a]? = right[b]?) :
    Common left right a b 1 := by
  have bound' : b < right.length := by
    obtain ⟨isInside, -⟩ :=
      List.getElem?_eq_some_iff.mp (same.symm.trans (List.getElem?_eq_getElem bound))
    exact isInside
  refine ⟨bound, bound', fun i less => ?_⟩
  obtain rfl : i = 0 := by omega
  exact same

/-- Runs that touch make one. -/
theorem append (common : Common left right a b size)
    (next : Common left right (a + size) (b + size) size') :
    Common left right a b (size + size') := by
  refine ⟨by have := next.leftBound; omega, by have := next.rightBound; omega, fun i less => ?_⟩
  by_cases first : i < size
  · exact common.same i first
  · have same := next.same (i - size) (by omega)
    rwa [show a + size + (i - size) = a + i by omega,
      show b + size + (i - size) = b + i by omega] at same

/-- A part of a run is one. -/
theorem part (common : Common left right a b size) {skip : Nat} (inside : skip + size' ≤ size) :
    Common left right (a + skip) (b + skip) size' := by
  refine ⟨by have := common.leftBound; omega, by have := common.rightBound; omega, fun i less => ?_⟩
  rw [Nat.add_assoc, Nat.add_assoc]
  exact common.same (skip + i) (by omega)

theorem start (common : Common left right a b size) (le : size' ≤ size) :
    Common left right a b size' :=
  common.part (show 0 + size' ≤ size by omega)

/-- Lists of different elements of the same names share what the names share. -/
theorem of_map {f : α → β} (injective : ∀ x y, f x = f y → x = y)
    (common : Common (left.map f) (right.map f) a b size) : Common left right a b size := by
  refine ⟨by simpa using common.leftBound, by simpa using common.rightBound, fun i less => ?_⟩
  have same := common.same i less
  simp only [List.getElem?_map] at same
  exact Option.map_injective (fun x y => injective x y) same

end Common

/-! ## Places -/

namespace Comparison

theorem getD_allPlaces (pairs : List (String × Nat)) (text : String) :
    (pairs.foldr (fun (line, place) (places : Places) =>
      places.insert line (place :: places.getD line [])) ∅).getD text []
      = (pairs.filter fun pair => pair.1 == text).map Prod.snd := by
  induction pairs with
  | nil => simp
  | cons pair pairs ih =>
    obtain ⟨line, place⟩ := pair
    rw [List.foldr_cons, Std.HashMap.getD_insert, ih]
    by_cases same : line = text
    · subst same
      simp [ih]
    · simp [same]

/-- The frequent lines are left out with all their places. -/
theorem getD_filter_cases (places : Places) (keeps : String → List Nat → Bool) (text : String) :
    (places.filter keeps).getD text [] = places.getD text []
      ∨ (places.filter keeps).getD text [] = [] := by
  rw [Std.HashMap.getD_filter', Std.HashMap.getD_eq_getD_getElem?]
  cases places[text]? with
  | none => exact .inl rfl
  | some found =>
    rw [Option.filter_some]
    split
    · exact .inl rfl
    · exact .inr rfl

/-- The places that are noted for a line are places of it, in order. -/
theorem places_of (lines : List String) (text : String) :
    (∀ place ∈ (placesOf lines).getD text [], lines[place]? = some text)
      ∧ ((placesOf lines).getD text []).Pairwise (· < ·) := by
  have all : (∀ place ∈ (allPlaces lines).getD text [], lines[place]? = some text)
      ∧ ((allPlaces lines).getD text []).Pairwise (· < ·) := by
    rw [allPlaces, getD_allPlaces]
    constructor
    · intro place isPlace
      obtain ⟨⟨line, other⟩, isPair, rfl⟩ := List.mem_map.mp isPlace
      obtain ⟨isPair, same⟩ := List.mem_filter.mp isPair
      rw [← eq_of_beq same]
      exact List.mem_zipIdx_iff_getElem?.mp isPair
    · have inOrder : (lines.zipIdx.map Prod.snd).Pairwise (· < ·) := by
        rw [List.zipIdx_map_snd]
        exact List.pairwise_lt_range'
      exact inOrder.sublist (List.filter_sublist.map Prod.snd)
  unfold placesOf
  dsimp only
  split
  · exact all
  · rcases getD_filter_cases (allPlaces lines)
      (fun _ found => found.length ≤ lines.length / 100 + 1) text with same | none
    · rwa [same]
    · rw [none]
      exact ⟨nofun, .nil⟩

/-! ## The longest match -/

/-- The noted places of a line are places of it in the right list, in order. -/
structure Noted (comparison : Comparison) : Prop where
  place : ∀ text, ∀ place ∈ comparison.places.getD text [], comparison.right[place]? = some text
  inOrder : ∀ text, (comparison.places.getD text []).Pairwise (· < ·)

theorem noted_of (left right : List String) : (Comparison.of left right).Noted := by
  refine ⟨fun text place isPlace => ?_, fun text => (places_of right text).2⟩
  simpa [Comparison.of] using (places_of right text).1 place isPlace

/-- A match lies in a window, and the lists have its lines in common. -/
structure Within (comparison : Comparison) (window : Window) (block : Block) : Prop where
  leftStart : window.leftStart ≤ block.left
  leftStop : block.left + block.size ≤ window.leftStop
  rightStart : window.rightStart ≤ block.right
  rightStop : block.right + block.size ≤ window.rightStop
  common : Common comparison.left.toList comparison.right.toList block.left block.right block.size

/-- A run of some length ends right before a line of the left list and at a place of the right
one. -/
def RunsTo (comparison : Comparison) (window : Window) (line : Nat) (run : Nat × Nat) : Prop :=
  0 < run.2 ∧ run.2 ≤ line ∧ run.2 ≤ run.1 + 1
    ∧ comparison.Within window ⟨line - run.2, run.1 + 1 - run.2, run.2⟩

section Runs

variable {comparison : Comparison} {window : Window} {line : Nat} {runs : List (Nat × Nat)}

/-- A run that is extended is the single line, or one line more than a run that ended right before
it. -/
theorem mem_extendRuns {places : List Nat} {place length : Nat}
    (isRun : (place, length) ∈ extendRuns places runs) :
    place ∈ places ∧ (length = 1 ∨ ∃ last shorter, (last, shorter) ∈ runs ∧ place = last + 1
      ∧ length = shorter + 1) := by
  induction places generalizing runs with
  | nil => cases isRun
  | cons first rest ih =>
    have subset : ∀ run ∈ runs.dropWhile (fun run => run.1 + 1 < first), run ∈ runs :=
      fun run isLater => (List.dropWhile_sublist _).subset isLater
    rw [extendRuns] at isRun
    generalize runs.dropWhile (fun run => run.1 + 1 < first) = later at subset isRun
    rcases List.mem_cons.mp isRun with isFirst | isLater
    · obtain ⟨rfl, isLength⟩ := Prod.mk.inj isFirst
      refine ⟨List.mem_cons_self, ?_⟩
      split at isLength
      · next last shorter more =>
        split at isLength
        · next touches =>
          exact .inr ⟨last, shorter, subset _ List.mem_cons_self, (eq_of_beq touches).symm,
            isLength⟩
        · exact .inl isLength
      · exact .inl isLength
    · obtain ⟨isPlace, extends'⟩ := ih isLater
      refine ⟨List.mem_cons_of_mem _ isPlace, extends'.imp_right ?_⟩
      rintro ⟨last, shorter, isRun, split⟩
      exact ⟨last, shorter, subset _ isRun, split⟩

theorem mem_takeWhile_dropWhile {places : List Nat} {start stop place : Nat}
    (inOrder : places.Pairwise (· < ·))
    (isInside : place ∈ (places.dropWhile (· < start)).takeWhile (· < stop)) :
    place ∈ places ∧ start ≤ place ∧ place < stop := by
  have isLater := (List.takeWhile_sublist _).subset isInside
  refine ⟨(List.dropWhile_sublist _).subset isLater,
    ?_, by simpa using List.mem_takeWhile_imp isInside⟩
  induction places with
  | nil => cases isLater
  | cons first rest ih =>
    obtain ⟨isFirst, inOrder⟩ := List.pairwise_cons.mp inOrder
    rw [List.dropWhile_cons] at isLater isInside
    split at isLater
    · next before =>
      rw [if_pos before] at isInside
      exact ih inOrder isInside isLater
    · next behind =>
      have le : start ≤ first := by simpa using behind
      rcases List.mem_cons.mp isLater with rfl | isRest
      · exact le
      · exact Nat.le_trans le (Nat.le_of_lt (isFirst place isRest))

/-- The runs that end with the next line. This is the step of the comparison, line by line of the
left list. -/
theorem runsTo_extendRuns (noted : comparison.Noted) {text : String}
    (isText : comparison.left[line]? = some text)
    (inside : window.leftStart ≤ line ∧ line < window.leftStop)
    (sound : ∀ run ∈ runs, comparison.RunsTo window line run) :
    ∀ run ∈ extendRuns
      (((comparison.places.getD text []).dropWhile (· < window.rightStart)).takeWhile
        (· < window.rightStop)) runs, comparison.RunsTo window (line + 1) run := by
  rintro ⟨place, length⟩ isRun
  obtain ⟨isInside, extends'⟩ := mem_extendRuns isRun
  obtain ⟨isPlace, ge, lt⟩ := mem_takeWhile_dropWhile (noted.inOrder text) isInside
  have bound : line < comparison.left.toList.length := by
    obtain ⟨isInside, -⟩ := Array.getElem?_eq_some_iff.mp isText
    exact isInside
  have same : comparison.left.toList[line]? = comparison.right.toList[place]? := by
    rw [Array.getElem?_toList, Array.getElem?_toList, isText, noted.place text place isPlace]
  have single : Common comparison.left.toList comparison.right.toList line place 1 :=
    .single bound same
  rcases extends' with rfl | ⟨last, shorter, wasRun, rfl, rfl⟩
  · exact ⟨Nat.one_pos, Nat.le_add_left .., Nat.le_add_left ..,
      ⟨inside.1, inside.2, ge, lt, single⟩⟩
  · obtain ⟨positive, leLine, leLast, within⟩ := sound _ wasRun
    dsimp only at positive leLine leLast within
    have starts := within.leftStart
    have starts' := within.rightStart
    dsimp only at starts starts'
    refine ⟨Nat.succ_pos _, Nat.succ_le_succ leLine, Nat.succ_le_succ leLast, ?_, ?_, ?_, ?_,
      ?_⟩ <;>
      dsimp only
    · omega
    · omega
    · omega
    · omega
    · have common := within.common
      rw [show line + 1 - (shorter + 1) = line - shorter by omega,
        show last + 1 + 1 - (shorter + 1) = last + 1 - shorter by omega]
      refine common.append ?_
      rwa [show line - shorter + shorter = line by omega,
        show last + 1 - shorter + shorter = last + 1 by omega]

theorem within_longerRun {best : Block} (isBest : comparison.Within window best)
    (sound : ∀ run ∈ runs, comparison.RunsTo window (line + 1) run) :
    comparison.Within window (longerRun line best runs) := by
  induction runs generalizing best with
  | nil => exact isBest
  | cons run runs ih =>
    obtain ⟨place, length⟩ := run
    refine ih ?_ fun run isRun => sound run (List.mem_cons_of_mem _ isRun)
    dsimp only
    split
    · exact (sound _ List.mem_cons_self).2.2.2
    · exact isBest

theorem within_longestRun (noted : comparison.Noted) {count : Nat} {best : Block}
    (starts : window.leftStart ≤ line) (stops : line + count = window.leftStop)
    (isBest : comparison.Within window best)
    (sound : ∀ run ∈ runs, comparison.RunsTo window line run) :
    comparison.Within window (comparison.longestRun window count line runs best) := by
  induction count generalizing line runs best with
  | zero => exact isBest
  | succ count ih =>
    rw [longestRun]
    cases isText : comparison.left[line]? with
    | none =>
      have sound' : ∀ run ∈ extendRuns [] runs, comparison.RunsTo window (line + 1) run := nofun
      exact ih (by omega) (by omega) (within_longerRun isBest sound') sound'
    | some text =>
      have sound' := runsTo_extendRuns noted isText ⟨starts, by omega⟩ sound
      exact ih (by omega) (by omega) (within_longerRun isBest sound') sound'

end Runs

section Longest

variable {comparison : Comparison} {window : Window} {block : Block} {left right : Nat}

theorem common_of_agreesAt (agrees : comparison.agreesAt left right = true) :
    Common comparison.left.toList comparison.right.toList left right 1 := by
  unfold agreesAt at agrees
  split at agrees
  · next a b isLeft isRight =>
    obtain ⟨isInside, -⟩ := Array.getElem?_eq_some_iff.mp isLeft
    refine .single isInside ?_
    rw [Array.getElem?_toList, Array.getElem?_toList, isLeft, isRight, eq_of_beq agrees]
  · cases agrees

theorem within_extendLeft {rounds : Nat} (within : comparison.Within window block) :
    comparison.Within window (comparison.extendLeft window rounds block) := by
  induction rounds generalizing block with
  | zero => exact within
  | succ rounds ih =>
    rw [extendLeft]
    split
    · next agrees =>
      simp only [Bool.and_eq_true, decide_eq_true_eq] at agrees
      obtain ⟨⟨inLeft, inRight⟩, agrees⟩ := agrees
      have leftStop := within.leftStop
      have rightStop := within.rightStop
      refine ih ⟨?_, ?_, ?_, ?_, ?_⟩ <;> dsimp only
      · omega
      · omega
      · omega
      · omega
      · rw [Nat.add_comm block.size]
        refine (common_of_agreesAt agrees).append ?_
        rw [Nat.sub_add_cancel (by omega), Nat.sub_add_cancel (by omega)]
        exact within.common
    · exact within

theorem within_extendRight {rounds : Nat} (within : comparison.Within window block) :
    comparison.Within window (comparison.extendRight window rounds block) := by
  induction rounds generalizing block with
  | zero => exact within
  | succ rounds ih =>
    rw [extendRight]
    split
    · next agrees =>
      simp only [Bool.and_eq_true, decide_eq_true_eq] at agrees
      obtain ⟨⟨inLeft, inRight⟩, agrees⟩ := agrees
      exact ih ⟨within.leftStart, inLeft, within.rightStart, inRight,
        within.common.append (common_of_agreesAt agrees)⟩
    · exact within

/-- A window is a part of both lists. -/
structure Inside (comparison : Comparison) (window : Window) : Prop where
  leftOrder : window.leftStart ≤ window.leftStop
  leftBound : window.leftStop ≤ comparison.left.toList.length
  rightOrder : window.rightStart ≤ window.rightStop
  rightBound : window.rightStop ≤ comparison.right.toList.length

/-- The longest match in a window lies in it, and the lists have its lines in common. That it is the
longest is not needed for what a diff has to do. -/
theorem within_longest (noted : comparison.Noted) (inside : comparison.Inside window) :
    comparison.Within window (comparison.longest window) := by
  have empty : comparison.Within window ⟨window.leftStart, window.rightStart, 0⟩ :=
    ⟨Nat.le_refl _, inside.leftOrder, Nat.le_refl _, inside.rightOrder,
      .empty (inside.leftOrder.trans inside.leftBound) (inside.rightOrder.trans inside.rightBound)⟩
  exact within_extendRight (within_extendLeft (within_longestRun noted (Nat.le_refl _)
    (Nat.add_sub_cancel' inside.leftOrder) empty nofun))

end Longest

end Comparison

/-! ## All matches -/

/-- Matches come one behind the other in both lists, from one place in each to another, and the
lists have the lines of each in common. -/
inductive Aligned {α : Type} (left right : List α) : (a b a' b' : Nat) → List Block → Prop
  | nil {a b a' b' : Nat} : a ≤ a' → b ≤ b' → Aligned left right a b a' b' []
  | cons {a b a' b' : Nat} {block : Block} {rest : List Block} :
    a ≤ block.left → b ≤ block.right → 0 < block.size →
    Common left right block.left block.right block.size →
    Aligned left right (block.left + block.size) (block.right + block.size) a' b' rest →
    Aligned left right a b a' b' (block :: rest)

section Alignment

variable {α β : Type} {left right : List α} {a b c d a' b' : Nat} {blocks more : List Block}

theorem Aligned.from_earlier (aligned : Aligned left right c d a' b' blocks)
    (le : a ≤ c) (le' : b ≤ d) :
    Aligned left right a b a' b' blocks := by
  cases aligned with
  | nil h h' => exact .nil (le.trans h) (le'.trans h')
  | cons h h' positive common rest => exact .cons (le.trans h) (le'.trans h') positive common rest

theorem Aligned.append (first : Aligned left right a b c d blocks)
    (second : Aligned left right c d a' b' more) :
    Aligned left right a b a' b' (blocks ++ more) := by
  induction first with
  | nil le le' => exact second.from_earlier le le'
  | cons le le' positive common _ ih => exact .cons le le' positive common (ih second)

theorem Aligned.joinAdjacent (aligned : Aligned left right a b a' b' blocks) :
    Aligned left right a b a' b' (Comparison.joinAdjacent blocks) := by
  induction blocks using Comparison.joinAdjacent.induct generalizing a b with
  | case1 first second rest touches ih =>
    rw [Comparison.joinAdjacent, if_pos touches]
    simp only [Bool.and_eq_true, beq_iff_eq] at touches
    cases aligned with
    | cons le le' positive common aligned =>
      cases aligned with
      | cons _ _ positive' common' aligned =>
        refine ih (.cons le le' (Nat.add_pos_left positive _) ?_ ?_)
        · rw [← touches.1, ← touches.2] at common'
          exact common.append common'
        · dsimp only
          rw [← Nat.add_assoc, ← Nat.add_assoc, touches.1, touches.2]
          exact aligned
  | case2 first second rest apart ih =>
    rw [Comparison.joinAdjacent, if_neg apart]
    cases aligned with
    | cons le le' positive common aligned => exact .cons le le' positive common (ih aligned)
  | case3 blocks short => rwa [Comparison.joinAdjacent]; exact short

theorem Aligned.of_map {f : α → β} (injective : ∀ x y, f x = f y → x = y)
    (aligned : Aligned (left.map f) (right.map f) a b a' b' blocks) :
    Aligned left right a b a' b' blocks := by
  induction aligned with
  | nil le le' => exact .nil le le'
  | cons le le' positive common _ ih => exact .cons le le' positive (common.of_map injective) ih

/-- The matches in a window lie in it, in the order of both lists. By induction on the depth: the
longest match parts the window in two. -/
theorem aligned_blocksIn {comparison : Comparison} (noted : comparison.Noted) (depth : Nat)
    {window : Window} (inside : comparison.Inside window) :
    Aligned comparison.left.toList comparison.right.toList window.leftStart window.rightStart
      window.leftStop window.rightStop (comparison.blocksIn depth window) := by
  induction depth generalizing window with
  | zero => exact .nil inside.leftOrder inside.rightOrder
  | succ depth ih =>
    have within := Comparison.within_longest noted inside
    rw [Comparison.blocksIn]
    dsimp only
    generalize comparison.longest window = block at within
    have before :
        comparison.Inside { window with leftStop := block.left, rightStop := block.right } :=
      ⟨within.leftStart, within.common.leftBound.trans' (Nat.le_add_right ..), within.rightStart,
        within.common.rightBound.trans' (Nat.le_add_right ..)⟩
    have after : comparison.Inside { window with
        leftStart := block.left + block.size, rightStart := block.right + block.size } :=
      ⟨within.leftStop, inside.leftBound, within.rightStop, inside.rightBound⟩
    split
    · exact .nil inside.leftOrder inside.rightOrder
    · next nonempty =>
      have positive : 0 < block.size := Nat.pos_of_ne_zero (by simpa using nonempty)
      refine .append (c := block.left) (d := block.right) ?_
        (.cons (Nat.le_refl _) (Nat.le_refl _) positive within.common ?_)
      · split
        · exact ih before
        · exact .nil within.leftStart within.rightStart
      · split
        · exact ih after
        · exact .nil within.leftStop within.rightStop

/-- The matches of two lists are in the order of both. -/
theorem aligned_blocks (left right : List String) :
    Aligned left right 0 0 left.length right.length (Comparison.of left right).blocks := by
  have whole : (Comparison.of left right).Inside ⟨0, left.length, 0, right.length⟩ :=
    ⟨Nat.zero_le _, by simp [Comparison.of], Nat.zero_le _, by simp [Comparison.of]⟩
  have aligned := aligned_blocksIn (Comparison.noted_of left right) (left.length + 1) whole
  simpa [Comparison.blocks, Comparison.of] using aligned.joinAdjacent

end Alignment

end RenderProbe.Diff
