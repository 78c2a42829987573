import Std.Data.HashMap

/-!
# Matching lines

The parts that two lists of lines share. The longest run of lines that both have is a match, the
earliest of equally long ones; to its left and right the same is done again. A line that occurs very
often in a long list starts no match, but a match may extend over it.

* `Comparison.blocks` gives the matches in order.
-/

namespace RenderProbe.Diff

/-- A run of `size` lines that stands at `left` in one list and at `right` in the other. -/
structure Block where
  left : Nat
  right : Nat
  size : Nat
  deriving DecidableEq, Inhabited

structure Window where
  leftStart : Nat
  leftStop : Nat
  rightStart : Nat
  rightStop : Nat
  deriving DecidableEq, Inhabited

/-- The places of each line in a list, in order. -/
abbrev Places := Std.HashMap String (List Nat)

/-- Two lists of lines, with the places of the lines that may start a match. -/
structure Comparison where
  left : Array String
  right : Array String
  places : Places

namespace Comparison

/-- The length from which on frequent lines are left out. -/
def frequencyFloor : Nat :=
  200

def allPlaces (lines : List String) : Places :=
  lines.zipIdx.foldr (fun (line, place) places =>
    places.insert line (place :: places.getD line [])) ∅

/-- The places of the lines that are not too frequent. -/
def placesOf (lines : List String) : Places :=
  let places := allPlaces lines
  let count := lines.length
  if count < frequencyFloor then places
  else places.filter fun _ found => found.length ≤ count / 100 + 1

def of (left right : List String) : Comparison :=
  ⟨left.toArray, right.toArray, placesOf right⟩

/-- Whether the lists have the same line at two places. -/
def agreesAt (comparison : Comparison) (left right : Nat) : Bool :=
  match comparison.left[left]?, comparison.right[right]? with
  | some a, some b => a == b
  | _, _ => false

/-! ## The longest match -/

/-- The lengths of the runs that end at given places, from those that end one line before. -/
def extendRuns : List Nat → List (Nat × Nat) → List (Nat × Nat)
  | [], _ => []
  | place :: rest, runs =>
    let runs := runs.dropWhile fun run => run.1 + 1 < place
    let length := match runs with
      | (last, length) :: _ => if last + 1 == place then length + 1 else 1
      | [] => 1
    (place, length) :: extendRuns rest runs

/-- The longer of a match and the runs that end at a line of the left list, the first on a tie. -/
def longerRun (line : Nat) (best : Block) (runs : List (Nat × Nat)) : Block :=
  runs.foldl (fun best (place, length) =>
    if best.size < length then ⟨line + 1 - length, place + 1 - length, length⟩ else best) best

/-- The longest run among the lines from `line` on, `count` of them. -/
def longestRun (comparison : Comparison) (window : Window) :
    Nat → Nat → List (Nat × Nat) → Block → Block
  | 0, _, _, best => best
  | count + 1, line, runs, best =>
    let found := match comparison.left[line]? with
      | some text => comparison.places.getD text []
      | none => []
    let inside := (found.dropWhile (· < window.rightStart)).takeWhile (· < window.rightStop)
    let next := extendRuns inside runs
    longestRun comparison window count (line + 1) next (longerRun line best next)

/-- A match extended to the left as far as the lines agree. -/
def extendLeft (comparison : Comparison) (window : Window) : Nat → Block → Block
  | 0, block => block
  | rounds + 1, block =>
    if window.leftStart < block.left && window.rightStart < block.right
        && comparison.agreesAt (block.left - 1) (block.right - 1) then
      extendLeft comparison window rounds ⟨block.left - 1, block.right - 1, block.size + 1⟩
    else block

/-- A match extended to the right as far as the lines agree. -/
def extendRight (comparison : Comparison) (window : Window) : Nat → Block → Block
  | 0, block => block
  | rounds + 1, block =>
    if block.left + block.size < window.leftStop && block.right + block.size < window.rightStop
        && comparison.agreesAt (block.left + block.size) (block.right + block.size) then
      extendRight comparison window rounds { block with size := block.size + 1 }
    else block

def longest (comparison : Comparison) (window : Window) : Block :=
  let lines := window.leftStop - window.leftStart
  let run := longestRun comparison window lines window.leftStart []
    ⟨window.leftStart, window.rightStart, 0⟩
  extendRight comparison window lines (extendLeft comparison window lines run)

/-! ## All matches -/

/-- The matches in a window, in order, within a depth. -/
def blocksIn (comparison : Comparison) : Nat → Window → List Block
  | 0, _ => []
  | depth + 1, window =>
    let block := comparison.longest window
    if block.size == 0 then []
    else
      let before :=
        if window.leftStart < block.left && window.rightStart < block.right then
          blocksIn comparison depth
            { window with leftStop := block.left, rightStop := block.right }
        else []
      let leftEnd := block.left + block.size
      let rightEnd := block.right + block.size
      let after :=
        if leftEnd < window.leftStop && rightEnd < window.rightStop then
          blocksIn comparison depth { window with leftStart := leftEnd, rightStart := rightEnd }
        else []
      before ++ block :: after

/-- Matches that touch put together. -/
def joinAdjacent : List Block → List Block
  | a :: b :: rest =>
    if a.left + a.size == b.left && a.right + a.size == b.right then
      joinAdjacent (⟨a.left, a.right, a.size + b.size⟩ :: rest)
    else a :: joinAdjacent (b :: rest)
  | blocks => blocks
termination_by blocks => blocks.length

/-- The matches of two lists, in order. -/
def blocks (comparison : Comparison) : List Block :=
  let whole : Window := ⟨0, comparison.left.size, 0, comparison.right.size⟩
  joinAdjacent (blocksIn comparison (comparison.left.size + 1) whole)

end Comparison

end RenderProbe.Diff
