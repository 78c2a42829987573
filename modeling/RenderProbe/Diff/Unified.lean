import RenderProbe.Diff.Match
import RenderProbe.Text.Lines

/-!
# Unified diffs

The change from one text to another as hunks: lines taken away, lines put in, and a few lines around
them that stay.
-/

namespace RenderProbe.Diff

/-- What becomes of a part of the old lines: it stays, or it is replaced by a part of the new
ones. -/
inductive Change where
  | keep (old : Nat × Nat) (new : Nat × Nat)
  | replace (old : Nat × Nat) (new : Nat × Nat)
  deriving DecidableEq, Inhabited

namespace Change

/-- The old lines of a change, as the first and the one after the last. -/
def old : Change → Nat × Nat
  | keep old _ => old
  | replace old _ => old

def new : Change → Nat × Nat
  | keep _ new => new
  | replace _ new => new

def isKeep : Change → Bool
  | keep .. => true
  | replace .. => false

def oldCount (change : Change) : Nat :=
  change.old.2 - change.old.1

end Change

/-- The number of lines around a change that are shown. -/
def context : Nat :=
  3

/-- The changes that matches leave, from given places on to the ends of the lists. -/
def changesFrom (oldSize newSize old new : Nat) : List Block → List Change
  | [] =>
    if old < oldSize || new < newSize then [.replace (old, oldSize) (new, newSize)] else []
  | block :: rest =>
    let oldEnd := block.left + block.size
    let newEnd := block.right + block.size
    (if old < block.left || new < block.right then
      [.replace (old, block.left) (new, block.right)]
    else []) ++ .keep (block.left, oldEnd) (block.right, newEnd)
      :: changesFrom oldSize newSize oldEnd newEnd rest

/-- The end of lines that stay, no longer than the context. -/
def keepTail : Change → Change
  | .keep (o1, o2) (n1, n2) => .keep (max o1 (o2 - context), o2) (max n1 (n2 - context), n2)
  | change => change

/-- The start of lines that stay, no longer than the context. -/
def keepHead : Change → Change
  | .keep (o1, o2) (n1, n2) => .keep (o1, min o2 (o1 + context)) (n1, min n2 (n1 + context))
  | change => change

def mapLast (f : Change → Change) : List Change → List Change
  | [] => []
  | [change] => [f change]
  | change :: rest => change :: mapLast f rest

def mapFirst (f : Change → Change) : List Change → List Change
  | [] => []
  | change :: rest => f change :: rest

/-- Changes cut into hunks where many lines stay; `hunk` holds the first hunk so far, last change
first. -/
def hunksFrom (hunk : List Change) : List Change → List (List Change)
  | [] => [hunk.reverse]
  | change :: rest =>
    if change.isKeep && 2 * context < change.oldCount then
      (keepHead change :: hunk).reverse :: hunksFrom [keepTail change] rest
    else hunksFrom (change :: hunk) rest

/-- Whether a hunk changes something. -/
def isHunk (hunk : List Change) : Bool :=
  hunk.any fun change => !change.isKeep

def hunks (changes : List Change) : List (List Change) :=
  (hunksFrom [] (mapLast keepHead (mapFirst keepTail changes))).filter isHunk

/-! ## Text -/

/-- A range of lines as a hunk's head shows it. -/
def rangeText (start stop : Nat) : String :=
  let count := stop - start
  if count == 1 then s!"{start + 1}"
  else if count == 0 then s!"{start},0"
  else s!"{start + 1},{count}"

def marked (mark : String) (lines : Array String) (range : Nat × Nat) : String :=
  (lines.extract range.1 range.2).foldl (fun text line => text ++ mark ++ line) ""

def changeText (old new : Array String) : Change → String
  | .keep range _ => marked " " old range
  | .replace oldRange newRange => marked "-" old oldRange ++ marked "+" new newRange

def hunkText (old new : Array String) (hunk : List Change) : String :=
  match hunk.head?, hunk.getLast? with
  | some first, some last =>
    let oldRange := rangeText first.old.1 last.old.2
    let newRange := rangeText first.new.1 last.new.2
    s!"@@ -{oldRange} +{newRange} @@\n" ++ String.join (hunk.map (changeText old new))
  | _, _ => ""

/-- The diff between two texts of a file of a given name; it is empty when they are equal. -/
def unified (name old new : String) : String :=
  let oldLines := (Text.lines old.toList).map String.ofList
  let newLines := (Text.lines new.toList).map String.ofList
  let comparison := Comparison.of oldLines newLines
  let changes := changesFrom oldLines.length newLines.length 0 0 comparison.blocks
  match hunks changes with
  | [] => ""
  | found =>
    s!"--- a/{name}\n+++ b/{name}\n"
      ++ String.join (found.map (hunkText comparison.left comparison.right))

end RenderProbe.Diff
