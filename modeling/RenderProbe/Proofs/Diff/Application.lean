import RenderProbe.Proofs.Diff.Match
import RenderProbe.Text.Match

/-!
# Applying a diff

A diff is a text. It is read line by line, where a line ends at a line feed and nowhere else: two
lines that name the files, then hunks, each with a head and as many lines as its head announces.

* `applyDiff`: what a diff makes of a text, if it can be read and fits the text.
* `Script`: the lines of a diff from one list of lines to another, by what each of them passes and
  writes.
* `Script.run`: reading such lines writes the new list.
* `Script.run_joined`: if a line among them is not ended and the next is joined to it, they do not
  fit the text.
-/

namespace RenderProbe.Diff

/-! ## Lines -/

/-- A text cut behind each line feed. -/
def cutLines : List Char → List (List Char)
  | [] => []
  | c :: rest =>
    if c == '\n' then ['\n'] :: cutLines rest
    else match cutLines rest with
      | [] => [[c]]
      | line :: lines => (c :: line) :: lines

/-- A line with its end: a line feed at its end, and no other. -/
def IsLine (line : List Char) : Prop :=
  ∃ front, line = front ++ ['\n'] ∧ '\n' ∉ front

/-- Some characters of which at most the last is a line feed. -/
def IsPiece (line : List Char) : Prop :=
  IsLine line ∨ line ≠ [] ∧ '\n' ∉ line

/-- Pieces of a text, all of them lines with their ends but perhaps the last. -/
structure Cut (lines : List (List Char)) : Prop where
  piece : ∀ line ∈ lines, IsPiece line
  ended : ∀ line ∈ lines.dropLast, IsLine line

section Cuts

variable {line text first : List Char} {lines : List (List Char)} {c : Char}

theorem IsPiece.ne_nil (piece : IsPiece line) : line ≠ [] := by
  rcases piece with ⟨front, rfl, -⟩ | ⟨nonempty, -⟩
  · simp
  · exact nonempty

theorem IsLine.cons (isLine : IsLine line) (other : c ≠ '\n') : IsLine (c :: line) := by
  obtain ⟨front, rfl, absent⟩ := isLine
  exact ⟨c :: front, rfl, List.not_mem_cons_of_ne_of_not_mem other.symm absent⟩

theorem IsPiece.cons (piece : IsPiece line) (other : c ≠ '\n') : IsPiece (c :: line) := by
  rcases piece with isLine | ⟨-, absent⟩
  · exact .inl (isLine.cons other)
  · exact .inr ⟨List.cons_ne_nil _ _, List.not_mem_cons_of_ne_of_not_mem other.symm absent⟩

theorem isLine_iff_getLast? (piece : IsPiece line) : IsLine line ↔ line.getLast? = some '\n' := by
  constructor
  · rintro ⟨front, rfl, -⟩
    exact List.getLast?_concat
  · intro last
    rcases piece with isLine | ⟨-, absent⟩
    · exact isLine
    · exact absurd (List.mem_of_getLast? last) absent

theorem cutLines_cons_of_ne (other : c ≠ '\n') (text : List Char) :
    cutLines (c :: text) = match cutLines text with
      | [] => [[c]]
      | line :: lines => (c :: line) :: lines := by
  rw [cutLines, if_neg (by simpa using other)]

/-- The pieces of a text are the text. -/
theorem flatten_cutLines (text : List Char) : (cutLines text).flatten = text := by
  induction text with
  | nil => rfl
  | cons c text ih =>
    by_cases feed : c = '\n'
    · subst feed
      rw [cutLines, if_pos (by rfl), List.flatten_cons, ih]
      rfl
    · rw [cutLines_cons_of_ne feed]
      cases cut : cutLines text with
      | nil => rw [cut] at ih; rw [← ih]; rfl
      | cons line lines => rw [cut] at ih; rw [← ih]; rfl

/-- A text is cut into pieces, of which only the last may be without an end. This is the piece that
a diff joins to the line behind it. -/
theorem cut_cutLines (text : List Char) : Cut (cutLines text) := by
  induction text with
  | nil => exact ⟨nofun, nofun⟩
  | cons c text ih =>
    by_cases feed : c = '\n'
    · subst feed
      have isLine : IsLine ['\n'] := ⟨[], rfl, by simp⟩
      rw [cutLines, if_pos (by rfl)]
      refine ⟨List.forall_mem_cons.mpr ⟨.inl isLine, ih.piece⟩, fun line isMember => ?_⟩
      cases cut : cutLines text with
      | nil => simp [cut] at isMember
      | cons first rest =>
        rw [cut, List.dropLast_cons_of_ne_nil (List.cons_ne_nil _ _), ← cut] at isMember
        rcases List.mem_cons.mp isMember with rfl | later
        · exact isLine
        · exact ih.ended line later
    · rw [cutLines_cons_of_ne feed]
      cases cut : cutLines text with
      | nil => exact ⟨by simp [IsPiece, Ne.symm feed], by simp⟩
      | cons first rest =>
        rw [cut] at ih
        obtain ⟨isFirst, isRest⟩ := List.forall_mem_cons.mp ih.piece
        refine ⟨List.forall_mem_cons.mpr ⟨isFirst.cons feed, isRest⟩, fun line isMember => ?_⟩
        cases rest with
        | nil => cases isMember
        | cons second rest =>
          have ended := ih.ended
          rw [List.dropLast_cons_of_ne_nil (List.cons_ne_nil _ _)] at isMember ended
          rcases List.mem_cons.mp isMember with rfl | later
          · exact (ended first List.mem_cons_self).cons feed
          · exact ended line (List.mem_cons_of_mem _ later)

/-- A line with its end is cut off. -/
theorem cutLines_line (isLine : IsLine line) (text : List Char) :
    cutLines (line ++ text) = line :: cutLines text := by
  obtain ⟨front, rfl, absent⟩ := isLine
  induction front with
  | nil => rfl
  | cons c front ih =>
    rw [List.mem_cons, not_or] at absent
    simp only [List.cons_append, cutLines_cons_of_ne (Ne.symm absent.1), ih absent.2]

/-- What is not ended is joined to what follows. -/
theorem cutLines_open (nonempty : line ≠ []) (absent : '\n' ∉ line) (text : List Char) :
    cutLines (line ++ text) = match cutLines text with
      | [] => [line]
      | first :: rest => (line ++ first) :: rest := by
  induction line with
  | nil => exact absurd rfl nonempty
  | cons c line ih =>
    rw [List.mem_cons, not_or] at absent
    rw [List.cons_append, cutLines_cons_of_ne (Ne.symm absent.1)]
    by_cases last : line = []
    · subst last
      rfl
    · rw [ih last absent.2]
      cases cutLines text <;> rfl

/-- Pieces that are ended but for the last are cut out of what they make together. -/
theorem cutLines_flatten (cut : Cut lines) : cutLines lines.flatten = lines := by
  induction lines with
  | nil => rfl
  | cons line lines ih =>
    obtain ⟨isPiece, pieces⟩ := List.forall_mem_cons.mp cut.piece
    by_cases last : lines = []
    · subst last
      rcases isPiece with isLine | ⟨nonempty, absent⟩
      · rw [List.flatten_cons, cutLines_line isLine]
        rfl
      · rw [List.flatten_cons, cutLines_open nonempty absent]
        rfl
    · have ended := cut.ended
      rw [List.dropLast_cons_of_ne_nil last] at ended
      obtain ⟨isLine, ended⟩ := List.forall_mem_cons.mp ended
      rw [List.flatten_cons, cutLines_line isLine, ih ⟨pieces, ended⟩]

theorem getLast?_flatten_concat {front : List (List Char)} (nonempty : line ≠ []) :
    (front ++ [line]).flatten.getLast? = line.getLast? := by
  rw [List.flatten_append, List.flatten_singleton, List.getLast?_append,
    List.getLast?_eq_some_getLast nonempty, Option.some_or]

/-- All pieces of a text that ends with a line feed are lines with their ends. -/
theorem isLine_of_mem_cutLines (feed : text.getLast? = some '\n') :
    ∀ line ∈ cutLines text, IsLine line := by
  have cut := cut_cutLines text
  have flat := flatten_cutLines text
  rcases List.eq_nil_or_concat (cutLines text) with none | ⟨front, last, isLast⟩
  · rw [none]
    exact nofun
  · rw [isLast, List.concat_eq_append] at cut flat ⊢
    have isPiece := cut.piece last (by simp)
    have ended := cut.ended
    rw [List.dropLast_concat] at ended
    rw [← flat, getLast?_flatten_concat isPiece.ne_nil] at feed
    intro line isMember
    rcases List.mem_append.mp isMember with earlier | isLast
    · exact ended line earlier
    · rw [List.mem_singleton.mp isLast]
      exact (isLine_iff_getLast? isPiece).mpr feed

/-- Only the last piece is without an end. -/
theorem Cut.last {place : Nat} (cut : Cut lines) (isLine : lines[place]? = some line)
    (absent : '\n' ∉ line) :
    place + 1 = lines.length := by
  obtain ⟨bound, rfl⟩ := List.getElem?_eq_some_iff.mp isLine
  by_contra more
  have isEarlier : lines[place] ∈ lines.dropLast := by
    rw [← List.getElem_dropLast (i := place) (by simp; omega)]
    exact List.getElem_mem _
  obtain ⟨front, split, -⟩ := cut.ended _ isEarlier
  rw [split] at absent
  simp at absent

end Cuts

/-! ## Reading -/

/-- The number at the front, in decimal digits. -/
def readNumber? (text : List Char) : Option (Nat × List Char) :=
  let digits := text.takeWhile Char.isDigit
  if digits.isEmpty then none
  else some (Nat.ofDigitChars 10 digits 0, text.dropWhile Char.isDigit)

/-- The range of lines at the front: how many lines come before it and how many it has. The number
of its first line is written, or that of the line before if it is empty; a count of one may be left
out. -/
def readRange? (text : List Char) : Option ((Nat × Nat) × List Char) :=
  (readNumber? text).bind fun (number, rest) => match rest with
    | ',' :: rest => (readNumber? rest).map fun (count, rest) =>
        ((if count == 0 then number else number - 1, count), rest)
    | _ => some ((number - 1, 1), rest)

/-- The head of a hunk: its old and its new lines. -/
def readHead? (line : List Char) : Option ((Nat × Nat) × (Nat × Nat)) :=
  (Text.literal? "@@ -".toList line).bind fun rest =>
  (readRange? rest).bind fun (old, rest) =>
  (Text.literal? " +".toList rest).bind fun rest =>
  (readRange? rest).bind fun (new, rest) =>
    if rest == " @@\n".toList then some (old, new) else none

/-- What there is when a part of a diff is read: the old lines ahead, how many are passed, the new
lines written so far, and how many of each are due in the hunk. -/
structure Reading where
  ahead : List (List Char)
  passed : Nat
  written : List (List Char)
  oldDue : Nat
  newDue : Nat

namespace Reading

/-- Begin a hunk: the old lines before it stay, and it has to be at the right place among the new
ones. -/
def begin (reading : Reading) (old new : Nat × Nat) : Option Reading :=
  let skipped := old.1 - reading.passed
  if reading.passed ≤ old.1 ∧ skipped ≤ reading.ahead.length
      ∧ new.1 = reading.written.length + skipped then
    some ⟨reading.ahead.drop skipped, old.1, reading.written ++ reading.ahead.take skipped, old.2,
      new.2⟩
  else none

/-- Pass an old line, which has to be the given one. -/
def pass (reading : Reading) (text : List Char) : Option Reading :=
  match reading.ahead, reading.oldDue with
  | first :: ahead, due + 1 =>
    if first = text then
      some { reading with ahead := ahead, passed := reading.passed + 1, oldDue := due }
    else none
  | _, _ => none

/-- Write a new line. -/
def write (reading : Reading) (text : List Char) : Option Reading :=
  match reading.newDue with
  | due + 1 => some { reading with written := reading.written ++ [text], newDue := due }
  | 0 => none

/-- Read a line: the head of a hunk if none is due in the last one, else a line that stays, goes or
is new. -/
def step (reading : Reading) (line : List Char) : Option Reading :=
  if reading.oldDue = 0 ∧ reading.newDue = 0 then
    (readHead? line).bind fun (old, new) => reading.begin old new
  else match line with
    | ' ' :: text => (reading.pass text).bind (·.write text)
    | '-' :: text => reading.pass text
    | '+' :: text => reading.write text
    | _ => none

/-- Read lines to the end, where no line may be due. The old lines that are still ahead stay. -/
def run (reading : Reading) : List (List Char) → Option (List Char)
  | [] =>
    if reading.oldDue = 0 ∧ reading.newDue = 0 then
      some (reading.written ++ reading.ahead).flatten
    else none
  | line :: lines => (reading.step line).bind (·.run lines)

end Reading

/-- What a diff makes of a text, if it can be read and fits the text. It knows of the diff only the
format: heads of hunks, and lines with a mark in front. -/
def applyDiff (diff old : List Char) : Option (List Char) :=
  match cutLines diff with
  | first :: second :: lines =>
    if "--- ".toList.isPrefixOf first && "+++ ".toList.isPrefixOf second then
      Reading.run ⟨cutLines old, 0, [], 0, 0⟩ lines
    else none
  | _ => none

/-! ## Scripts -/

/-- The lines of a diff from a place in each of two lists to their ends, where so many lines are due
in the hunk that has begun. `added` says that a line was written last; then none may go next. -/
inductive Script (old new : List (List Char)) : (added : Bool) → (i j oldDue newDue : Nat) →
    List (List Char) → Prop
  | done {added : Bool} {i j : Nat} :
      (old.drop i).flatten = (new.drop j).flatten → Script old new added i j 0 0 []
  | head {added : Bool} {i j skipped x y : Nat} {line : List Char} {lines : List (List Char)} :
    Common old new i j skipped → IsLine line →
      readHead? line = some ((i + skipped, x), (j + skipped, y)) →
    0 < x ∨ 0 < y → Script old new added (i + skipped) (j + skipped) x y lines →
    Script old new added i j 0 0 (line :: lines)
  | keep {added : Bool} {i j x y : Nat} {text : List Char} {lines : List (List Char)} :
    old[i]? = some text → new[j]? = some text → Script old new false (i + 1) (j + 1) x y lines →
    Script old new added i j (x + 1) (y + 1) ((' ' :: text) :: lines)
  | remove {i j x y : Nat} {text : List Char} {lines : List (List Char)} :
    old[i]? = some text → Script old new false (i + 1) j x y lines →
    Script old new false i j (x + 1) y (('-' :: text) :: lines)
  | add {added : Bool} {i j x y : Nat} {text : List Char} {lines : List (List Char)} :
    new[j]? = some text → Script old new true i (j + 1) x y lines →
    Script old new added i j x (y + 1) (('+' :: text) :: lines)

section Scripts

variable {old new written lines : List (List Char)} {added : Bool}
  {i j x y : Nat} {text line : List Char}

theorem Script.mono (script : Script old new true i j x y lines) :
    Script old new added i j x y lines := by
  generalize isAdded : true = flag at script
  induction script with
  | done rest => exact .done rest
  | head common isLine isHead due _ ih => exact .head common isLine isHead due (ih isAdded)
  | keep isOld isNew script => exact .keep isOld isNew script
  | remove => cases isAdded
  | add isNew script => exact .add isNew script

theorem drop_eq_cons (isLine : old[i]? = some text) : old.drop i = text :: old.drop (i + 1) := by
  obtain ⟨bound, rfl⟩ := List.getElem?_eq_some_iff.mp isLine
  exact List.drop_eq_getElem_cons bound

theorem take_drop_of_common {skipped : Nat} (common : Common old new i j skipped) :
    (old.drop i).take skipped = (new.drop j).take skipped := by
  refine List.ext_getElem? fun k => ?_
  by_cases inside : k < skipped
  · rw [List.getElem?_take, List.getElem?_take, if_pos inside, if_pos inside, List.getElem?_drop,
      List.getElem?_drop, common.same k inside]
  · rw [List.getElem?_take, List.getElem?_take, if_neg inside, if_neg inside]

/-- What is read at a place in both lists: the old lines from there on are ahead, and the new ones
up to there are written. -/
def Reading.placed (old new : List (List Char)) (i j x y : Nat) : Reading :=
  ⟨old.drop i, i, new.take j, x, y⟩

theorem begin_placed {skipped : Nat} (common : Common old new i j skipped) :
    (Reading.placed old new i j 0 0).begin (i + skipped, x) (j + skipped, y) =
      some (Reading.placed old new (i + skipped) (j + skipped) x y) := by
  have leftBound := common.leftBound
  have rightBound := common.rightBound
  have fits : i ≤ i + skipped ∧ i + skipped - i ≤ (old.drop i).length
      ∧ j + skipped = (new.take j).length + (i + skipped - i) := by
    rw [List.length_drop, List.length_take]
    omega
  rw [Reading.placed, Reading.begin]
  dsimp only
  rw [if_pos fits, Nat.add_sub_cancel_left, List.drop_drop, take_drop_of_common common,
    ← List.take_add]
  rfl

theorem pass_placed (isOld : old[i]? = some text) :
    (Reading.placed old new i j (x + 1) y).pass text
      = some (Reading.placed old new (i + 1) j x y) := by
  simp [Reading.placed, Reading.pass, drop_eq_cons isOld]

theorem write_placed (isNew : new[j]? = some text) :
    (Reading.placed old new i j x (y + 1)).write text
      = some (Reading.placed old new i (j + 1) x y) := by
  simp [Reading.placed, Reading.write, List.take_add_one, isNew]

theorem step_of_due (line : List Char) (due : x ≠ 0 ∨ y ≠ 0) :
    (Reading.placed old new i j x y).step line = match line with
      | ' ' :: text => ((Reading.placed old new i j x y).pass text).bind (·.write text)
      | '-' :: text => (Reading.placed old new i j x y).pass text
      | '+' :: text => (Reading.placed old new i j x y).write text
      | _ => none := by
  unfold Reading.step
  rw [if_neg]
  rintro ⟨noOld, noNew⟩
  exact due.elim (absurd noOld) (absurd noNew)

/-- A line of a script is read, and what follows is a script from where it leads. The three cases
are the three marks. -/
theorem Script.step (script : Script old new added i j x y (line :: lines)) :
    ∃ added' i' j' x' y',
      (Reading.placed old new i j x y).step line = some (Reading.placed old new i' j' x' y')
      ∧ Script old new added' i' j' x' y' lines := by
  cases script with
  | head common isLine isHead due script =>
    refine ⟨_, _, _, _, _, ?_, script⟩
    unfold Reading.step
    rw [if_pos ⟨rfl, rfl⟩, isHead]
    exact begin_placed common
  | keep isOld isNew script =>
    refine ⟨_, _, _, _, _, ?_, script⟩
    rw [step_of_due _ (.inl (Nat.add_one_ne_zero _))]
    simp only [pass_placed isOld, Option.bind_some, write_placed isNew]
  | remove isOld script =>
    refine ⟨_, _, _, _, _, ?_, script⟩
    rw [step_of_due _ (.inl (Nat.add_one_ne_zero _))]
    exact pass_placed isOld
  | add isNew script =>
    refine ⟨_, _, _, _, _, ?_, script⟩
    rw [step_of_due _ (.inr (Nat.add_one_ne_zero _))]
    exact write_placed isNew

/-- Reading the lines of a script to the end leaves the new list. By induction on the lines, one
step of the reader for each. -/
theorem Script.run (script : Script old new added i j x y lines) :
    (Reading.placed old new i j x y).run lines = some new.flatten := by
  induction lines generalizing added i j x y with
  | nil =>
    cases script with
    | done rest =>
      rw [Reading.run, if_pos ⟨rfl, rfl⟩, Reading.placed, List.flatten_append, rest,
        ← List.flatten_append, List.take_append_drop]
  | cons line lines ih =>
    obtain ⟨added', i', j', x', y', read, script⟩ := script.step
    rw [Reading.run, read]
    exact ih script

/-! ## Joined lines -/

/-- At the end of the new list nothing is due, unless old lines may go. -/
theorem Script.due_eq_zero (script : Script old new added i new.length x y lines)
    (noMore : added = true ∨ i = old.length) : x = 0 ∧ y = 0 := by
  have noNew : new[new.length]? = none := List.getElem?_eq_none (Nat.le_refl _)
  cases script with
  | done | head => exact ⟨rfl, rfl⟩
  | keep _ isNew => cases noNew.symm.trans isNew
  | add isNew => cases noNew.symm.trans isNew
  | remove isOld =>
    obtain rfl := noMore.resolve_left Bool.false_ne_true
    cases (List.getElem?_eq_none (Nat.le_refl _)).symm.trans isOld

theorem Script.eq_nil (script : Script old new added i new.length x y lines)
    (noMore : added = true ∨ i = old.length) : lines = [] := by
  obtain ⟨rfl, rfl⟩ := script.due_eq_zero noMore
  cases script with
  | done => rfl
  | head common _ _ due script =>
    -- nothing can be left out, so what the head announces would have to be due here
    have rightBound := common.rightBound
    obtain rfl := Nat.eq_zero_of_le_zero (Nat.le_of_add_le_add_left rightBound)
    obtain ⟨rfl, rfl⟩ := script.due_eq_zero noMore
    exact absurd due (by decide)

theorem Script.piece (script : Script old new added i j x y lines)
    (cutOld : Cut old) (cutNew : Cut new) :
    ∀ line ∈ lines, IsPiece line := by
  induction script with
  | done => exact nofun
  | head _ isLine _ _ _ ih => exact List.forall_mem_cons.mpr ⟨.inl isLine, ih⟩
  | keep isOld _ _ ih =>
    exact List.forall_mem_cons.mpr ⟨(cutOld.piece _ (List.mem_of_getElem? isOld)).cons (by decide),
      ih⟩
  | remove isOld _ ih =>
    exact List.forall_mem_cons.mpr ⟨(cutOld.piece _ (List.mem_of_getElem? isOld)).cons (by decide),
      ih⟩
  | add isNew _ ih =>
    exact List.forall_mem_cons.mpr
      ⟨(cutNew.piece _ (List.mem_of_getElem? isNew)).cons (by decide), ih⟩

/-- A line of a script before the last that is not ended is the last old line, and goes. -/
theorem Script.open_line (script : Script old new added i j x y (line :: lines)) (cutOld : Cut old)
    (cutNew : Cut new) (more : lines ≠ []) (absent : '\n' ∉ line) :
    ∃ text due, line = '-' :: text ∧ old[i]? = some text ∧ x = due + 1 := by
  cases script with
  | head _ isLine =>
    obtain ⟨front, rfl, -⟩ := isLine
    simp at absent
  | keep isOld isNew script =>
    rw [cutNew.last isNew fun member => absent (List.mem_cons_of_mem _ member)] at script
    exact absurd (script.eq_nil (.inr (cutOld.last isOld fun member =>
      absent (List.mem_cons_of_mem _ member)))) more
  | add isNew script =>
    rw [cutNew.last isNew fun member => absent (List.mem_cons_of_mem _ member)] at script
    exact absurd (script.eq_nil (.inl rfl)) more
  | remove isOld => exact ⟨_, _, rfl, isOld, rfl⟩

/-- If all old lines are ended, all lines of a script are, but perhaps the last. -/
theorem Script.ended (script : Script old new added i j x y lines) (cutOld : Cut old)
    (cutNew : Cut new) (isEnded : ∀ line ∈ old, IsLine line) :
    ∀ line ∈ lines.dropLast, IsLine line := by
  induction lines generalizing added i j x y with
  | nil => exact nofun
  | cons line lines ih =>
    by_cases more : lines = []
    · subst more
      exact nofun
    · rw [List.dropLast_cons_of_ne_nil more]
      obtain ⟨added', i', j', x', y', -, script'⟩ := script.step
      refine List.forall_mem_cons.mpr ⟨?_, ih script'⟩
      rcases script.piece cutOld cutNew line List.mem_cons_self with isLine | ⟨-, absent⟩
      · exact isLine
      · obtain ⟨text, due, rfl, isOld, -⟩ := script.open_line cutOld cutNew more absent
        exact (isEnded text (List.mem_of_getElem? isOld)).cons (by decide)

/-- A line that goes, joined to something, is not the line of the old list. -/
theorem step_joined {first : List Char} (isOld : old[i]? = some text) (nonempty : first ≠ []) :
    (Reading.placed old new i j (x + 1) y).step ('-' :: (text ++ first)) = none := by
  have differ : text ≠ text ++ first := fun same => nonempty (List.self_eq_append_right.mp same)
  rw [step_of_due _ (.inl (Nat.add_one_ne_zero _))]
  simp [Reading.placed, Reading.pass, drop_eq_cons isOld, differ]

/-- If a line of a script before the last is not ended, reading what the lines make together fails:
what the line is joined to makes it another one than the old line that goes. -/
theorem Script.run_joined (script : Script old new added i j x y lines) (cutOld : Cut old)
    (cutNew : Cut new) (joined : ¬ ∀ line ∈ lines.dropLast, IsLine line) :
    (Reading.placed old new i j x y).run (cutLines lines.flatten) = none := by
  induction lines generalizing added i j x y with
  | nil => exact absurd nofun joined
  | cons line lines ih =>
    have more : lines ≠ [] := by
      rintro rfl
      exact joined nofun
    obtain ⟨isPiece, pieces⟩ := List.forall_mem_cons.mp (script.piece cutOld cutNew)
    rw [List.flatten_cons]
    rcases isPiece with isLine | ⟨nonempty, absent⟩
    · obtain ⟨added', i', j', x', y', read, script⟩ := script.step
      rw [cutLines_line isLine, Reading.run, read]
      refine ih script fun ended => joined ?_
      rw [List.dropLast_cons_of_ne_nil more]
      exact List.forall_mem_cons.mpr ⟨isLine, ended⟩
    · obtain ⟨text, due, rfl, isOld, rfl⟩ := script.open_line cutOld cutNew more absent
      obtain ⟨next, rest, rfl⟩ := List.exists_cons_of_ne_nil more
      rw [cutLines_open nonempty absent]
      cases cut : cutLines (next :: rest).flatten with
      | nil =>
        have flat := flatten_cutLines (next :: rest).flatten
        rw [cut, List.flatten_nil, List.flatten_cons] at flat
        exact absurd (List.append_eq_nil_iff.mp flat.symm).1 (pieces next List.mem_cons_self).ne_nil
      | cons first more =>
        have isFirst : first ≠ [] :=
          ((cut_cutLines _).piece first (cut ▸ List.mem_cons_self)).ne_nil
        dsimp only
        rw [Reading.run, List.cons_append, step_joined isOld isFirst]
        rfl

end Scripts

end RenderProbe.Diff
