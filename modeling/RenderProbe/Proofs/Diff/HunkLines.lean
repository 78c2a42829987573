import RenderProbe.Proofs.Diff.Application
import RenderProbe.Proofs.Diff.Hunks
import RenderProbe.Proofs.Text.LineFront

/-!
# Lines of hunks

Hunks as lines: a head, then the lines of each change with a mark in front.

* `readHead?_headLine`: the head of a hunk says where its lines are.
* `Chain.script`: the lines that show changes lead along them.
* `Hunks.script`: the lines that show hunks lead from the one list of lines to the other.
-/

namespace RenderProbe.Diff

open Text (literal? literal?_append)

/-! ## Heads -/

/-- The head of a hunk. -/
def headLine (hunk : List Change) : List Char :=
  match hunk.head?, hunk.getLast? with
  | some first, some last => "@@ -".toList ++ ((rangeText first.old.1 last.old.2).toList
      ++ (" +".toList ++ ((rangeText first.new.1 last.new.2).toList ++ " @@\n".toList)))
  | _, _ => []

section Heads

variable {rest : List Char} {number : Nat}

/-- A number is read back, if no digit follows. -/
theorem readNumber?_append (stops : rest.head?.all (!Char.isDigit ·) = true) :
    readNumber? (Nat.toDigits 10 number ++ rest) = some (number, rest) := by
  have digits : ∀ c ∈ Nat.toDigits 10 number, c.isDigit = true := fun c isDigit =>
    Nat.isDigit_of_mem_toDigits (by decide) (by decide) isDigit
  have noDigit : rest.takeWhile Char.isDigit = [] ∧ rest.dropWhile Char.isDigit = rest := by
    cases rest with
    | nil => exact ⟨rfl, rfl⟩
    | cons c rest =>
      have other : c.isDigit = false := by simpa using stops
      simp [other]
  have wide : (Nat.toDigits 10 number).isEmpty = false := by simp
  rw [readNumber?, List.takeWhile_append_of_pos digits, noDigit.1, List.append_nil,
    List.dropWhile_append_of_pos digits, noDigit.2, wide, Nat.ofDigitChars_ten_toDigits]
  rfl

theorem toList_rangeText (start stop : Nat) : (rangeText start stop).toList =
    if stop - start = 1 then Nat.toDigits 10 (start + 1)
    else if stop - start = 0 then Nat.toDigits 10 start ++ ',' :: Nat.toDigits 10 0
    else Nat.toDigits 10 (start + 1) ++ ',' :: Nat.toDigits 10 (stop - start) := by
  have comma : (toString ",").toList = [','] := rfl
  have empty : (toString ",0").toList = ',' :: Nat.toDigits 10 0 := rfl
  unfold rangeText
  by_cases single : stop - start = 1
  · simp [single]
  · by_cases none : stop - start = 0
    · simp [none, empty]
    · simp [single, none, comma]

/-- A range is read back, if a blank follows. -/
theorem readRange?_append (start stop : Nat) (blank : rest.head? = some ' ') :
    readRange? ((rangeText start stop).toList ++ rest) = some ((start, stop - start), rest) := by
  obtain ⟨rest, rfl⟩ := List.head?_eq_some_iff.mp blank
  have atComma : ∀ text : List Char, (',' :: text).head?.all (!Char.isDigit ·) = true :=
    fun _ => rfl
  have atBlank : (' ' :: rest).head?.all (!Char.isDigit ·) = true := rfl
  rw [toList_rangeText, readRange?]
  split
  · next single =>
    rw [readNumber?_append atBlank, single]
    rfl
  · split
    · next none =>
      rw [List.append_assoc, List.cons_append, readNumber?_append (atComma _), none]
      simp only [Option.bind_some, readNumber?_append atBlank]
      rfl
    · next many =>
      rw [List.append_assoc, List.cons_append, readNumber?_append (atComma _)]
      simp [readNumber?_append atBlank, many]

section Hunk

variable {old new : List (List Char)} {replaced : Bool} {a b a' b' : Nat} {hunk : List Change}

theorem headLine_eq (chain : Chain old new replaced a b a' b' hunk) (nonempty : hunk ≠ []) :
    headLine hunk = "@@ -".toList ++ ((rangeText a a').toList
      ++ (" +".toList ++ ((rangeText b b').toList ++ " @@\n".toList))) := by
  have isFirst := List.head?_eq_some_head nonempty
  have isLast := List.getLast?_eq_some_getLast nonempty
  obtain ⟨left, right⟩ := chain.first_eq isFirst
  obtain ⟨left', right'⟩ := chain.last_eq isLast
  rw [headLine, isFirst, isLast]
  dsimp only
  rw [left, right, left', right']

/-- The head of a hunk is read back, also one of a single line, whose length is not written. -/
theorem readHead?_headLine (chain : Chain old new replaced a b a' b' hunk) (nonempty : hunk ≠ []) :
    readHead? (headLine hunk) = some ((a, a' - a), (b, b' - b)) := by
  have read : ∀ text, readRange? ((rangeText a a').toList ++ (" +".toList ++ text))
      = some ((a, a' - a), " +".toList ++ text) := fun text => readRange?_append a a' rfl
  have read' : readRange? ((rangeText b b').toList ++ " @@\n".toList)
      = some ((b, b' - b), " @@\n".toList) := readRange?_append b b' rfl
  rw [headLine_eq chain nonempty, readHead?]
  simp only [literal?_append, Option.bind_some, read, read']
  rfl

theorem isLine_headLine (chain : Chain old new replaced a b a' b' hunk) (nonempty : hunk ≠ []) :
    IsLine (headLine hunk) := by
  have noFeed : ∀ number, '\n' ∉ Nat.toDigits 10 number := fun number member => by
    have isDigit := Nat.isDigit_of_mem_toDigits (by decide) (by decide) member
    cases isDigit
  have noFeed' : ∀ start stop, '\n' ∉ (rangeText start stop).toList := by
    intro start stop
    rw [toList_rangeText]
    split
    · exact noFeed _
    · split <;> simp [noFeed]
  refine ⟨"@@ -".toList ++ ((rangeText a a').toList ++ (" +".toList ++ ((rangeText b b').toList
    ++ " @@".toList))), ?_, ?_⟩
  · rw [headLine_eq chain nonempty]
    simp only [List.append_assoc]
    rfl
  · simp [noFeed']

end Hunk

end Heads

/-! ## Lines of a diff -/

/-- A range of lines. -/
def part (lines : List (List Char)) (range : Nat × Nat) : List (List Char) :=
  lines.extract range.1 range.2

/-- The lines that show a change. -/
def changeLines (old new : List (List Char)) : Change → List (List Char)
  | .keep range _ => (part old range).map (' ' :: ·)
  | .replace oldRange newRange =>
    (part old oldRange).map ('-' :: ·) ++ (part new newRange).map ('+' :: ·)

/-- The lines that show a hunk. -/
def hunkLines (old new : List (List Char)) (hunk : List Change) : List (List Char) :=
  headLine hunk :: hunk.flatMap (changeLines old new)

section Parts

variable {lines : List (List Char)} {text : List Char} {a c : Nat}

theorem part_self (lines : List (List Char)) (a : Nat) : part lines (a, a) = [] := by
  rw [part, List.extract_eq_take_drop, Nat.sub_self, List.take_zero]

theorem part_all (lines : List (List Char)) : part lines (0, lines.length) = lines := by
  rw [part, List.extract_eq_take_drop, List.drop_zero, Nat.sub_zero, List.take_length]

theorem part_cons (isLine : lines[a]? = some text) (less : a < c) :
    part lines (a, c) = text :: part lines (a + 1, c) := by
  rw [part, part, List.extract_eq_take_drop, List.extract_eq_take_drop, drop_eq_cons isLine,
    show c - a = c - (a + 1) + 1 by omega, List.take_succ_cons]

end Parts

section Shown

/- The lines of two texts, and the pieces that the texts are cut into. Up to some place they are the
same. -/
variable {old new cutOld cutNew lines : List (List Char)} {added replaced : Bool}
  {a b c d a' b' i j x y size : Nat} {changes : List Change}

theorem Script.remove_part (same : ∀ i < a + size, cutOld[i]? = old[i]?)
    (bound : a + size ≤ old.length) (script : Script cutOld cutNew false (a + size) j x y lines) :
    Script cutOld cutNew false a j (size + x) y
      ((part old (a, a + size)).map ('-' :: ·) ++ lines) := by
  induction size generalizing a with
  | zero => simpa [part_self] using script
  | succ size ih =>
    rw [show a + (size + 1) = a + 1 + size by omega] at same bound script ⊢
    have isOld : old[a]? = some old[a] := List.getElem?_eq_getElem (by omega)
    rw [part_cons isOld (by omega), Nat.add_right_comm]
    exact .remove ((same a (by omega)).trans isOld) (ih same bound script)

theorem Script.add_part (same : ∀ i < b + size, cutNew[i]? = new[i]?)
    (bound : b + size ≤ new.length) (script : Script cutOld cutNew true i (b + size) x y lines) :
    Script cutOld cutNew added i b x (size + y)
      ((part new (b, b + size)).map ('+' :: ·) ++ lines) := by
  induction size generalizing b added with
  | zero => simpa [part_self] using script.mono
  | succ size ih =>
    rw [show b + (size + 1) = b + 1 + size by omega] at same bound script ⊢
    have isNew : new[b]? = some new[b] := List.getElem?_eq_getElem (by omega)
    rw [part_cons isNew (by omega), Nat.add_right_comm]
    exact .add ((same b (by omega)).trans isNew) (ih same bound script)

/-- Lines that stay may follow lines that are new. -/
theorem Script.keep_part (positive : 0 < size) (same : ∀ i < a + size, cutOld[i]? = old[i]?)
    (same' : ∀ i < b + size, cutNew[i]? = new[i]?) (common : Common old new a b size)
    (script : Script cutOld cutNew false (a + size) (b + size) x y lines) :
    Script cutOld cutNew added a b (size + x) (size + y)
      ((part old (a, a + size)).map (' ' :: ·) ++ lines) := by
  induction size generalizing a b added with
  | zero => exact absurd positive (Nat.lt_irrefl _)
  | succ size ih =>
    have bound := common.leftBound
    have isOld : old[a]? = some old[a] := List.getElem?_eq_getElem (by omega)
    have isNew : new[b]? = some old[a] := (common.same 0 (by omega)).symm.trans isOld
    have next : Common old new (a + 1) (b + 1) size := common.part (by omega)
    have isKept := (same a (by omega)).trans isOld
    have isKept' := (same' b (by omega)).trans isNew
    rw [show a + (size + 1) = a + 1 + size by omega] at same script ⊢
    rw [show b + (size + 1) = b + 1 + size by omega] at same' script
    rw [part_cons isOld (by omega), Nat.add_right_comm size 1 x, Nat.add_right_comm size 1 y]
    refine .keep isKept isKept' ?_
    by_cases last : size = 0
    · subst last
      simpa [part_self] using script
    · exact ih (Nat.pos_of_ne_zero last) same same' next script

/-- The lines that show changes are a script along them. -/
theorem Chain.script (chain : Chain old new replaced a b a' b' changes)
    (same : ∀ i < a', cutOld[i]? = old[i]?) (same' : ∀ i < b', cutNew[i]? = new[i]?)
    (script : Script cutOld cutNew true a' b' x y lines) :
    Script cutOld cutNew replaced a b (a' - a + x) (b' - b + y)
      (changes.flatMap (changeLines old new) ++ lines) := by
  induction chain with
  | nil =>
    rw [Nat.sub_self, Nat.sub_self, Nat.zero_add, Nat.zero_add]
    exact script.mono
  | @keep replaced a b a' b' size rest positive common chain ih =>
    obtain ⟨le, le', -, -⟩ := chain.bounds
    rw [show a' - a + x = size + (a' - (a + size) + x) by omega,
      show b' - b + y = size + (b' - (b + size) + y) by omega, List.flatMap_cons, List.append_assoc]
    exact .keep_part positive (fun i less => same i (by omega)) (fun i less => same' i (by omega))
      common (ih same same' script)
  | @replace a b c d a' b' rest leOld leNew grows chain ih =>
    obtain ⟨le, le', bound, bound'⟩ := chain.bounds
    obtain ⟨removed, rfl⟩ := Nat.exists_eq_add_of_le leOld
    obtain ⟨inserted, rfl⟩ := Nat.exists_eq_add_of_le leNew
    rw [show a' - a + x = removed + (a' - (a + removed) + x) by omega,
      show b' - b + y = inserted + (b' - (b + inserted) + y) by omega, List.flatMap_cons,
      List.append_assoc, changeLines, List.append_assoc]
    exact .remove_part (fun i less => same i (by omega)) (by omega)
      (.add_part (fun i less => same' i (by omega)) (by omega) (ih same same' script))

theorem getElem?_of_take (same : cutOld.take a = old.take a) : ∀ i < a, cutOld[i]? = old[i]? := by
  intro i less
  have both := congrArg (·[i]?) same
  simpa [List.getElem?_take, less] using both

theorem flatten_drop_of_take (same : cutOld.take a = old.take a)
    (whole : cutOld.flatten = old.flatten) :
    (cutOld.drop a).flatten = (old.drop a).flatten := by
  rw [← List.take_append_drop a cutOld, ← List.take_append_drop a old, List.flatten_append,
    List.flatten_append, same] at whole
  exact List.append_cancel_left whole

/-- What two lists have in common up to where they are the same as others, the others have too. -/
theorem Common.of_take (common : Common old new a b size) (le : a + size ≤ a') (le' : b + size ≤ b')
    (bound : a' ≤ old.length) (bound' : b' ≤ new.length) (same : cutOld.take a' = old.take a')
    (same' : cutNew.take b' = new.take b') : Common cutOld cutNew a b size := by
  have long : a' ≤ cutOld.length := by
    have lengths := congrArg List.length same
    rw [List.length_take, List.length_take] at lengths
    omega
  have long' : b' ≤ cutNew.length := by
    have lengths := congrArg List.length same'
    rw [List.length_take, List.length_take] at lengths
    omega
  refine ⟨le.trans long, le'.trans long', fun i less => ?_⟩
  rw [getElem?_of_take same _ (by omega), getElem?_of_take same' _ (by omega)]
  exact common.same i less

/-- The lines that show hunks are a script from where they begin to the ends of both texts. By
induction on the hunks; what is left out in front of each is passed over by its head. -/
theorem Hunks.script {found : List (List Change)} (isHunks : Hunks old new replaced a b a' b' found)
    (nonempty : ∀ hunk ∈ found, hunk ≠ []) (same : cutOld.take a' = old.take a')
    (same' : cutNew.take b' = new.take b') (whole : cutOld.flatten = old.flatten)
    (whole' : cutNew.flatten = new.flatten) :
    Script cutOld cutNew replaced a b 0 0 (found.flatMap (hunkLines old new)) := by
  induction isHunks with
  | @nil replaced a b gap common left right =>
    have rest : old.drop a = new.drop b := by
      have both := take_drop_of_common common
      rwa [List.take_of_length_le (by simp; omega), List.take_of_length_le (by simp; omega)] at both
    refine .done ?_
    rw [flatten_drop_of_take same whole, flatten_drop_of_take same' whole', rest]
  | @cons replaced a b gap c d a' b' hunk rest common chain isRest ih =>
    obtain ⟨isHunk, nonempty⟩ := List.forall_mem_cons.mp nonempty
    obtain ⟨le, le', -, -⟩ := chain.bounds
    obtain ⟨leEnd, leEnd', bound, bound'⟩ := isRest.bounds
    have shown := chain.script (fun i less => getElem?_of_take same i (by omega))
      (fun i less => getElem?_of_take same' i (by omega)) (ih nonempty same same')
    refine .head (common.of_take (le.trans leEnd) (le'.trans leEnd') bound bound' same same')
      (isLine_headLine chain isHunk) (readHead?_headLine chain isHunk) ?_ shown
    have grows := chain.grows isHunk
    omega

end Shown

end RenderProbe.Diff
