import RenderProbe.Proofs.Diff.HunkLines

/-!
# When a diff is faithful

A diff is put together from lines that keep their ends. Whoever reads it cuts it at line feeds, and
so does not find the lines again if one of them before the last is not ended by a line feed.

* `diffLines` and `toList_unified`: the lines that a diff is put together from.
* `script_shownLines`: they lead from the old text to the new one.
* `applyDiff_unified`: a diff whose lines but the last all end with line feeds makes the new text of
  the old one, and any other cannot be applied.
-/

namespace RenderProbe.Diff

/-! ## Diffs of texts -/

/-- The lines of a text that are compared. -/
def textLines (text : String) : List (List Char) :=
  Text.lines text.toList

/-- The hunks of the change from one text to another. -/
def hunksBetween (old new : String) : List (List Change) :=
  hunks (changesFrom (textLines old).length (textLines new).length 0 0
    (Comparison.of ((textLines old).map String.ofList) ((textLines new).map String.ofList)).blocks)

/-- The lines that show the hunks of the change from one text to another. -/
def shownLines (old new : String) : List (List Char) :=
  (hunksBetween old new).flatMap (hunkLines (textLines old) (textLines new))

/-- A line that names a file. -/
def nameLine (sign name : String) : List Char :=
  (sign ++ name ++ "\n").toList

/-- The lines that a diff is put together from: two that name the files, then those of the hunks. -/
def diffLines (name old new : String) : List (List Char) :=
  if (hunksBetween old new).isEmpty then []
  else nameLine "--- a/" name :: nameLine "+++ b/" name :: shownLines old new

/-- Line feeds alone cut a text into the lines that are compared, as far as so many lines go. -/
def CutAlike (text : String) (count : Nat) : Prop :=
  (cutLines text.toList).take count = (textLines text).take count

/-- Up to the last hunk, line feeds alone cut both texts into the lines that are compared. The
comparison knows more line breaks than a reader of diffs does. -/
structure ReadAlike (old new : String) : Prop where
  ofOld : CutAlike old (hunksEnd (hunksBetween old new)).1
  ofNew : CutAlike new (hunksEnd (hunksBetween old new)).2

section Texts

variable {name old new : String} {lines : List (List Char)} {mark : Char}

/-- Texts put together are their lines put together. -/
theorem toList_join_map {α : Type} {items : List α} {text : α → String}
    {lines : α → List (List Char)}
    (same : ∀ item ∈ items, (text item).toList = (lines item).flatten) :
    (String.join (items.map text)).toList = (items.flatMap lines).flatten := by
  rw [String.toList_join]
  induction items with
  | nil => rfl
  | cons item items ih =>
    obtain ⟨isFirst, isRest⟩ := List.forall_mem_cons.mp same
    rw [List.map_cons, List.flatMap_cons, List.flatMap_cons,
      List.flatten_append, isFirst, ih isRest]

theorem toList_marked (mark : String) (lines : List (List Char)) (range : Nat × Nat) :
    (marked mark (lines.map String.ofList).toArray range).toList
      = ((part lines range).map (mark.toList ++ ·)).flatten := by
  have folded : ∀ (texts : List String) (start : String),
      (texts.foldl (fun text line => text ++ mark ++ line) start).toList
        = start.toList ++ (texts.map fun line => mark.toList ++ line.toList).flatten := by
    intro texts
    induction texts with
    | nil => simp
    | cons line texts ih => intro start; simp [ih]
  rw [marked, ← Array.foldl_toList, folded, Array.toList_extract]
  simp [part, List.extract_eq_take_drop, ← List.map_drop, ← List.map_take, Function.comp_def]

theorem toList_changeText (old new : List (List Char)) (change : Change) :
    (changeText (old.map String.ofList).toArray (new.map String.ofList).toArray change).toList
      = (changeLines old new change).flatten := by
  cases change with
  | keep => exact toList_marked " " _ _
  | replace =>
    rw [changeText, String.toList_append, toList_marked, toList_marked, changeLines,
      List.flatten_append]
    rfl

theorem toList_hunkText (old new : List (List Char)) {hunk : List Change} (nonempty : hunk ≠ []) :
    (hunkText (old.map String.ofList).toArray (new.map String.ofList).toArray hunk).toList
      = (hunkLines old new hunk).flatten := by
  obtain ⟨first, isFirst⟩ : ∃ first, hunk.head? = some first :=
    ⟨_, List.head?_eq_some_head nonempty⟩
  obtain ⟨last, isLast⟩ : ∃ last, hunk.getLast? = some last :=
    ⟨_, List.getLast?_eq_some_getLast nonempty⟩
  have marks : (toString "@@ -").toList = "@@ -".toList ∧ (toString " +").toList = " +".toList
      ∧ (toString " @@\n").toList = " @@\n".toList := ⟨rfl, rfl, rfl⟩
  rw [hunkText, hunkLines, headLine, isFirst, isLast]
  dsimp only
  rw [String.toList_append, toList_join_map fun change _ => toList_changeText old new change,
    List.flatten_cons]
  simp only [String.toList_append, marks, List.append_assoc]
  rfl

theorem unified_eq (name old new : String) : unified name old new = match hunksBetween old new with
    | [] => ""
    | found => s!"--- a/{name}\n+++ b/{name}\n" ++ String.join (found.map (hunkText
        ((textLines old).map String.ofList).toArray
          ((textLines new).map String.ofList).toArray)) := by
  unfold unified hunksBetween textLines
  simp only [List.length_map]
  rfl

/-- A diff is its lines put together. -/
theorem toList_unified (name old new : String) :
    (unified name old new).toList = (diffLines name old new).flatten := by
  rw [unified_eq, diffLines, shownLines]
  cases found : hunksBetween old new with
  | nil => rfl
  | cons hunk rest =>
    have nonempty : ∀ changes ∈ hunk :: rest, changes ≠ [] := fun changes isMember =>
      ne_nil_of_mem_hunks (found ▸ isMember : changes ∈ hunksBetween old new)
    have marks : (toString "--- a/").toList = "--- a/".toList
        ∧ (toString "\n+++ b/").toList = "\n".toList ++ "+++ b/".toList
        ∧ (toString "\n").toList = "\n".toList ∧ toString name = name := ⟨rfl, rfl, rfl, rfl⟩
    dsimp only
    rw [String.toList_append, toList_join_map
      fun changes isMember => toList_hunkText _ _ (nonempty changes isMember),
      List.isEmpty_cons, if_neg Bool.false_ne_true, List.flatten_cons, List.flatten_cons, nameLine,
        nameLine]
    simp only [String.toList_append, marks, List.append_assoc]

theorem diffLines_eq (found : hunksBetween old new ≠ []) :
    diffLines name old new = nameLine "--- a/" name :: nameLine "+++ b/" name
      :: shownLines old new := by
  rw [diffLines, if_neg (by simpa using found)]

theorem shownLines_ne_nil (found : hunksBetween old new ≠ []) : shownLines old new ≠ [] := by
  obtain ⟨hunk, rest, isFound⟩ := List.exists_cons_of_ne_nil found
  rw [shownLines, isFound]
  exact List.cons_ne_nil _ _

theorem isLine_nameLine {sign : String} (plain : '\n' ∉ name.toList) (plain' : '\n' ∉ sign.toList) :
    IsLine (nameLine sign name) :=
  ⟨sign.toList ++ name.toList, by simp [nameLine], by simp [plain, plain']⟩

/-- A diff is read from the start of the old text on. -/
theorem applyDiff_unified_run (plain : '\n' ∉ name.toList) (found : hunksBetween old new ≠ []) :
    applyDiff (unified name old new).toList old.toList =
      (Reading.placed (cutLines old.toList) (cutLines new.toList) 0 0 0 0).run
        (cutLines (shownLines old new).flatten) := by
  have signs : ("--- ".toList.isPrefixOf (nameLine "--- a/" name)
      && "+++ ".toList.isPrefixOf (nameLine "+++ b/" name)) = true := by
    simp [nameLine, List.isPrefixOf]
  rw [toList_unified, diffLines_eq found, List.flatten_cons, List.flatten_cons, applyDiff,
    cutLines_line (isLine_nameLine plain (by decide)),
      cutLines_line (isLine_nameLine plain (by decide))]
  dsimp only
  rw [if_pos signs]
  rfl

/-- The hunks of the change from one text to another lead from their starts to their ends. -/
theorem exists_hunks (old new : String) :
    ∃ e e', Hunks (textLines old) (textLines new) false 0 0 e e' (hunksBetween old new) := by
  have aligned :=
    aligned_blocks ((textLines old).map String.ofList) ((textLines new).map String.ofList)
  rw [List.length_map, List.length_map] at aligned
  exact (chain_changesFrom (aligned.of_map fun _ _ => String.ofList_inj.mp)).hunks

section Applied

variable (alike : ReadAlike old new)

include alike

/-- Read by line feeds, the lines of the hunks are a script from the one text to the other. The
lines of hunks alone tell it, whatever comparison found them. -/
theorem script_shownLines :
    Script (cutLines old.toList) (cutLines new.toList) false 0 0 0 0 (shownLines old new) := by
  obtain ⟨alike, alike'⟩ := alike
  obtain ⟨e, e', isHunks⟩ := exists_hunks old new
  have nonempty : ∀ hunk ∈ hunksBetween old new, hunk ≠ [] := fun _ => ne_nil_of_mem_hunks
  have whole : ∀ text : String, (cutLines text.toList).flatten = (textLines text).flatten :=
    fun text => by
    rw [flatten_cutLines, textLines, Text.flatten_lines]
  unfold shownLines
  by_cases none : hunksBetween old new = []
  · rw [none] at isHunks ⊢
    cases isHunks with
    | nil common left right =>
      exact Hunks.script (.nil common left right) nofun rfl rfl (whole old) (whole new)
  · have ends := isHunks.end_eq none nonempty
    rw [ends] at alike alike'
    exact isHunks.script nonempty alike alike' (whole old) (whole new)

/-- There are hunks, unless the texts are the same. -/
theorem hunksBetween_ne_nil (differ : old ≠ new) : hunksBetween old new ≠ [] := by
  intro none
  have script := script_shownLines alike
  rw [shownLines, none] at script
  cases script with
  | done same =>
    rw [List.drop_zero, List.drop_zero, flatten_cutLines, flatten_cutLines] at same
    exact differ (String.toList_inj.mp same)

theorem ended_iff (plain : '\n' ∉ name.toList) (found : hunksBetween old new ≠ []) :
    (∀ line ∈ (diffLines name old new).dropLast, line.getLast? = some '\n') ↔
      ∀ line ∈ (shownLines old new).dropLast, IsLine line := by
  have pieces := (script_shownLines alike).piece (cut_cutLines _) (cut_cutLines _)
  have ends : ∀ sign : String, '\n' ∉ sign.toList → (nameLine sign name).getLast? = some '\n' :=
    fun sign plain' => (isLine_iff_getLast? (.inl (isLine_nameLine plain plain'))).mp
      (isLine_nameLine plain plain')
  rw [diffLines_eq found, List.dropLast_cons_of_ne_nil (List.cons_ne_nil _ _),
    List.dropLast_cons_of_ne_nil (shownLines_ne_nil found), List.forall_mem_cons,
      List.forall_mem_cons]
  constructor
  · rintro ⟨-, -, ended⟩ line isMember
    exact (isLine_iff_getLast? (pieces line (List.dropLast_subset _ isMember))).mpr
      (ended line isMember)
  · intro ended
    refine ⟨ends _ (by decide), ends _ (by decide), fun line isMember => ?_⟩
    exact (isLine_iff_getLast? (pieces line (List.dropLast_subset _ isMember))).mp
      (ended line isMember)

/-- The diff of two texts makes the one of the other if each line that it is put together from but
the last ends with a line feed; then it is read as it was put together. Else a line that goes is
joined to the next, and the diff does not fit the text any more. -/
theorem applyDiff_unified (plain : '\n' ∉ name.toList) (differ : old ≠ new) :
    applyDiff (unified name old new).toList old.toList =
      if ∀ line ∈ (diffLines name old new).dropLast, line.getLast? = some '\n' then
        some new.toList
      else none := by
  have script := script_shownLines alike
  have found := hunksBetween_ne_nil alike differ
  rw [applyDiff_unified_run plain found]
  split
  · next ended =>
    rw [ended_iff alike plain found] at ended
    rw [cutLines_flatten ⟨script.piece (cut_cutLines _) (cut_cutLines _), ended⟩, script.run,
      flatten_cutLines]
  · next joined =>
    rw [ended_iff alike plain found] at joined
    exact script.run_joined (cut_cutLines _) (cut_cutLines _) joined

/-- If the old text ends with a line feed, so does each line of a diff but the last. -/
theorem ended_of_getLast? (plain : '\n' ∉ name.toList) (differ : old ≠ new)
    (feed : old.toList.getLast? = some '\n') :
    ∀ line ∈ (diffLines name old new).dropLast, line.getLast? = some '\n' := by
  rw [ended_iff alike plain (hunksBetween_ne_nil alike differ)]
  exact (script_shownLines alike).ended (cut_cutLines _) (cut_cutLines _)
    (isLine_of_mem_cutLines feed)

end Applied

end Texts

/-! ## Texts cut alike -/

section Alike

variable {text : String} {front rest : List Char}

theorem textLines_ne_nil (nonempty : text ≠ "") : textLines text ≠ [] := by
  intro none
  have whole := Text.flatten_lines text.toList
  rw [← textLines, none] at whole
  exact nonempty (String.toList_inj.mp whole.symm)

/-- At most the last character of a line that is compared is a line feed. -/
theorem isPiece_of_mem_linesFrom (absent : '\n' ∉ front) :
    ∀ line ∈ Text.linesFrom front rest, IsPiece line := by
  fun_induction Text.linesFrom front rest with
  | case1 => exact List.forall_mem_nil _
  | case2 front more =>
    have nonempty : front.reverse ≠ [] := by simpa using more
    exact List.forall_mem_singleton.mpr (.inr ⟨nonempty, by simpa using absent⟩)
  | case3 front rest ih =>
    refine List.forall_mem_cons.mpr ⟨.inl ⟨front.reverse ++ ['\r'], by simp, by simp [absent]⟩,
      ih (by simp)⟩
  | case4 front c rest _ stop ih =>
    refine List.forall_mem_cons.mpr ⟨?_, ih (by simp)⟩
    by_cases feed : c = '\n'
    · subst feed
      exact .inl ⟨front.reverse, by simp, by simpa using absent⟩
    · exact .inr ⟨by simp, by simp [absent, Ne.symm feed]⟩
  | case5 front c rest _ going ih =>
    have other : '\n' ≠ c := by
      rintro rfl
      exact going rfl
    exact ih (List.not_mem_cons_of_ne_of_not_mem other absent)

theorem isPiece_of_mem_textLines : ∀ line ∈ textLines text, IsPiece line :=
  isPiece_of_mem_linesFrom (by simp)

/-- A text is cut alike as far as one likes if each line that is compared but the last ends with a
line feed. -/
theorem cutAlike_of_ended
    (ended : ∀ line ∈ (textLines text).dropLast, line.getLast? = some '\n') (count : Nat) :
    CutAlike text count := by
  have cut : Cut (textLines text) := ⟨isPiece_of_mem_textLines, fun line isMember =>
    (isLine_iff_getLast? (isPiece_of_mem_textLines line (List.dropLast_subset _ isMember))).mpr
      (ended line isMember)⟩
  have same := cutLines_flatten cut
  rw [textLines, Text.flatten_lines] at same
  rw [CutAlike, textLines, same]

end Alike

/-! ## Texts that are replaced -/

section Replaced

variable {name old new : String} (apart : ∀ line ∈ textLines old, line ∉ textLines new)

include apart

/-- Texts without a common line are one hunk, in which the one replaces the other. -/
theorem hunksBetween_of_disjoint (some : textLines old ≠ []) :
    hunksBetween old new
      = [[.replace (0, (textLines old).length) (0, (textLines new).length)]] := by
  have aligned := (aligned_blocks ((textLines old).map String.ofList)
    ((textLines new).map String.ofList)).of_map fun _ _ => String.ofList_inj.mp
  have positive : 0 < (textLines old).length := List.length_pos_iff.mpr some
  rw [hunksBetween]
  generalize (Comparison.of _ _).blocks = blocks at aligned ⊢
  cases aligned with
  | nil =>
    simp [changesFrom, positive, mapFirst, mapLast, keepTail, keepHead, hunks, hunksFrom, isHunk,
      Change.isKeep]
  | @cons _ _ _ _ block _ _ _ positive common =>
    -- a match would begin with a common line
    have bound : block.left < (textLines old).length := by
      have leftBound := common.leftBound
      omega
    have isOld : (textLines old)[block.left]? = Option.some (textLines old)[block.left] :=
      List.getElem?_eq_getElem bound
    exact absurd (List.mem_of_getElem? ((common.same 0 positive).symm.trans isOld))
      (apart _ (List.getElem_mem bound))

/-- A diff cannot be applied if it replaces all of a text that does not end with a line feed. -/
theorem applyDiff_unified_of_disjoint (alike : ReadAlike old new) (plain : '\n' ∉ name.toList)
    (nonempty : old ≠ "") (nonempty' : new ≠ "") (isOpen : old.toList.getLast? ≠ some '\n') :
    applyDiff (unified name old new).toList old.toList = none := by
  have some := textLines_ne_nil nonempty
  have some' := textLines_ne_nil nonempty'
  have found := hunksBetween_of_disjoint apart some
  have differ : old ≠ new := by
    rintro rfl
    obtain ⟨line, isLine⟩ := List.exists_mem_of_ne_nil _ some
    exact apart line isLine isLine
  rw [applyDiff_unified alike plain differ, if_neg]
  intro ended
  rcases List.eq_nil_or_concat (textLines old) with none | ⟨front, last, isLast⟩
  · exact some none
  · rw [List.concat_eq_append] at isLast
    have isPiece : IsPiece last :=
      isPiece_of_mem_textLines last (isLast ▸ List.mem_append_right _ (by simp))
    have whole := Text.flatten_lines old.toList
    rw [← textLines, isLast] at whole
    rw [← whole, getLast?_flatten_concat isPiece.ne_nil] at isOpen
    have shown : diffLines name old new = (nameLine "--- a/" name :: nameLine "+++ b/" name
        :: headLine [.replace (0, (textLines old).length) (0, (textLines new).length)]
        :: (textLines old).map ('-' :: ·)) ++ (textLines new).map ('+' :: ·) := by
      rw [diffLines_eq (by simp [found]), shownLines, found]
      simp [hunkLines, changeLines, part_all]
    have isShown : '-' :: last ∈ (diffLines name old new).dropLast := by
      rw [shown, List.dropLast_append_of_ne_nil (by simpa using some'), isLast]
      simp
    have feed := ended _ isShown
    rw [List.getLast?_cons_of_ne_nil isPiece.ne_nil] at feed
    exact isOpen feed

end Replaced

end RenderProbe.Diff
