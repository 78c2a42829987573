import RenderProbe.Proofs.Disk.Walk

/-!
# The order of a walk

A walk meets files in an order that the rows of names to them decide: in each directory first its
files by name, then what is below its subdirectories, by their names.

* `WalkedBefore`: the order of rows.
* `pairwise_rows_walk`: a walk meets files in that order, and so each of them once.
* `mem_rows_walk_iff`: which files a walk meets.
-/

namespace RenderProbe

/-- The rows of names to the files of a visited directory. -/
def Visit.rows (visit : Visit) : List (List String) :=
  visit.files.map fun file => visit.below ++ [file]

namespace Disk

open Entry

/-! ## Rows of names -/

/-- A walk meets the file at the end of one row before that of another: where the rows part, a file
comes before a directory, and else the names decide. -/
inductive WalkedBefore : List String → List String → Prop
  | files {file other : String} : file < other → WalkedBefore [file] [other]
  | fileFirst {file directory : String} {row : List String} :
    row ≠ [] → WalkedBefore [file] (directory :: row)
  | directories {directory other : String} {row row' : List String} :
    directory < other → row ≠ [] → row' ≠ [] → WalkedBefore (directory :: row) (other :: row')
  | inside {directory : String} {row row' : List String} :
    WalkedBefore row row' → WalkedBefore (directory :: row) (directory :: row')

section Order

variable {row row' : List String}

theorem WalkedBefore.ne_nil (before : WalkedBefore row row') : row ≠ [] ∧ row' ≠ [] := by
  cases before <;> exact ⟨List.cons_ne_nil _ _, List.cons_ne_nil _ _⟩

theorem WalkedBefore.append_left (before : WalkedBefore row row') (names : List String) :
    WalkedBefore (names ++ row) (names ++ row') := by
  induction names with
  | nil => exact before
  | cons name names ih => exact .inside ih

theorem WalkedBefore.asymm (before : WalkedBefore row row') : ¬ WalkedBefore row' row := by
  induction before with
  | files lt =>
    rintro (lt' | nonempty | ⟨-, nonempty, -⟩ | before)
    · exact String.lt_asymm lt lt'
    · exact nonempty rfl
    · exact nonempty rfl
    · cases before
  | fileFirst nonempty =>
    rintro (- | nonempty' | ⟨-, -, nonempty'⟩ | before)
    · exact nonempty rfl
    · exact nonempty' rfl
    · exact nonempty' rfl
    · exact before.ne_nil.2 rfl
  | directories lt nonempty nonempty' =>
    rintro (- | - | ⟨lt', -, -⟩ | -)
    · exact nonempty rfl
    · exact nonempty' rfl
    · exact String.lt_asymm lt lt'
    · exact String.lt_irrefl _ lt
  | inside before ih =>
    rintro (- | nonempty | ⟨lt, -, -⟩ | before')
    · exact before.ne_nil.1 rfl
    · exact before.ne_nil.2 rfl
    · exact String.lt_irrefl _ lt
    · exact ih before'

/-- In a list in some order, what a search finds is what comes before all else that is searched
for. -/
theorem find?_eq_some_iff_of_pairwise {α : Type} {before : α → α → Prop} {list : List α}
    {test : α → Bool} {found : α} (ordered : list.Pairwise before)
    (asymm : ∀ a b, before a b → ¬ before b a) :
    list.find? test = some found ↔ found ∈ list ∧ test found = true
      ∧ ∀ other ∈ list, test other = true → other = found ∨ before found other := by
  induction list with
  | nil => simp
  | cons head rest ih =>
    obtain ⟨isFirst, ordered⟩ := List.pairwise_cons.mp ordered
    rw [List.find?_cons]
    cases tested : test head with
    | true =>
      simp only [Option.some.injEq]
      constructor
      · rintro rfl
        refine ⟨List.mem_cons_self, tested, fun other isMember _ => ?_⟩
        rcases List.mem_cons.mp isMember with same | later
        · exact .inl same
        · exact .inr (isFirst other later)
      · rintro ⟨isMember, -, least⟩
        rcases List.mem_cons.mp isMember with same | later
        · exact same.symm
        · rcases least head List.mem_cons_self tested with same | before
          · exact same
          · exact absurd before (asymm _ _ (isFirst found later))
    | false =>
      dsimp only
      rw [ih ordered]
      constructor
      · rintro ⟨isMember, isTested, least⟩
        refine ⟨List.mem_cons_of_mem _ isMember, isTested, fun other isOther isTested' => ?_⟩
        rcases List.mem_cons.mp isOther with rfl | later
        · rw [tested] at isTested'
          cases isTested'
        · exact least other later isTested'
      · rintro ⟨isMember, isTested, least⟩
        rcases List.mem_cons.mp isMember with rfl | later
        · rw [tested] at isTested
          cases isTested
        · exact ⟨later, isTested, fun other isOther => least other (List.mem_cons_of_mem _ isOther)⟩

end Order

/-! ## Visits -/

section Visits

variable {leadsToDirectory enter : List String → Bool} {below row : List String} {entry : Entry}
  {entries : List (String × Entry)} {name : String}

theorem nameBefore_iff {a b : String} : nameBefore a b = true ↔ a ≤ b := by
  rw [nameBefore, Bool.not_eq_true', decide_eq_false_iff_not, String.not_lt]

theorem lt_of_nameBefore {a b : String} (before : nameBefore a b = true) (differ : a ≠ b) :
    a < b := by
  by_contra notLt
  exact differ (String.le_antisymm (nameBefore_iff.mp before) (String.not_lt.mp notLt))

theorem pairwise_nameBefore {α : Type} (list : List α) (name : α → String) :
    (list.mergeSort fun a b => nameBefore (name a) (name b)).Pairwise
      fun a b => nameBefore (name a) (name b) = true := by
  refine List.pairwise_mergeSort (fun a b c => ?_) (fun a b => ?_) list
  · simp only [nameBefore_iff]
    exact String.le_trans
  · simpa only [Bool.or_eq_true, nameBefore_iff] using String.le_total (name a) (name b)

/-- The files of a directory are shown by name. -/
theorem pairwise_fileNames {leads : String → Bool} (distinct : (entries.map Prod.fst).Nodup) :
    (fileNames leads entries).Pairwise (· < ·) := by
  have nodup : (fileNames leads entries).Nodup := nodup_fileNames distinct
  exact ((pairwise_nameBefore _ id).and nodup).imp fun ⟨before, differ⟩ =>
    lt_of_nameBefore before differ

/-- The subdirectories of a directory are visited by name. -/
theorem pairwise_subvisits (leadsToDirectory enter : List String → Bool) (below : List String)
    (distinct : (entries.map Prod.fst).Nodup) :
    ((subvisits leadsToDirectory enter below entries).mergeSort
      fun a b => nameBefore a.1 b.1).Pairwise fun a b => a.1 < b.1 := by
  have apart := List.pairwise_map.mp (nodup_subvisits leadsToDirectory enter below distinct)
  exact ((pairwise_nameBefore _ Prod.fst).and
    ((List.mergeSort_perm _ _).symm.pairwise apart Ne.symm)).imp
      fun ⟨before, differ⟩ => lt_of_nameBefore before differ

/-- What is met below a subdirectory has the subdirectory's name on the way to it. -/
theorem row_subvisits (wellFormed : WellFormedAll entries) {under : List Visit}
    (isUnder : (name, under) ∈ subvisits leadsToDirectory enter below entries)
    (isMet : row ∈ under.flatMap Visit.rows) : ∃ rest, rest ≠ [] ∧ row = below ++ name :: rest := by
  obtain ⟨visit, isVisit, isRow⟩ := List.mem_flatMap.mp isMet
  obtain ⟨file, -, rfl⟩ := List.mem_map.mp isRow
  obtain ⟨names, isBelow⟩ := below_subvisits wellFormed isUnder isVisit
  exact ⟨names ++ [file], by simp, by simp [← isBelow]⟩

/-- Files are met in the order of their rows. By induction on the entry: a directory's own files
come first, then its subdirectories one after the other. -/
theorem pairwise_rows_visits (wellFormed : entry.WellFormed) :
    ((visits leadsToDirectory enter below entry).flatMap Visit.rows).Pairwise WalkedBefore := by
  induction entry using Entry.induction generalizing below with
  | file => simp [visits]
  | link => simp [visits]
  | directory entries ih =>
    obtain ⟨distinct, isWellFormed⟩ := wellFormed
    rw [visits, List.flatMap_cons, List.flatMap_assoc, List.pairwise_append]
    refine ⟨?_, ?_, ?_⟩
    · rw [Visit.rows, List.pairwise_map]
      dsimp only
      exact (pairwise_fileNames distinct).imp fun lt => (WalkedBefore.files lt).append_left below
    · rw [List.pairwise_flatMap]
      constructor
      · rintro ⟨name, under⟩ isUnder
        obtain ⟨entry, isMember, -, -, rfl⟩ := mem_subvisits_iff.mp (List.mem_mergeSort.mp isUnder)
        exact ih name entry isMember (isWellFormed.of_mem isMember).2
      · refine (pairwise_subvisits leadsToDirectory enter below distinct).imp_of_mem ?_
        rintro ⟨name, under⟩ ⟨other, others⟩ isUnder isOther lt row isMet row' isMet'
        obtain ⟨rest, nonempty, rfl⟩ :=
          row_subvisits isWellFormed (List.mem_mergeSort.mp isUnder) isMet
        obtain ⟨rest', nonempty', rfl⟩ :=
          row_subvisits isWellFormed (List.mem_mergeSort.mp isOther) isMet'
        exact (WalkedBefore.directories lt nonempty nonempty').append_left below
    · intro row isFile row' isMet
      obtain ⟨file, -, rfl⟩ := List.mem_map.mp isFile
      obtain ⟨⟨name, under⟩, isUnder, isMet⟩ := List.mem_flatMap.mp isMet
      obtain ⟨rest, nonempty, rfl⟩ :=
        row_subvisits isWellFormed (List.mem_mergeSort.mp isUnder) isMet
      exact (WalkedBefore.fileFirst nonempty).append_left below

end Visits

/-! ## Walks over a disk -/

section Walk

variable {disk : Disk} {top : Path} {place row : List String}
  {enter : List String → Bool} {visit : Visit}

/-- A walk meets files in the order of their rows. -/
theorem pairwise_rows_walk (wellFormed : disk.tree.WellFormed) (top : Path)
    (enter : List String → Bool) :
    ((disk.walk top enter).flatMap Visit.rows).Pairwise WalkedBefore := by
  unfold walk
  split
  · next entry found =>
    obtain ⟨place, -, isEntry⟩ := stat_eq_ok found
    exact pairwise_rows_visits (wellFormed.get? isEntry).1
  · exact .nil

/-- Only from a directory something is visited. -/
theorem directory_of_mem_walk (isVisit : visit ∈ disk.walk top enter) :
    ∃ place, disk.locate top = .ok place ∧ disk.HasDirectory place := by
  unfold walk at isVisit
  split at isVisit
  · next entry found =>
    obtain ⟨place, located, isEntry⟩ := stat_eq_ok found
    cases entry with
    | directory entries => exact ⟨place, located, entries, isEntry⟩
    | _ => cases isVisit
  · cases isVisit

/-- Names lead from a directory, through directories that may be entered and are no links, to a file
or to a link to one. -/
def WalksTo (disk : Disk) (top : Path) (enter : List String → Bool) (directories : List String)
    (file : String) : Prop :=
  (∃ place, disk.locate top = .ok place ∧ disk.HasDirectory (place ++ directories))
    ∧ EntersAlong enter [] directories
    ∧ disk.isFile (top.under ⟨"", directories ++ [file]⟩) = true

/-- A walk meets the files that it can walk to, and links that lead nowhere. -/
theorem mem_rows_walk_iff (wellFormed : disk.tree.WellFormed) :
    row ∈ (disk.walk top enter).flatMap Visit.rows ∧ disk.contains (top.under ⟨"", row⟩) = true ↔
      ∃ directories file, row = directories ++ [file]
        ∧ WalksTo disk top enter directories file := by
  simp only [List.mem_flatMap, Visit.rows, List.mem_map]
  constructor
  · rintro ⟨⟨visit, isVisit, file, isShown, rfl⟩, leads⟩
    obtain ⟨place, located, directory⟩ := directory_of_mem_walk isVisit
    obtain ⟨below, entries, found, along, rfl⟩ :=
      (mem_walk_iff wellFormed located directory).mp isVisit
    exact ⟨below, file, rfl, ⟨place, located, entries, found⟩, along,
      (isFile_below_iff wellFormed located found).mpr ⟨isShown, leads⟩⟩
  · rintro ⟨directories, file, rfl, ⟨place, located, entries, found⟩, along, isFile⟩
    obtain ⟨isShown, leads⟩ := (isFile_below_iff wellFormed located found).mp isFile
    have directory : disk.HasDirectory place := HasDirectory.above ⟨entries, found⟩
    exact ⟨⟨_, (mem_walk_iff wellFormed located directory).mpr
      ⟨directories, entries, found, along, rfl⟩, file, isShown, rfl⟩, leads⟩

end Walk

end Disk

end RenderProbe
