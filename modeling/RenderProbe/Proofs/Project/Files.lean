import RenderProbe.Project.Package
import RenderProbe.Proofs.Disk.WalkOrder
import RenderProbe.Proofs.Scan.Listing

/-!
# The files that a search looks at

A search of a project looks at the files below a directory, in the order of a walk that enters no
excluded and no hidden directory.

* `Looks`: the files, by the names that lead to them.
* `mem_filesBelow_iff`: they are what is searched, as far as it can be read.
* `find?_filesBelow`: what is found, the first of them that is wanted.
-/

namespace RenderProbe.Project

open Disk (HasDirectory EntersAlong WalkedBefore WalksTo)

/-- A search looks at a file: names lead to it, or to a link to it, from the top of the search, and
no directory on the way is a link, excluded or hidden. -/
structure Looks (disk : Disk) (top : Path) (directories : List String) (file : String) : Prop where
  isFile : disk.isFile (top.under ⟨"", directories ++ [file]⟩) = true
  unlinked : ∃ place, disk.locate top = .ok place ∧ disk.HasDirectory (place ++ directories)
  entered : ∀ directory ∈ directories,
    directory ∉ Scan.excludedDirectories ∧ ¬ ['.'] <+: directory.toList

section Files

variable {disk : Disk} {top path : Path} {directories row : List String} {file : String}
  {test : Path → Bool}

/-- The rows of names to the files that a search meets. -/
def rowsBelow (disk : Disk) (top : Path) : List (List String) :=
  (disk.walk top fun names => names.getLast?.all Scan.isEntered).flatMap Visit.rows

theorem child_under (top : Path) (below : List String) (name : String) :
    (top.under ⟨"", below⟩).child name = top.under ⟨"", below ++ [name]⟩ := by
  simp [Path.under, Path.child, Path.isAbsolute]

theorem filesBelow_eq (disk : Disk) (top : Path) :
    filesBelow disk top = (rowsBelow disk top).map fun row => top.under ⟨"", row⟩ := by
  simp only [filesBelow, rowsBelow, List.map_flatMap, Visit.rows, List.map_map, child_under]
  rfl

theorem entersAlong_iff :
    EntersAlong (fun names => names.getLast?.all Scan.isEntered) [] directories ↔
    ∀ directory ∈ directories,
      directory ∉ Scan.excludedDirectories ∧ ¬ ['.'] <+: directory.toList := by
  simp only [Disk.entersAlong_getLast?_iff, Scan.isEntered_iff]

theorem looks_iff : Looks disk top directories file ↔
    WalksTo disk top (fun names => names.getLast?.all Scan.isEntered) directories file := by
  rw [WalksTo, entersAlong_iff]
  exact ⟨fun ⟨isFile, unlinked, entered⟩ => ⟨unlinked, entered, isFile⟩,
    fun ⟨unlinked, entered, isFile⟩ => ⟨isFile, unlinked, entered⟩⟩

/-- The rows that a search meets and that lead somewhere are those to the files it looks at. -/
theorem mem_rowsBelow_iff (wellFormed : disk.tree.WellFormed) :
    row ∈ rowsBelow disk top ∧ disk.contains (top.under ⟨"", row⟩) = true ↔
      ∃ directories file, row = directories ++ [file] ∧ Looks disk top directories file := by
  simp only [rowsBelow, Disk.mem_rows_walk_iff wellFormed, looks_iff]

/-- What is searched and leads somewhere is what a search looks at. -/
theorem mem_filesBelow_iff (wellFormed : disk.tree.WellFormed) (leads : disk.contains path = true) :
    path ∈ filesBelow disk top ↔
      ∃ directories file, path = top.under ⟨"", directories ++ [file]⟩
        ∧ Looks disk top directories file := by
  rw [filesBelow_eq, List.mem_map]
  constructor
  · rintro ⟨row, isRow, rfl⟩
    obtain ⟨directories, file, rfl, looks⟩ := (mem_rowsBelow_iff wellFormed).mp ⟨isRow, leads⟩
    exact ⟨directories, file, rfl, looks⟩
  · rintro ⟨directories, file, rfl, looks⟩
    exact ⟨_, ((mem_rowsBelow_iff wellFormed).mpr ⟨directories, file, rfl, looks⟩).1, rfl⟩

theorem contains_of_readLossy {text : String} (read : disk.readLossy path = .ok text) :
    disk.contains path = true := by
  unfold Disk.readLossy Disk.readBytes at read
  unfold Disk.contains
  cases found : disk.stat path with
  | error e => simp [found, Except.map] at read
  | ok entry => rfl

/-- A file that a search looks at is wanted, and no wanted file comes before it in the search. The
order is that of the walk, told by the names alone. -/
structure LooksFirst (disk : Disk) (top : Path) (Wanted : Path → Prop) (directories : List String)
    (file : String) : Prop where
  looks : Looks disk top directories file
  wanted : Wanted (top.under ⟨"", directories ++ [file]⟩)
  first : ∀ directories' file', Looks disk top directories' file' →
    Wanted (top.under ⟨"", directories' ++ [file']⟩) →
    directories' ++ [file'] = directories ++ [file]
      ∨ WalkedBefore (directories ++ [file]) (directories' ++ [file'])

/-- A search looks at a file that is wanted. -/
def LooksAtSome (disk : Disk) (top : Path) (Wanted : Path → Prop) : Prop :=
  ∃ directories file, Looks disk top directories file
    ∧ Wanted (top.under ⟨"", directories ++ [file]⟩)

section Search

variable {Wanted : Path → Prop} (wellFormed : disk.tree.WellFormed)
  (decides : ∀ path, test path = true ↔ Wanted path)
  (there : ∀ path, Wanted path → disk.contains path = true)

include wellFormed decides there

/-- A search for what only something that is there can be finds the first of it. Links that lead
nowhere are met as well, and are passed over. -/
theorem find?_filesBelow : (filesBelow disk top).find? test = some path ↔
    ∃ directories file, path = top.under ⟨"", directories ++ [file]⟩
      ∧ LooksFirst disk top Wanted directories file := by
  have ordered : (rowsBelow disk top).Pairwise WalkedBefore :=
    Disk.pairwise_rows_walk wellFormed _ _
  rw [filesBelow_eq, List.find?_map, Option.map_eq_some_iff]
  simp only [Disk.find?_eq_some_iff_of_pairwise ordered fun _ _ => WalkedBefore.asymm,
    Function.comp_apply, decides]
  constructor
  · rintro ⟨row, ⟨isRow, wanted, first⟩, rfl⟩
    obtain ⟨directories, file, rfl, looks⟩ :=
      (mem_rowsBelow_iff wellFormed).mp ⟨isRow, there _ wanted⟩
    refine ⟨directories, file, rfl, looks, wanted, fun directories' file' looks' wanted' => ?_⟩
    exact first _ ((mem_rowsBelow_iff wellFormed).mpr ⟨_, _, rfl, looks'⟩).1 wanted'
  · rintro ⟨directories, file, rfl, looks, wanted, first⟩
    refine ⟨_, ⟨((mem_rowsBelow_iff wellFormed).mpr ⟨_, _, rfl, looks⟩).1, wanted, ?_⟩, rfl⟩
    intro row isRow wanted'
    obtain ⟨directories', file', rfl, looks'⟩ :=
      (mem_rowsBelow_iff wellFormed).mp ⟨isRow, there _ wanted'⟩
    exact first _ _ looks' wanted'

theorem find?_filesBelow_eq_none :
    (filesBelow disk top).find? test = none ↔ ¬ LooksAtSome disk top Wanted := by
  simp only [List.find?_eq_none, decides]
  constructor
  · rintro none ⟨directories, file, looks, wanted⟩
    exact none _ ((mem_filesBelow_iff wellFormed (there _ wanted)).mpr ⟨_, _, rfl, looks⟩) wanted
  · intro none path isFile wanted
    obtain ⟨directories, file, rfl, looks⟩ :=
      (mem_filesBelow_iff wellFormed (there _ wanted)).mp isFile
    exact none ⟨directories, file, looks, wanted⟩

end Search

end Files

end RenderProbe.Project
