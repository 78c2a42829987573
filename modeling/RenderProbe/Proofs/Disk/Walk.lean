import Mathlib.Data.List.Nodup
import RenderProbe.Disk.Walk
import RenderProbe.Proofs.Disk.Follow
import RenderProbe.Proofs.Path

/-!
# What a walk visits

In a tree whose directories have distinct names, a walk visits a directory once for each row of
names that leads down to it through directories that may all be entered.

* `Entry.WellFormed`: every directory of a tree has proper and distinct names.
* `mem_visits_iff`: what is visited.
* `nodup_visits`: nothing is visited twice.
* `mem_fileNames_iff`: which names a visited directory shows as files.
-/

namespace RenderProbe

namespace Entry

open RenderProbe.Path (IsEntryName)

/-! ## Trees with proper names -/

mutual

/-- The names in every directory are proper and distinct. A tree of the machine always is, and a
tree as a term of the type need not be. -/
def WellFormed : Entry → Prop
  | directory entries => (entries.map Prod.fst).Nodup ∧ WellFormedAll entries
  | file .. => True
  | link _ => True

/-- The names of entries are proper, and so is everything below them. -/
def WellFormedAll : List (String × Entry) → Prop
  | [] => True
  | (name, entry) :: rest => IsEntryName name ∧ entry.WellFormed ∧ WellFormedAll rest

end

mutual

/-- Names are checked directory by directory. -/
def decidableWellFormed : ∀ entry : Entry, Decidable entry.WellFormed
  | directory entries =>
    have := decidableWellFormedAll entries
    inferInstanceAs (Decidable (_ ∧ _))
  | file .. => isTrue trivial
  | link _ => isTrue trivial

/-- Entries are checked one after the other. -/
def decidableWellFormedAll : ∀ entries : List (String × Entry), Decidable (WellFormedAll entries)
  | [] => isTrue trivial
  | (name, entry) :: rest =>
    have := entry.decidableWellFormed
    have := decidableWellFormedAll rest
    inferInstanceAs (Decidable (IsEntryName name ∧ _ ∧ _))

end

instance (entry : Entry) : Decidable entry.WellFormed :=
  entry.decidableWellFormed

section WellFormed

variable {entry found : Entry} {entries : List (String × Entry)}
  {name : String} {names : List String}

theorem WellFormedAll.of_mem (wellFormed : WellFormedAll entries)
    (isMember : (name, entry) ∈ entries) :
    IsEntryName name ∧ entry.WellFormed := by
  induction entries with
  | nil => cases isMember
  | cons head rest ih =>
    obtain ⟨first, kept⟩ := head
    obtain ⟨isName, isKept, others⟩ := wellFormed
    rcases List.mem_cons.mp isMember with same | later
    · cases same
      exact ⟨isName, isKept⟩
    · exact ih others later

/-- Among distinct names each has its own entry. -/
theorem lookup_eq_some_iff_mem (distinct : (entries.map Prod.fst).Nodup) :
    entries.lookup name = some entry ↔ (name, entry) ∈ entries := by
  constructor
  · intro found
    obtain ⟨before, after, rfl, -⟩ := List.lookup_eq_some_iff.mp found
    simp
  · intro isMember
    induction entries with
    | nil => cases isMember
    | cons head rest ih =>
      obtain ⟨first, kept⟩ := head
      obtain ⟨isNew, distinct⟩ := List.nodup_cons.mp distinct
      rcases List.mem_cons.mp isMember with same | later
      · cases same
        exact List.lookup_cons_self
      · have differs : (name == first) = false := by
          rw [beq_eq_false_iff_ne]
          rintro rfl
          exact isNew (List.mem_map.mpr ⟨_, later, rfl⟩)
        rw [List.lookup_cons, differs]
        exact ih distinct later

/-- What is below a well-formed entry is well-formed, and found by proper names. -/
theorem WellFormed.get? (wellFormed : entry.WellFormed) (isBelow : entry.get? names = some found) :
    found.WellFormed ∧ ∀ name ∈ names, IsEntryName name := by
  induction names generalizing entry with
  | nil =>
    cases isBelow
    exact ⟨wellFormed, nofun⟩
  | cons name rest ih =>
    cases entry with
    | file => cases isBelow
    | link => cases isBelow
    | directory entries =>
      rw [Entry.get?] at isBelow
      split at isBelow
      · next sub isSub =>
        have isMember := (lookup_eq_some_iff_mem wellFormed.1).mp isSub
        obtain ⟨isName, isWellFormed⟩ := WellFormedAll.of_mem wellFormed.2 isMember
        obtain ⟨isFound, areNames⟩ := ih isWellFormed isBelow
        exact ⟨isFound, List.forall_mem_cons.mpr ⟨isName, areNames⟩⟩
      · cases isBelow

end WellFormed

/-- What holds of files and links, and of a directory if it holds of its entries, holds of all. -/
theorem induction {motive : Entry → Prop} (file : ∀ content mode, motive (.file content mode))
    (link : ∀ target, motive (.link target))
    (directory : ∀ entries, (∀ name entry, (name, entry) ∈ entries → motive entry) →
      motive (.directory entries)) : ∀ entry, motive entry
  | .file content mode => file content mode
  | .link target => link target
  | .directory entries =>
    directory entries fun _ entry _ => induction file link directory entry
termination_by entry => sizeOf entry
decreasing_by
  have smaller := List.sizeOf_lt_of_mem ‹_ ∈ entries›
  simp only [Prod.mk.sizeOf_spec, Entry.directory.sizeOf_spec] at smaller ⊢
  omega

end Entry

namespace Disk

open Entry
open RenderProbe.Path (IsEntryName)

/-! ## Files of a directory -/

section FileNames

variable {leadsToDirectory : String → Bool} {entries : List (String × Entry)} {name : String}

/-- A name is shown as a file's if it is that of a file, or of a link that leads to no directory. -/
theorem mem_fileNames_iff (distinct : (entries.map Prod.fst).Nodup) :
    name ∈ fileNames leadsToDirectory entries ↔
      (∃ content mode, entries.lookup name = some (.file content mode))
        ∨ ((∃ target, entries.lookup name = some (.link target))
          ∧ leadsToDirectory name = false) := by
  simp only [lookup_eq_some_iff_mem distinct, fileNames, List.mem_mergeSort, List.mem_filterMap]
  constructor
  · rintro ⟨⟨other, entry⟩, isMember, shown⟩
    cases entry with
    | file content mode =>
      cases shown
      exact .inl ⟨content, mode, isMember⟩
    | link target =>
      simp only [Option.ite_none_left_eq_some, Option.some.injEq, Bool.not_eq_true] at shown
      obtain ⟨leads, rfl⟩ := shown
      exact .inr ⟨⟨target, isMember⟩, leads⟩
    | directory => cases shown
  · rintro (⟨content, mode, isMember⟩ | ⟨⟨target, isMember⟩, leads⟩)
    · exact ⟨_, isMember, rfl⟩
    · exact ⟨_, isMember, by simp [leads]⟩

theorem nodup_fileNames (distinct : (entries.map Prod.fst).Nodup) :
    (fileNames leadsToDirectory entries).Nodup := by
  rw [fileNames, (List.mergeSort_perm _ _).nodup_iff]
  -- The names shown are some of the names, in the same order.
  refine distinct.sublist ?_
  clear distinct
  induction entries with
  | nil => exact .slnil
  | cons head rest ih =>
    obtain ⟨first, entry⟩ := head
    rw [List.filterMap_cons]
    split
    · exact ih.cons _
    · next name shown =>
      obtain rfl : first = name := by
        cases entry with
        | file => simpa using shown
        | link => simpa using (Option.ite_none_left_eq_some.mp shown).2
        | directory => cases shown
      exact ih.cons_cons _

end FileNames

/-! ## Visited directories -/

section Visits

variable {leadsToDirectory enter : List String → Bool} {below names : List String} {entry : Entry}
  {entries : List (String × Entry)} {name : String} {visit : Visit}

theorem mem_subvisits_iff {under : List Visit} :
    (name, under) ∈ subvisits leadsToDirectory enter below entries ↔
      ∃ entry, (name, entry) ∈ entries ∧ entry.isDirectory = true ∧ enter (below ++ [name]) = true
        ∧ under = visits leadsToDirectory enter (below ++ [name]) entry := by
  induction entries with
  | nil => simp [subvisits]
  | cons head rest ih =>
    obtain ⟨first, kept⟩ := head
    rw [subvisits]
    split <;> grind

theorem mem_visits_directory : visit ∈ visits leadsToDirectory enter below (.directory entries) ↔
    visit = ⟨below, fileNames (fun name => leadsToDirectory (below ++ [name])) entries⟩
      ∨ ∃ name entry, (name, entry) ∈ entries ∧ entry.isDirectory = true
        ∧ enter (below ++ [name]) = true
        ∧ visit ∈ visits leadsToDirectory enter (below ++ [name]) entry := by
  simp only [visits, List.mem_cons, List.mem_flatMap, List.mem_mergeSort, Prod.exists,
    mem_subvisits_iff]
  grind

/-- Where fewer directories may be entered, fewer are visited. -/
theorem visits_subset {other : List String → Bool}
    (narrower : ∀ names, enter names = true → other names = true) :
    visits leadsToDirectory enter below entry ⊆ visits leadsToDirectory other below entry := by
  induction entry using Entry.induction generalizing below with
  | file => exact List.Subset.refl _
  | link => exact List.Subset.refl _
  | directory entries ih =>
    intro visit isVisit
    rw [mem_visits_directory] at isVisit ⊢
    rcases isVisit with isTop | ⟨name, entry, isMember, isDirectory, enters, isBelow⟩
    · exact .inl isTop
    · exact .inr ⟨name, entry, isMember, isDirectory, narrower _ enters,
        ih name entry isMember isBelow⟩

/-- Every directory on the way along some names may be entered. The test is made on the names from
the top, so a closed directory closes all below it. -/
def EntersAlong (enter : List String → Bool) (below names : List String) : Prop :=
  ∀ part, part ≠ [] → part <+: names → enter (below ++ part) = true

theorem entersAlong_nil (enter : List String → Bool) (below : List String) :
    EntersAlong enter below [] := by
  intro part nonempty isPart
  exact absurd (List.prefix_nil.mp isPart) nonempty

theorem entersAlong_cons : EntersAlong enter below (name :: names) ↔
    enter (below ++ [name]) = true ∧ EntersAlong enter (below ++ [name]) names := by
  constructor
  · intro enters
    refine ⟨enters [name] (by simp) (by simp), fun part _ isPart => ?_⟩
    rw [List.append_assoc]
    exact enters (name :: part) (by simp) (List.cons_prefix_cons.mpr ⟨rfl, isPart⟩)
  · rintro ⟨first, later⟩ part nonempty isPart
    cases part with
    | nil => exact absurd rfl nonempty
    | cons head rest =>
      obtain ⟨rfl, later'⟩ := List.cons_prefix_cons.mp isPart
      by_cases last : rest = []
      · rw [last]
        exact first
      · have enters := later rest last later'
        rwa [List.append_assoc] at enters

theorem entersAlong_and_iff {other : List String → Bool} :
    EntersAlong (fun names => enter names && other names) below names ↔
      EntersAlong enter below names ∧ EntersAlong other below names := by
  simp only [EntersAlong, Bool.and_eq_true, imp_and, forall_and]

/-- Directories are tested by their own names: then the names on the way are what is tested. -/
theorem entersAlong_getLast?_iff {test : String → Bool} :
    EntersAlong (fun names => names.getLast?.all test) [] names ↔
      ∀ name ∈ names, test name = true := by
  constructor
  · intro along name isMember
    obtain ⟨before, after, rfl⟩ := List.append_of_mem isMember
    simpa using along (before ++ [name]) (by simp) (by simp)
  · intro passes part nonempty isPart
    dsimp only [List.nil_append]
    rw [List.getLast?_eq_some_getLast nonempty]
    exact passes _ (isPart.subset (List.getLast_mem nonempty))

/-- A directory is visited exactly if all on the way to it, and it itself, may be entered. By
induction on the entry, one name of the way for each directory. -/
theorem mem_visits_iff (wellFormed : entry.WellFormed) :
    visit ∈ visits leadsToDirectory enter below entry ↔
      ∃ names entries, entry.get? names = some (.directory entries) ∧ EntersAlong enter below names
        ∧ visit = ⟨below ++ names,
          fileNames (fun name => leadsToDirectory (below ++ names ++ [name])) entries⟩ := by
  induction entry using Entry.induction generalizing below with
  | file content mode =>
    refine ⟨nofun, ?_⟩
    rintro ⟨names, entries, isFound, -⟩
    cases names <;> cases isFound
  | link target =>
    refine ⟨nofun, ?_⟩
    rintro ⟨names, entries, isFound, -⟩
    cases names <;> cases isFound
  | directory entries ih =>
    rw [mem_visits_directory]
    constructor
    · rintro (rfl | ⟨name, entry, isMember, -, enters, isVisit⟩)
      · exact ⟨[], entries, rfl, entersAlong_nil enter below, by simp⟩
      · have isWellFormed := (WellFormedAll.of_mem wellFormed.2 isMember).2
        obtain ⟨names, found, isFound, along, rfl⟩ :=
          (ih name entry isMember isWellFormed).mp isVisit
        have isBelow :
            (Entry.directory entries).get? (name :: names) = some (.directory found) := by
          rw [Entry.get?, (lookup_eq_some_iff_mem wellFormed.1).mpr isMember]
          exact isFound
        exact ⟨name :: names, found, isBelow, entersAlong_cons.mpr ⟨enters, along⟩, by simp⟩
    · rintro ⟨names, found, isFound, along, rfl⟩
      cases names with
      | nil =>
        cases isFound
        exact .inl (by simp)
      | cons name rest =>
        rw [Entry.get?] at isFound
        split at isFound
        · next entry isEntry =>
          have isMember := (lookup_eq_some_iff_mem wellFormed.1).mp isEntry
          have isWellFormed := (WellFormedAll.of_mem wellFormed.2 isMember).2
          have isDirectory : entry.isDirectory = true := by
            cases entry with
            | directory => rfl
            | file => cases rest <;> cases isFound
            | link => cases rest <;> cases isFound
          obtain ⟨enters, along⟩ := entersAlong_cons.mp along
          refine .inr ⟨name, entry, isMember, isDirectory, enters, ?_⟩
          exact (ih name entry isMember isWellFormed).mpr ⟨rest, found, isFound, along, by simp⟩
        · cases isFound

/-- What is visited below an entry has the entry's name on the way to it. -/
theorem below_subvisits (wellFormed : WellFormedAll entries) {under : List Visit}
    (isUnder : (name, under) ∈ subvisits leadsToDirectory enter below entries)
    (isVisit : visit ∈ under) : below ++ [name] <+: visit.below := by
  obtain ⟨entry, isMember, -, -, rfl⟩ := mem_subvisits_iff.mp isUnder
  have isWellFormed := (wellFormed.of_mem isMember).2
  obtain ⟨names, _, _, _, rfl⟩ := (mem_visits_iff isWellFormed).mp isVisit
  exact List.prefix_append _ names

theorem nodup_subvisits (leadsToDirectory enter : List String → Bool) (below : List String)
    (distinct : (entries.map Prod.fst).Nodup) :
    ((subvisits leadsToDirectory enter below entries).map Prod.fst).Nodup := by
  refine distinct.sublist ?_
  clear distinct
  induction entries with
  | nil => simp [subvisits]
  | cons head rest ih =>
    obtain ⟨first, kept⟩ := head
    rw [subvisits]
    split
    · exact ih.cons_cons first
    · exact ih.cons first

/-- No directory is visited twice. -/
theorem nodup_visits (wellFormed : entry.WellFormed) :
    ((visits leadsToDirectory enter below entry).map Visit.below).Nodup := by
  induction entry using Entry.induction generalizing below with
  | file => simp [visits]
  | link => simp [visits]
  | directory entries ih =>
    obtain ⟨distinct, isWellFormed⟩ := wellFormed
    rw [visits, List.map_cons, List.map_flatMap, List.nodup_cons, List.nodup_flatMap]
    refine ⟨fun again => ?_, fun ⟨name, under⟩ isUnder => ?_, ?_⟩
    · -- The directory is above all that is visited later.
      obtain ⟨⟨name, under⟩, isUnder, again⟩ := List.mem_flatMap.mp again
      obtain ⟨visit, isVisit, same⟩ := List.mem_map.mp again
      have isBelow := below_subvisits isWellFormed (List.mem_mergeSort.mp isUnder) isVisit
      have longer := isBelow.length_le
      rw [same, List.length_append, List.length_singleton] at longer
      exact absurd longer (Nat.not_succ_le_self _)
    · obtain ⟨entry, isMember, -, -, rfl⟩ := mem_subvisits_iff.mp (List.mem_mergeSort.mp isUnder)
      exact ih name entry isMember (isWellFormed.of_mem isMember).2
    · -- Below different names nothing is at the same place.
      have apart := List.pairwise_map.mp (nodup_subvisits leadsToDirectory enter below distinct)
      refine ((List.mergeSort_perm _ _).symm.pairwise apart Ne.symm).imp_of_mem ?_
      rintro ⟨first, under⟩ ⟨second, others⟩ isFirst isSecond differs place inFirst inSecond
      obtain ⟨visit, isVisit, rfl⟩ := List.mem_map.mp inFirst
      obtain ⟨other, isOther, same⟩ := List.mem_map.mp inSecond
      have throughFirst := below_subvisits isWellFormed (List.mem_mergeSort.mp isFirst) isVisit
      have throughSecond := below_subvisits isWellFormed (List.mem_mergeSort.mp isSecond) isOther
      rw [same] at throughSecond
      have names := List.prefix_of_prefix_length_le throughFirst throughSecond (by simp)
      exact differs (by simpa using names.eq_of_length (by simp))

end Visits

/-! ## Walks over a disk -/

section Walk

variable {disk : Disk} {links : Nat} {top : Path} {place below names target : List String}
  {name : String} {entry : Entry} {entries : List (String × Entry)}
  {enter : List String → Bool} {visit : Visit}

theorem namesOf_under (disk : Disk) (top : Path) (names : List String) :
    disk.namesOf (top.under ⟨"", names⟩) = disk.namesOf top ++ names := by
  by_cases absolute : top.isAbsolute <;> simp [namesOf, Path.under, Path.isAbsolute] at absolute ⊢
  · simp [absolute]
  · simp [absolute]

/-- The name of a directory leads into it. -/
theorem Leads.of_directory (leads : Leads disk links place (name :: names) target)
    (isName : IsEntryName name) (directory : disk.HasDirectory (place ++ [name])) :
    Leads disk links (place ++ [name]) names target := by
  obtain ⟨entries, found⟩ := directory
  cases leads with
  | up => exact absurd rfl isName.notUp
  | enter _ _ _ below => exact below
  | pass _ _ isLink => rw [found] at isLink; cases isLink
  | reach _ _ isFile => rw [found] at isFile; cases isFile

/-- Through directories that are no links, names lead from where they stand. -/
theorem Leads.of_directories (leads : Leads disk links place (below ++ names) target)
    (proper : ∀ name ∈ below, IsEntryName name) (directory : disk.HasDirectory (place ++ below)) :
    Leads disk links (place ++ below) names target := by
  induction below generalizing place with
  | nil => simpa using leads
  | cons name rest ih =>
    rw [List.forall_mem_cons] at proper
    rw [List.append_cons] at directory ⊢
    exact ih (leads.of_directory proper.1 directory.above) proper.2 directory

/-- Names lead to a directory or a file. -/
theorem Leads.ends (leads : Leads disk links place names target) (start : disk.HasDirectory place) :
    disk.HasDirectory target ∨ ∃ content mode,
      disk.tree.get? target = some (.file content mode) := by
  induction leads with
  | done => exact .inl start
  | up _ ih => exact ih start.dropLast
  | enter _ _ found _ ih => exact ih ⟨_, found⟩
  | pass _ _ _ _ ih => exact ih (start.base _)
  | reach _ _ found => exact .inr ⟨_, _, found⟩

theorem get?_name (found : entry.get? names = some (.directory entries)) (name : String) :
    entry.get? (names ++ [name]) = entries.lookup name := by
  rw [get?_append, found]
  cases below : entries.lookup name <;> simp [Entry.get?, below]

/-- What a path below a directory leads to, its last name leads to from there. -/
theorem stat_below (wellFormed : disk.tree.WellFormed) (located : disk.locate top = .ok place)
    (directory : disk.HasDirectory (place ++ below))
    (found : disk.stat (top.under ⟨"", below ++ [name]⟩) = .ok entry) :
    ∃ links target, Leads disk links (place ++ below) [name] target
      ∧ disk.tree.get? target = some entry := by
  obtain ⟨target, isTarget, isEntry⟩ := stat_eq_ok found
  obtain ⟨_, -, toTop⟩ := follow_eq_ok_iff.mp located
  obtain ⟨_, -, toTarget⟩ := follow_eq_ok_iff.mp isTarget
  rw [namesOf_under] at toTarget
  have start : disk.HasDirectory [] := HasDirectory.above (by simpa using directory)
  obtain ⟨_, links, middle, -, before, -, after⟩ := toTarget.split (by simp) start
  rw [before.unique toTop] at after
  obtain ⟨entries, isDirectory⟩ := directory
  have proper : ∀ name ∈ below, IsEntryName name := fun name isMember =>
    (wellFormed.get? isDirectory).2 name (List.mem_append_right _ isMember)
  exact ⟨links, target, after.of_directories proper ⟨entries, isDirectory⟩, isEntry⟩

/-- A name that is shown as a file's and leads somewhere leads to a file, and only such names do. A
link that leads nowhere is shown too. -/
theorem isFile_below_iff (wellFormed : disk.tree.WellFormed) (located : disk.locate top = .ok place)
    (directory : disk.tree.get? (place ++ below) = some (.directory entries)) :
    disk.isFile (top.under ⟨"", below ++ [name]⟩) = true ↔
      name ∈ fileNames (fun name => disk.isDirectory (top.under ⟨"", below ++ [name]⟩)) entries
        ∧ disk.contains (top.under ⟨"", below ++ [name]⟩) = true := by
  have distinct : (entries.map Prod.fst).Nodup := (wellFormed.get? directory).1.1
  rw [isFile_iff, contains_iff, mem_fileNames_iff distinct]
  simp only [← get?_name directory]
  constructor
  · rintro ⟨content, mode, found⟩
    refine ⟨?_, _, found⟩
    obtain ⟨links, target, leads, isFile⟩ := stat_below wellFormed located ⟨_, directory⟩ found
    cases leads with
    | up above =>
      cases above
      exact absurd isFile (HasDirectory.dropLast ⟨_, directory⟩).ne_file
    | enter _ _ isDirectory done =>
      cases done
      rw [isDirectory] at isFile
      cases isFile
    | pass _ _ isLink => exact .inr ⟨⟨_, isLink⟩, by simp [isDirectory, found]⟩
    | reach _ _ isFile => exact .inl ⟨_, _, isFile⟩
  · rintro ⟨shown, entry, found⟩
    obtain ⟨links, target, leads, isEntry⟩ := stat_below wellFormed located ⟨_, directory⟩ found
    rcases shown with ⟨content, mode, isFile⟩ | ⟨-, notDirectory⟩
    · cases leads with
      | up =>
        have isName := (wellFormed.get? isFile).2 ".." (by simp)
        exact absurd rfl isName.notUp
      | enter _ _ isDirectory => rw [isFile] at isDirectory; cases isDirectory
      | pass _ _ isLink => rw [isFile] at isLink; cases isLink
      | reach =>
        rw [isFile] at isEntry
        cases isEntry
        exact ⟨content, mode, found⟩
    · rcases leads.ends ⟨_, directory⟩ with ⟨_, isDirectory⟩ | ⟨content, mode, isFile⟩
      · rw [isDirectory] at isEntry
        cases isEntry
        simp [Disk.isDirectory, found] at notDirectory
      · rw [isFile] at isEntry
        cases isEntry
        exact ⟨content, mode, found⟩

/-- A walk visits the directories below its top that no link and no closed directory keeps away. The
order of the visits is a matter of its own. -/
theorem mem_walk_iff (wellFormed : disk.tree.WellFormed) (located : disk.locate top = .ok place)
    (directory : disk.HasDirectory place) : visit ∈ disk.walk top enter ↔
      ∃ below entries, disk.tree.get? (place ++ below) = some (.directory entries)
        ∧ EntersAlong enter [] below
        ∧ visit = ⟨below,
          fileNames (fun name => disk.isDirectory (top.under ⟨"", below ++ [name]⟩)) entries⟩ := by
  obtain ⟨entries, found⟩ := directory
  have isTop : disk.stat top = .ok (.directory entries) := by simp only [stat, located, found]
  have isWellFormed := (wellFormed.get? found).1
  simp only [walk, isTop, mem_visits_iff isWellFormed, get?_append, found, Option.bind_some,
    List.nil_append]

theorem walk_subset (disk : Disk) (top : Path) {other : List String → Bool}
    (narrower : ∀ names, enter names = true → other names = true) :
    disk.walk top enter ⊆ disk.walk top other := by
  unfold walk
  split
  · exact visits_subset narrower
  · exact List.Subset.refl _

/-- The files of a visited directory have proper and distinct names. -/
theorem files_walk (wellFormed : disk.tree.WellFormed) (located : disk.locate top = .ok place)
    (directory : disk.HasDirectory place) (isVisit : visit ∈ disk.walk top enter) :
    visit.files.Nodup ∧ ∀ file ∈ visit.files, ∀ name ∈ visit.below ++ [file], IsEntryName name := by
  obtain ⟨below, entries, found, -, rfl⟩ := (mem_walk_iff wellFormed located directory).mp isVisit
  have distinct : (entries.map Prod.fst).Nodup := (wellFormed.get? found).1.1
  dsimp only
  refine ⟨nodup_fileNames distinct, fun file isFile name isMember => ?_⟩
  have isEntry : ∃ entry, disk.tree.get? (place ++ below ++ [file]) = some entry := by
    rw [get?_name found]
    rcases (mem_fileNames_iff distinct).mp isFile with ⟨_, _, isEntry⟩ | ⟨⟨_, isEntry⟩, -⟩ <;>
      exact ⟨_, isEntry⟩
  obtain ⟨entry, isEntry⟩ := isEntry
  rw [List.append_assoc] at isEntry
  exact (wellFormed.get? isEntry).2 name (List.mem_append_right _ isMember)

theorem nodup_walk (wellFormed : disk.tree.WellFormed) (top : Path) (enter : List String → Bool) :
    ((disk.walk top enter).map Visit.below).Nodup := by
  unfold walk
  split
  · next entry found =>
    obtain ⟨place, -, isEntry⟩ := stat_eq_ok found
    exact nodup_visits (wellFormed.get? isEntry).1
  · exact List.nodup_nil

end Walk

end Disk

end RenderProbe
