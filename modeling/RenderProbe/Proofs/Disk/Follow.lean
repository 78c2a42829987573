import RenderProbe.Disk.Basic
import RenderProbe.Proofs.Disk.Entry

/-!
# Where names lead

Following names as a relation: each name goes up, enters a directory, passes a link or reaches a
file, and the links that were passed are counted. The limit on links only cuts long ways off.

* `follow_eq_ok_iff`: what following gives, it gives by a way with no more links than allowed.
* `Leads.unique`, `Leads.split` and `Leads.append`: ways are unique, come apart and fit together.
* `Leads.kept`: a way stays when a name that leads to another file gets another entry; it cannot
  have passed there.
-/

namespace RenderProbe.Disk

/-- Names lead from a directory to a place, past a number of links. The number is part of the
relation, since a way past too many links leads nowhere. -/
inductive Leads (disk : Disk) : Nat → List String → List String → List String → Prop
  | done (place : List String) : Leads disk 0 place [] place
  | up {links : Nat} {place rest target : List String} :
    Leads disk links place.dropLast rest target → Leads disk links place (".." :: rest) target
  | enter {links : Nat} {place rest target : List String} {name : String}
    {entries : List (String × Entry)} :
    name ≠ ".." → name.utf8ByteSize ≤ nameLimit →
    disk.tree.get? (place ++ [name]) = some (.directory entries) →
    Leads disk links (place ++ [name]) rest target → Leads disk links place (name :: rest) target
  | pass {links : Nat} {place rest target : List String} {name : String} {path : Path} :
    name ≠ ".." → name.utf8ByteSize ≤ nameLimit →
    disk.tree.get? (place ++ [name]) = some (.link path) →
    Leads disk links (if path.isAbsolute then [] else place) (path.names ++ rest) target →
    Leads disk (links + 1) place (name :: rest) target
  | reach {place : List String} {name : String} {content : ByteArray} {mode : Nat} :
    name ≠ ".." → name.utf8ByteSize ≤ nameLimit →
    disk.tree.get? (place ++ [name]) = some (.file content mode) →
    Leads disk 0 place [name] (place ++ [name])

/-! ## Following -/

section Follow

variable {disk : Disk} {place names target : List String}
  {onLink : List String → List String → Except FileError (List String)} {limit : Nat}

theorem leads_of_followNames
    (links : ∀ {base rest target}, onLink base rest = .ok target →
      ∃ links, links + 1 ≤ limit ∧ Leads disk links base rest target)
    (followed : followNames disk onLink place names = .ok target) :
    ∃ links ≤ limit, Leads disk links place names target := by
  induction names generalizing place with
  | nil =>
    cases followed
    exact ⟨0, Nat.zero_le _, .done _⟩
  | cons name rest ih =>
    rw [followNames] at followed
    split at followed
    · next isUp =>
      obtain rfl : name = ".." := by simpa using isUp
      obtain ⟨count, le, leads⟩ := ih followed
      exact ⟨count, le, .up leads⟩
    · next notUp =>
      have other : name ≠ ".." := by simpa using notUp
      split at followed
      · cases followed
      · next short =>
        have short : name.utf8ByteSize ≤ nameLimit := Nat.le_of_not_lt short
        split at followed
        · cases followed
        · next entries found =>
          obtain ⟨count, le, leads⟩ := ih followed
          exact ⟨count, le, .enter other short found leads⟩
        · next path found =>
          obtain ⟨count, le, leads⟩ := links followed
          exact ⟨count + 1, le, .pass other short found leads⟩
        · next found =>
          split at followed
          · next last =>
            obtain rfl : rest = [] := by simpa using last
            cases followed
            exact ⟨0, Nat.zero_le _, .reach other short found⟩
          · cases followed

theorem leads_of_follow (followed : follow disk limit place names = .ok target) :
    ∃ links ≤ limit, Leads disk links place names target := by
  induction limit generalizing place names target with
  | zero =>
    refine leads_of_followNames (fun passed => ?_) followed
    cases passed
  | succ limit ih =>
    refine leads_of_followNames (fun passed => ?_) followed
    obtain ⟨count, le, leads⟩ := ih passed
    exact ⟨count, Nat.succ_le_succ le, leads⟩

theorem follow_of_leads {links : Nat} (leads : Leads disk links place names target)
    (le : links ≤ limit) : follow disk limit place names = .ok target := by
  induction leads generalizing limit with
  | done place => cases limit <;> rfl
  | up _ ih =>
    have followed := ih le
    cases limit <;> simpa [follow, followNames] using followed
  | enter other short found _ ih =>
    have followed := ih le
    have short := Nat.not_lt.mpr short
    cases limit <;> simpa [follow, followNames, other, short, found] using followed
  | pass other short found _ ih =>
    have short := Nat.not_lt.mpr short
    cases limit with
    | zero => cases le
    | succ limit =>
      have followed := ih (Nat.le_of_succ_le_succ le)
      simpa [follow, followNames, other, short, found] using followed
  | reach other short found =>
    have short := Nat.not_lt.mpr short
    cases limit <;> simp [follow, followNames, other, short, found]

/-- Following gives a place exactly if the names lead there past few enough links. All that is
proved of paths is proved of `Leads`, without a look at how links are counted. -/
theorem follow_eq_ok_iff : follow disk limit place names = .ok target ↔
    ∃ links ≤ limit, Leads disk links place names target :=
  ⟨leads_of_follow, fun ⟨_, le, leads⟩ => follow_of_leads leads le⟩

end Follow

/-! ## Ways -/

section Ways

variable {disk : Disk} {links more : Nat} {place names rest middle target other : List String}

/-- The place holds a directory. -/
def HasDirectory (disk : Disk) (place : List String) : Prop :=
  ∃ entries, disk.tree.get? place = some (.directory entries)

theorem HasDirectory.of_below {entry : Entry} {name : String}
    (found : disk.tree.get? (place ++ [name]) = some entry) : disk.HasDirectory place :=
  Entry.directory_of_get?_append found (by simp)

/-- What is above a directory is one. -/
theorem HasDirectory.above (directory : disk.HasDirectory (place ++ rest)) :
    disk.HasDirectory place := by
  by_cases empty : rest = []
  · rwa [empty, List.append_nil] at directory
  · obtain ⟨entries, found⟩ := directory
    exact Entry.directory_of_get?_append found empty

theorem HasDirectory.dropLast (directory : disk.HasDirectory place) :
    disk.HasDirectory place.dropLast := by
  rcases List.eq_nil_or_concat place with rfl | ⟨above, last, rfl⟩
  · exact directory
  · rw [List.concat_eq_append] at directory ⊢
    rw [List.dropLast_concat]
    exact directory.above

theorem HasDirectory.base (directory : disk.HasDirectory place) (path : Path) :
    disk.HasDirectory (if path.isAbsolute then [] else place) := by
  split
  · exact HasDirectory.above (by simpa using directory)
  · exact directory

theorem HasDirectory.ne_file (directory : disk.HasDirectory place)
    {content : ByteArray} {mode : Nat} :
    disk.tree.get? place ≠ some (.file content mode) := by
  obtain ⟨entries, found⟩ := directory
  rw [found]
  nofun

/-- There is one place that names lead to. A step depends on what is at the place alone, so no way
forks. -/
theorem Leads.unique (first : Leads disk links place names target)
    (second : Leads disk more place names other) : target = other := by
  induction first generalizing more with
  | done =>
    cases second
    rfl
  | up _ ih =>
    cases second with
    | up below => exact ih below
    | enter notUp => exact absurd rfl notUp
    | pass notUp => exact absurd rfl notUp
    | reach notUp => exact absurd rfl notUp
  | enter notUp _ found _ ih =>
    cases second with
    | up => exact absurd rfl notUp
    | enter _ _ _ below => exact ih below
    | pass _ _ isLink => rw [found] at isLink; cases isLink
    | reach _ _ isFile => rw [found] at isFile; cases isFile
  | pass notUp _ found _ ih =>
    cases second with
    | up => exact absurd rfl notUp
    | enter _ _ isDirectory => rw [found] at isDirectory; cases isDirectory
    | pass _ _ isLink below =>
      rw [found] at isLink
      cases isLink
      exact ih below
    | reach _ _ isFile => rw [found] at isFile; cases isFile
  | reach notUp _ found =>
    cases second with
    | up => exact absurd rfl notUp
    | enter _ _ isDirectory => rw [found] at isDirectory; cases isDirectory
    | pass _ _ isLink => rw [found] at isLink; cases isLink
    | reach => rfl

/-- A way comes apart at a directory, and its links are shared out between the two parts. -/
theorem Leads.split (leads : Leads disk links place (names ++ rest) target) (nonempty : rest ≠ [])
    (directory : disk.HasDirectory place) :
    ∃ first second middle, links = first + second ∧ Leads disk first place names middle
      ∧ disk.HasDirectory middle ∧ Leads disk second middle rest target := by
  -- Where no name is left before the rest, the way comes apart at its start.
  have here : ∀ {links place target}, disk.HasDirectory place → Leads disk links place rest target →
      ∃ first second middle, links = first + second ∧ Leads disk first place [] middle
        ∧ disk.HasDirectory middle ∧ Leads disk second middle rest target := by
    intro links place target directory leads
    exact ⟨0, links, place, (Nat.zero_add links).symm, .done place, directory, leads⟩
  generalize whole : names ++ rest = all at leads
  induction leads generalizing names with
  | done =>
    rw [List.append_eq_nil_iff] at whole
    exact absurd whole.2 nonempty
  | @up links place' rest' target' below ih =>
    cases names with
    | nil =>
      obtain rfl : rest = _ := whole
      exact here directory (.up below)
    | cons name names =>
      obtain ⟨rfl, isRest⟩ := List.cons.inj whole
      obtain ⟨first, second, middle, count, before, isDirectory, after⟩ :=
        ih directory.dropLast isRest
      exact ⟨first, second, middle, count, .up before, isDirectory, after⟩
  | @enter links place' rest' target' name' entries notUp short found below ih =>
    cases names with
    | nil =>
      obtain rfl : rest = _ := whole
      exact here directory (.enter notUp short found below)
    | cons name names =>
      obtain ⟨rfl, isRest⟩ := List.cons.inj whole
      obtain ⟨first, second, middle, count, before, isDirectory, after⟩ := ih ⟨_, found⟩ isRest
      exact ⟨first, second, middle, count, .enter notUp short found before, isDirectory, after⟩
  | @pass links place' rest' target' name' path notUp short found below ih =>
    cases names with
    | nil =>
      obtain rfl : rest = _ := whole
      exact here directory (.pass notUp short found below)
    | cons name names =>
      obtain ⟨rfl, rfl⟩ := List.cons.inj whole
      obtain ⟨first, second, middle, count, before, isDirectory, after⟩ :=
        ih (directory.base path) (List.append_assoc path.names names rest)
      exact ⟨first + 1, second, middle, by omega, .pass notUp short found before, isDirectory,
        after⟩
  | @reach place' name' content mode notUp short found =>
    cases names with
    | nil =>
      obtain rfl : rest = _ := whole
      exact here directory (.reach notUp short found)
    | cons name names =>
      obtain ⟨-, isRest⟩ := List.cons.inj whole
      exact absurd (List.append_eq_nil_iff.mp isRest).2 nonempty

/-- Ways fit together at a directory. -/
theorem Leads.append (first : Leads disk links place names middle)
    (directory : disk.HasDirectory middle) (second : Leads disk more middle rest target) :
    Leads disk (links + more) place (names ++ rest) target := by
  induction first with
  | done => simpa using second
  | up _ ih => exact .up (ih directory second)
  | enter notUp short found _ ih => exact .enter notUp short found (ih directory second)
  | pass notUp short found _ ih =>
    have below := ih directory second
    rw [List.append_assoc] at below
    rw [Nat.add_right_comm]
    exact .pass notUp short found below
  | reach _ _ found => exact absurd found directory.ne_file

end Ways

/-! ## Changes -/

section Change

variable {disk after : Disk} {links : Nat} {place names directory : List String} {name : String}

/-- A name in a directory leads to a file. -/
def LeadsToFile (disk : Disk) (directory : List String) (name : String) : Prop :=
  name ≠ ".." ∧ ∃ links target content mode, Leads disk links directory [name] target
    ∧ disk.tree.get? target = some (.file content mode)

/-- Such a name is that of a file, or of a link whose names lead to one. -/
theorem LeadsToFile.entry (file : disk.LeadsToFile directory name) :
    (∃ content mode, disk.tree.get? (directory ++ [name]) = some (.file content mode))
      ∨ ∃ path links target content mode, disk.tree.get? (directory ++ [name]) = some (.link path)
        ∧ Leads disk links (if path.isAbsolute then [] else directory) path.names target
        ∧ disk.tree.get? target = some (.file content mode) := by
  obtain ⟨notUp, links, target, content, mode, leads, isFile⟩ := file
  cases leads with
  | up => exact absurd rfl notUp
  | enter _ _ _ below =>
    cases below
    exact .inl ⟨content, mode, isFile⟩
  | pass _ _ isLink below =>
    rw [List.append_nil] at below
    exact .inr ⟨_, _, target, content, mode, isLink, below, isFile⟩
  | reach _ _ found => exact .inl ⟨_, _, found⟩

theorem LeadsToFile.short (file : disk.LeadsToFile directory name) :
    name.utf8ByteSize ≤ nameLimit := by
  obtain ⟨notUp, links, target, content, mode, leads, -⟩ := file
  cases leads with
  | up => exact absurd rfl notUp
  | enter _ short => exact short
  | pass _ short => exact short
  | reach _ short => exact short

theorem LeadsToFile.ne_of_directory {entries : List (String × Entry)} {entered : String}
    (file : disk.LeadsToFile directory name)
    (found : disk.tree.get? (place ++ [entered]) = some (.directory entries)) :
    place ++ [entered] ≠ directory ++ [name] := by
  intro here
  rcases file.entry with ⟨_, _, isFile⟩ | ⟨_, _, _, _, _, isLink, -, -⟩
  · rw [← here, found] at isFile
    cases isFile
  · rw [← here, found] at isLink
    cases isLink

/-- A link that names go on behind is not one that leads to a file. -/
theorem LeadsToFile.eq_nil_of_link {path : Path} {target : List String}
    (file : disk.LeadsToFile directory name) (start : disk.HasDirectory directory)
    (found : disk.tree.get? (directory ++ [name]) = some (.link path))
    (below : Leads disk links (if path.isAbsolute then [] else directory)
      (path.names ++ names) target) :
    names = [] := by
  refine Classical.byContradiction fun more => ?_
  rcases file.entry with ⟨_, _, isFile⟩ | ⟨_, _, _, _, _, isLink, way, isFile⟩
  · rw [found] at isFile
    cases isFile
  · rw [found] at isLink
    cases isLink
    obtain ⟨_, _, middle, -, before, isDirectory, -⟩ := below.split more (start.base path)
    rw [way.unique before] at isFile
    exact isDirectory.ne_file isFile

/-- A way that does not end where a name leads that leads to a file does not pass the name, so it
stays when only the name's entry becomes another. -/
theorem Leads.kept {target : List String} (leads : Leads disk links place names target)
    (start : disk.HasDirectory place) (file : disk.LeadsToFile directory name)
    (ends : ∀ count, ¬ Leads disk count directory [name] target)
    (same : ∀ other, other ≠ directory ++ [name] →
      (after.tree.get? other).map Entry.bare = (disk.tree.get? other).map Entry.bare) :
    Leads after links place names target := by
  induction leads with
  | done => exact .done _
  | up _ ih => exact .up (ih start.dropLast ends)
  | @enter links place rest target entered entries notUp short found _ ih =>
    have kept := same _ (file.ne_of_directory found)
    obtain ⟨others, isDirectory⟩ := Entry.exists_directory_of_bare (found ▸ kept)
    exact .enter notUp short isDirectory (ih ⟨_, found⟩ ends)
  | @pass links place rest target passed path notUp short found below ih =>
    have elsewhere : place ++ [passed] ≠ directory ++ [name] := by
      intro here
      obtain ⟨rfl, isName⟩ := List.append_inj' here rfl
      obtain rfl : passed = name := by simpa using isName
      obtain rfl := file.eq_nil_of_link start found below
      exact ends _ (.pass notUp short found below)
    have isLink := Entry.eq_of_bare_link (found ▸ same _ elsewhere)
    exact .pass notUp short isLink (ih (start.base path) ends)
  | @reach place last content mode notUp short found =>
    have elsewhere : place ++ [last] ≠ directory ++ [name] := by
      intro here
      obtain ⟨rfl, isName⟩ := List.append_inj' here rfl
      obtain rfl : last = name := by simpa using isName
      exact ends 0 (.reach notUp short found)
    exact .reach notUp short (Entry.eq_of_bare_file (found ▸ same _ elsewhere))

/-- A way to a directory stays when only the entry of a name that leads to a file becomes
another. -/
theorem Leads.after_change {goal : List String} (leads : Leads disk links place names goal)
    (start : disk.HasDirectory place) (isDirectory : disk.HasDirectory goal)
    (file : disk.LeadsToFile directory name)
    (same : ∀ other, other ≠ directory ++ [name] →
      (after.tree.get? other).map Entry.bare = (disk.tree.get? other).map Entry.bare) :
    Leads after links place names goal := by
  refine leads.kept start file (fun count toGoal => ?_) same
  obtain ⟨-, _, target, content, mode, toFile, isFile⟩ := file
  rw [toFile.unique toGoal] at isFile
  exact isDirectory.ne_file isFile

end Change

/-! ## Paths -/

section Paths

variable {disk : Disk} {path : Path}

theorem stat_eq_ok {entry : Entry} (found : disk.stat path = .ok entry) :
    ∃ place, disk.locate path = .ok place ∧ disk.tree.get? place = some entry := by
  unfold stat at found
  split at found
  · cases found
  · next place located =>
    split at found
    · next entry' isEntry =>
      cases found
      exact ⟨place, located, isEntry⟩
    · cases found

theorem contains_iff : disk.contains path = true ↔ ∃ entry, disk.stat path = .ok entry := by
  unfold contains
  cases disk.stat path <;> simp

theorem isFile_iff : disk.isFile path = true ↔
    ∃ content mode, disk.stat path = .ok (.file content mode) := by
  unfold isFile
  constructor
  · intro isFile
    split at isFile
    · next content mode found => exact ⟨content, mode, found⟩
    · cases isFile
  · rintro ⟨content, mode, found⟩
    rw [found]

theorem isDirectory_iff : disk.isDirectory path = true ↔
    ∃ entries, disk.stat path = .ok (.directory entries) := by
  unfold isDirectory
  constructor
  · intro isDirectory
    split at isDirectory
    · next entries found => exact ⟨entries, found⟩
    · cases isDirectory
  · rintro ⟨entries, found⟩
    rw [found]

end Paths

end RenderProbe.Disk
