import RenderProbe.Disk.Entry

/-!
# Changes of one directory

Putting an entry into a directory and taking one away are changes of the directory's entries, and
changes of one directory are made one after the other on its entries. So what a chain of them does
to a tree is read off a list.

* `put_eq_alter` and `erase_eq_alter`: both are changes of the directory above.
* `alter_alter` and `alter_congr`: a chain of changes is one, and its effect on the entries decides.
* `bare_get?_put`: besides the place itself nothing is another file, link or directory than before.
-/

namespace RenderProbe.Entry

/-! ## Entries by name -/

section Names

variable {name other : String} {entry new old : Entry} {entries : List (String × Entry)}

theorem setName_setName (name : String) (new old : Entry) (entries : List (String × Entry)) :
    setName name new (setName name old entries) = setName name new entries := by
  induction entries with
  | nil => simp [setName]
  | cons head rest ih =>
    obtain ⟨first, kept⟩ := head
    by_cases same : name = first
    · simp [setName, same]
    · simp [setName, same, ih]

/-- An entry that a name has already changes nothing. -/
theorem setName_of_lookup (found : entries.lookup name = some entry) :
    setName name entry entries = entries := by
  induction entries with
  | nil => cases found
  | cons head rest ih =>
    obtain ⟨first, kept⟩ := head
    by_cases same : name = first
    · simp_all [setName]
    · have differs : (name == first) = false := by simpa using same
      rw [List.lookup_cons, differs] at found
      simp [setName, same, ih found]

/-- Taking another name away and setting a name can be done in either order. -/
theorem filter_setName (differs : name ≠ other) (entry : Entry) (entries : List (String × Entry)) :
    (setName name entry entries).filter (fun entry => entry.1 != other) =
      setName name entry (entries.filter fun entry => entry.1 != other) := by
  induction entries with
  | nil => simp [setName, differs]
  | cons head rest ih =>
    obtain ⟨first, kept⟩ := head
    by_cases same : name = first
    · subst same
      simp [setName, differs]
    · by_cases removed : first = other
      · subst removed
        simpa [setName, same] using ih
      · simp [setName, same, removed, ih]

/-- A new name that is taken away again. -/
theorem filter_setName_self (free : entries.lookup name = none) (entry : Entry) :
    (setName name entry entries).filter (fun entry => entry.1 != name) = entries := by
  induction entries with
  | nil => simp [setName]
  | cons head rest ih =>
    obtain ⟨first, kept⟩ := head
    by_cases same : name = first
    · simp [same] at free
    · have differs : (name == first) = false := by simpa using same
      rw [List.lookup_cons, differs] at free
      simp [setName, same, Ne.symm same, ih free]

end Names

/-! ## Places -/

section Places

variable {entry found : Entry} {names others : List String} {entries : List (String × Entry)}

theorem get?_append (entry : Entry) (names others : List String) :
    entry.get? (names ++ others) = (entry.get? names).bind fun found => found.get? others := by
  induction names generalizing entry with
  | nil => simp [get?]
  | cons name rest ih =>
    cases entry with
    | file => simp [get?]
    | link => simp [get?]
    | directory entries => cases below : entries.lookup name <;> simp [get?, below, ih]

/-- What has something below it is a directory. -/
theorem directory_of_get?_append (below : entry.get? (names ++ others) = some found)
    (nonempty : others ≠ []) : ∃ entries, entry.get? names = some (directory entries) := by
  rw [get?_append] at below
  obtain ⟨above, isAbove, below⟩ := Option.bind_eq_some_iff.mp below
  cases others with
  | nil => exact absurd rfl nonempty
  | cons name rest =>
    cases above with
    | file => simp [get?] at below
    | link => simp [get?] at below
    | directory entries => exact ⟨entries, isAbove⟩

/-- A directory with its entries changed. -/
def alter (change : List (String × Entry) → List (String × Entry)) : Entry → List String → Entry
  | directory entries, [] => directory (change entries)
  | directory entries, name :: rest => match entries.lookup name with
    | some entry => directory (setName name (entry.alter change rest) entries)
    | none => directory entries
  | entry, _ => entry

theorem put_eq_alter (entry new : Entry) (names : List String) (last : String) :
    entry.put (names ++ [last]) new = entry.alter (setName last new) names := by
  induction names generalizing entry with
  | nil => cases entry <;> rfl
  | cons name rest ih =>
    cases entry with
    | file => cases rest <;> rfl
    | link => cases rest <;> rfl
    | directory entries =>
      cases below : entries.lookup name <;> cases rest <;> simp [put, alter, below, ← ih]

theorem erase_eq_alter (entry : Entry) (names : List String) (last : String) :
    entry.erase (names ++ [last]) =
      entry.alter (List.filter fun entry => entry.1 != last) names := by
  induction names generalizing entry with
  | nil => cases entry <;> rfl
  | cons name rest ih =>
    cases entry with
    | file => cases rest <;> rfl
    | link => cases rest <;> rfl
    | directory entries =>
      cases below : entries.lookup name <;> cases rest <;> simp [erase, alter, below, ← ih]

theorem alter_alter (first second : List (String × Entry) → List (String × Entry)) (entry : Entry)
    (names : List String) :
    (entry.alter first names).alter second names = entry.alter (second ∘ first) names := by
  induction names generalizing entry with
  | nil => cases entry <;> rfl
  | cons name rest ih =>
    cases entry with
    | file => rfl
    | link => rfl
    | directory entries =>
      cases below : entries.lookup name with
      | none => simp [alter, below]
      | some found => simp [alter, below, setName_setName, ih]

/-- What a change does to the entries decides. -/
theorem alter_congr {first second : List (String × Entry) → List (String × Entry)}
    (found : entry.get? names = some (directory entries)) (same : first entries = second entries) :
    entry.alter first names = entry.alter second names := by
  induction names generalizing entry with
  | nil =>
    cases found
    simp only [alter, same]
  | cons name rest ih =>
    cases entry with
    | file => rfl
    | link => rfl
    | directory above =>
      cases below : above.lookup name with
      | none => simp [alter, below]
      | some sub =>
        simp only [get?, below] at found
        simp only [alter, below, ih found]

theorem alter_id (entry : Entry) (names : List String) : entry.alter id names = entry := by
  induction names generalizing entry with
  | nil => cases entry <;> rfl
  | cons name rest ih =>
    cases entry with
    | file => rfl
    | link => rfl
    | directory entries =>
      cases below : entries.lookup name with
      | none => simp [alter, below]
      | some found => simp [alter, below, ih, setName_of_lookup below]

theorem get?_alter (change : List (String × Entry) → List (String × Entry))
    (found : entry.get? names = some (directory entries)) :
    (entry.alter change names).get? names = some (directory (change entries)) := by
  induction names generalizing entry with
  | nil =>
    cases found
    rfl
  | cons name rest ih =>
    cases entry with
    | file => cases found
    | link => cases found
    | directory above =>
      cases below : above.lookup name with
      | none => simp [get?, below] at found
      | some sub =>
        simp only [get?, below] at found
        simpa [alter, below, get?] using ih found

end Places

/-! ## What is left alone -/

section Bare

variable {entry new : Entry} {names other : List String} {last : String}
  {entries : List (String × Entry)}

/-- An entry by itself: a directory without its entries. -/
def bare : Entry → Entry
  | file content mode => file content mode
  | link target => link target
  | directory _ => directory []

theorem exists_directory_of_bare {found : Option Entry} {entries : List (String × Entry)}
    (alike : found.map bare = (some (directory entries)).map bare) :
    ∃ others, found = some (directory others) := by
  obtain ⟨entry, rfl, isBare⟩ := Option.map_eq_some_iff.mp alike
  cases entry with
  | directory others => exact ⟨others, rfl⟩
  | file | link => cases isBare

theorem eq_of_bare_link {found : Option Entry} {path : Path}
    (alike : found.map bare = (some (link path)).map bare) : found = some (link path) := by
  obtain ⟨entry, rfl, isBare⟩ := Option.map_eq_some_iff.mp alike
  cases entry <;> cases isBare
  rfl

theorem eq_of_bare_file {found : Option Entry} {content : ByteArray} {mode : Nat}
    (alike : found.map bare = (some (file content mode)).map bare) :
    found = some (file content mode) := by
  obtain ⟨entry, rfl, isBare⟩ := Option.map_eq_some_iff.mp alike
  cases entry <;> cases isBare
  rfl

/-- A file or link that takes the place of one, or a new place, leaves every other place what it is.
A directory on the way has other entries then, and is the same by itself. -/
theorem bare_get?_put (found : entry.get? names = some (directory entries))
    (old : ∀ below, entry.get? (names ++ [last]) ≠ some (directory below))
    (flat : ∀ below, new ≠ directory below) (elsewhere : other ≠ names ++ [last]) :
    ((entry.put (names ++ [last]) new).get? other).map bare = (entry.get? other).map bare := by
  have self : (entry.put (names ++ [last]) new).get? (names ++ [last]) = some new :=
    get?_put_self new names last entry found
  by_cases above : other <+: names ++ [last]
  · -- A directory above the place, before and after.
    obtain ⟨rest, split⟩ := above
    have nonempty : rest ≠ [] := by
      rintro rfl
      exact elsewhere (by rw [← split, List.append_nil])
    obtain ⟨after, isAfter⟩ := directory_of_get?_append (by rw [split]; exact self) nonempty
    have before : ∃ before, entry.get? other = some (directory before) := by
      obtain ⟨most, isRest⟩ := List.eq_nil_or_concat rest |>.resolve_left nonempty
      obtain ⟨final, isRest⟩ := isRest
      rw [isRest, List.concat_eq_append, ← List.append_assoc] at split
      obtain ⟨isNames, -⟩ := List.append_inj' split rfl
      by_cases empty : most = []
      · subst empty
        rw [List.append_nil] at isNames
        exact ⟨entries, isNames ▸ found⟩
      · exact directory_of_get?_append (by rw [isNames]; exact found) empty
    obtain ⟨before, isBefore⟩ := before
    rw [isAfter, isBefore]
    rfl
  · by_cases below : names ++ [last] <+: other
    · -- A place below it, where nothing can be, before and after.
      obtain ⟨rest, rfl⟩ := below
      have nonempty : rest ≠ [] := by
        rintro rfl
        exact elsewhere (List.append_nil _)
      have nothing :
          ∀ tree : Entry, (∀ below, tree.get? (names ++ [last]) ≠ some (directory below)) →
          tree.get? (names ++ [last] ++ rest) = none := by
        intro tree flat
        cases isBelow : tree.get? (names ++ [last] ++ rest) with
        | none => rfl
        | some found =>
          obtain ⟨below, isDirectory⟩ := directory_of_get?_append isBelow nonempty
          exact absurd isDirectory (flat below)
      rw [nothing entry old, nothing _ (by simpa [self] using flat)]
    · rw [ get?_put_of_not_prefix new _ _ _ above below]

end Bare

end RenderProbe.Entry
