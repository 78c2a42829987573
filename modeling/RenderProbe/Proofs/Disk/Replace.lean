import RenderProbe.Proofs.Disk.Follow

/-!
# Replacing a file

A file is replaced by way of a temporary one beside it. Whichever free name that one gets, it is
gone in the end: either the new file stands in the old one's place and nothing else is different, or
the disk is what it was.

* `replaceFile_cases`: an error leaves the disk as it was, and else one name is a new file's.
* `Replaces.elsewhere`: then every other place is what it was.
* `Replaces.stat_after`: the path then leads to the new file, also where it passes links.
-/

namespace RenderProbe.Disk

open Entry

/-! ## Temporary files -/

section Temporary

variable {disk : Disk} {directory : List String} {name temporary : String}
  {entries : List (String × Entry)}

theorem temporaryName_ne (name : String) (number : Nat) : temporaryName name number ≠ name := by
  intro same
  have lengths := congrArg String.length same
  simp only [temporaryName, String.length_append] at lengths
  have dot : ".".length = 1 := rfl
  omega

theorem freeName?_eq_some {tries number : Nat}
    (found : freeName? entries name tries number = some temporary) :
    entries.lookup temporary = none ∧ temporary ≠ name := by
  induction tries generalizing number with
  | zero => cases found
  | succ tries ih =>
    rw [freeName?] at found
    split at found
    · next free =>
      cases found
      exact ⟨Option.isNone_iff_eq_none.mp free, temporaryName_ne name number⟩
    · exact ih found

/-- The disk with a file of a name in a directory. -/
def withFile (disk : Disk) (directory : List String) (name : String) (content : ByteArray)
    (mode : Nat) : Disk :=
  { disk with tree := disk.tree.alter (setName name (.file content mode)) directory }

theorem createTemporary_ok {place : List String} {created : Disk}
    (made : disk.createTemporary directory name = .ok (place, created)) :
    ∃ entries temporary, disk.tree.get? directory = some (.directory entries)
      ∧ entries.lookup temporary = none ∧ temporary ≠ name ∧ place = directory ++ [temporary]
      ∧ created = disk.withFile directory temporary ByteArray.empty temporaryMode := by
  unfold createTemporary at made
  split at made
  · next entries found =>
    split at made
    · cases made
    · next temporary isFree =>
      split at made
      · cases made
      · cases made
        obtain ⟨free, differs⟩ := freeName?_eq_some isFree
        refine ⟨entries, temporary, found, free, differs, rfl, ?_⟩
        rw [withFile, ← put_eq_alter]
  · cases made

section File

variable (found : disk.tree.get? directory = some (.directory entries)) (content : ByteArray)
  (mode : Nat)

include found

theorem get?_withFile :
    (disk.withFile directory name content mode).tree.get? (directory ++ [name]) =
    some (.file content mode) := by
  rw [withFile, get?_append, get?_alter _ found]
  simp [get?]

theorem get?_withFile_of_ne (differs : temporary ≠ name) :
    (disk.withFile directory temporary content mode).tree.get? (directory ++ [name]) =
      disk.tree.get? (directory ++ [name]) := by
  rw [withFile, get?_append, get?_alter _ found, get?_append, found]
  simp [get?, lookup_setName_of_ne differs.symm]

/-- A file of a directory that is put there once more. -/
theorem put_withFile (bytes : ByteArray) (bits : Nat) :
    { disk.withFile directory name content mode with
      tree := (disk.withFile directory name content mode).tree.put (directory ++ [name])
        (.file bytes bits) } = disk.withFile directory name bytes bits := by
  rw [withFile, withFile]
  simp only [put_eq_alter, alter_alter]
  congr 1
  exact alter_congr found (setName_setName ..)

theorem setContent_withFile (bytes : ByteArray) :
    (disk.withFile directory name content mode).setContent (directory ++ [name]) bytes =
      disk.withFile directory name bytes mode := by
  rw [setContent, get?_withFile found]
  exact put_withFile found content mode bytes mode

theorem setMode_withFile (bits : Nat) :
    (disk.withFile directory name content mode).setMode (directory ++ [name]) bits =
      disk.withFile directory name content bits := by
  rw [setMode, get?_withFile found]
  exact put_withFile found content mode content bits

/-- A new file that is taken away leaves nothing behind. -/
theorem remove_withFile (free : entries.lookup name = none) :
    (disk.withFile directory name content mode).remove (directory ++ [name]) = disk := by
  have back : disk.tree.alter ((List.filter fun entry => entry.1 != name)
      ∘ setName name (.file content mode)) directory = disk.tree.alter id directory :=
    alter_congr found (filter_setName_self free _)
  rw [remove, withFile, erase_eq_alter, alter_alter, back, alter_id]

/-- A new file that is moved over another name of its directory. -/
theorem rename_withFile (free : entries.lookup temporary = none) (differs : temporary ≠ name) :
    { disk.withFile directory temporary content mode with
      tree := (disk.withFile directory temporary content mode).tree.put (directory ++ [name])
        (.file content mode) }.remove (directory ++ [temporary]) =
      disk.withFile directory name content mode := by
  rw [remove, withFile, withFile]
  simp only [put_eq_alter, erase_eq_alter, alter_alter]
  congr 1
  refine alter_congr found ?_
  simp only [Function.comp_apply]
  rw [filter_setName differs.symm, filter_setName_self free]

end File

end Temporary

/-! ## Replacing -/

section Replacing

variable {disk after : Disk} {path : Path} {text : String}

/-- The last name of a path is that of a new file with a text, and of the permission bits of what
the path led to, in the directory that its parent leads to. -/
structure Replaces (disk : Disk) (path : Path) (text : String) (after : Disk)
    (parent : List String) (old : Entry) : Prop where
  led : disk.stat path = .ok old
  above : disk.locate path.parent = .ok parent
  directory : disk.HasDirectory parent
  named : path.name ≠ "" ∧ path.name ≠ ".."
  flat : ∀ below, disk.tree.get? (parent ++ [path.name]) ≠ some (.directory below)
  result : after = disk.withFile parent path.name text.toUTF8 old.mode

/-- An attempt to replace a file leaves the disk as it was, or replaces it. The exits behind the
temporary file are among the cases: it was taken away again there. -/
theorem replaceFile_cases (disk : Disk) (path : Path) (text : String) :
    (∃ e, disk.replaceFile path text = .fail disk e)
      ∨ ∃ after parent old, disk.replaceFile path text = .ok after
        ∧ Replaces disk path text after parent old := by
  unfold replaceFile
  split
  · exact .inl ⟨_, rfl⟩
  · exact .inl ⟨_, rfl⟩
  · next old parent isOld isParent =>
    split
    · exact .inl ⟨_, rfl⟩
    · next place created made =>
      obtain ⟨entries, temporary, found, free, differs, rfl, rfl⟩ := createTemporary_ok made
      rw [setContent_withFile found, setMode_withFile found]
      dsimp only
      split
      · next e failed => exact .inl ⟨e, by rw [remove_withFile found _ _ free]⟩
      · next replaced renamed =>
        unfold rename at renamed
        dsimp only at renamed
        split at renamed
        · cases renamed
        · next named =>
          rw [get?_withFile found, get?_withFile_of_ne found _ _ differs] at renamed
          split at renamed
          · cases renamed
          · cases renamed
          · next entry _ isEntry flat =>
            cases isEntry
            cases renamed
            rw [rename_withFile found _ _ free differs]
            refine .inr ⟨_, parent, old, rfl, isOld, isParent, ⟨entries, found⟩, ?_, ?_, rfl⟩
            · simpa using named
            · exact fun below isDirectory => flat below isDirectory

variable {parent : List String} {old : Entry}

theorem Replaces.tree (replaces : Replaces disk path text after parent old) :
    after.tree = disk.tree.put (parent ++ [path.name]) (.file text.toUTF8 old.mode) := by
  rw [replaces.result, put_eq_alter]
  rfl

/-- No other place holds another file, link or directory than before. The directory of the file has
its entries changed, and is a directory as before. -/
theorem Replaces.elsewhere (replaces : Replaces disk path text after parent old)
    {place : List String} (other : place ≠ parent ++ [path.name]) :
    (after.tree.get? place).map bare = (disk.tree.get? place).map bare := by
  obtain ⟨entries, found⟩ := replaces.directory
  rw [replaces.tree]
  exact bare_get?_put found replaces.flat (fun _ => nofun) other

theorem Replaces.newFile (replaces : Replaces disk path text after parent old) :
    after.tree.get? (parent ++ [path.name]) = some (.file text.toUTF8 old.mode) := by
  obtain ⟨entries, found⟩ := replaces.directory
  rw [replaces.result]
  exact get?_withFile found _ _

/-- The names of a path are those of its parent and its own. -/
theorem namesOf_eq (named : path.name ≠ "") (disk : Disk) :
    disk.namesOf path = disk.namesOf path.parent ++ [path.name] := by
  obtain ⟨root, names⟩ := path
  rcases List.eq_nil_or_concat names with rfl | ⟨above, last, rfl⟩
  · exact absurd rfl named
  · simp only [List.concat_eq_append, namesOf, Path.under, Path.parent, Path.name, Path.isAbsolute]
    split <;> simp

theorem Replaces.top (replaces : Replaces disk path text after parent old) : disk.HasDirectory [] :=
  HasDirectory.above (by simpa using replaces.directory)

/-- A path to a file names a file, or a link to one, in the directory of its parent. -/
theorem Replaces.leadsToFile {content : ByteArray} {mode : Nat}
    (replaces : Replaces disk path text after parent (.file content mode)) :
    disk.LeadsToFile parent path.name := by
  obtain ⟨target, located, isFile⟩ := stat_eq_ok replaces.led
  obtain ⟨_, -, toParent⟩ := follow_eq_ok_iff.mp replaces.above
  obtain ⟨_, -, toTarget⟩ := follow_eq_ok_iff.mp located
  rw [namesOf_eq replaces.named.1] at toTarget
  obtain ⟨_, second, middle, -, before, -, last⟩ := toTarget.split (by simp) replaces.top
  rw [before.unique toParent] at last
  exact ⟨replaces.named.2, second, target, content, mode, last, isFile⟩

theorem Replaces.namesOf (replaces : Replaces disk path text after parent old) (other : Path) :
    after.namesOf other = disk.namesOf other := by
  rw [replaces.result]
  rfl

/-- The path leads to its own place if it led to a file before. -/
theorem Replaces.locate_after {content : ByteArray} {mode : Nat}
    (replaces : Replaces disk path text after parent (.file content mode)) :
    after.locate path = .ok (parent ++ [path.name]) := by
  have file := replaces.leadsToFile
  obtain ⟨links, le, toParent⟩ := follow_eq_ok_iff.mp replaces.above
  have toParent' : Leads after links [] (disk.namesOf path.parent) parent :=
    toParent.after_change replaces.top replaces.directory file fun _ other =>
      replaces.elsewhere other
  have toPlace : Leads after 0 parent [path.name] (parent ++ [path.name]) :=
    .reach replaces.named.2 file.short replaces.newFile
  have parent' : after.HasDirectory parent := HasDirectory.of_below replaces.newFile
  rw [locate, replaces.namesOf, namesOf_eq replaces.named.1]
  exact follow_of_leads (toParent'.append parent' toPlace) le

/-- The path leads to the new file if it led to a file before. -/
theorem Replaces.stat_after {content : ByteArray} {mode : Nat}
    (replaces : Replaces disk path text after parent (.file content mode)) :
    after.stat path = .ok (.file text.toUTF8 mode) := by
  simp only [stat, replaces.locate_after, replaces.newFile, Entry.mode]

end Replacing

end RenderProbe.Disk
