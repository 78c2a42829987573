import RenderProbe.Proofs.Disk.Replace

/-!
# Files that are replaced independently

Two paths to different files do not get in each other's way. Replacing the file at one of them
leaves the other path leading where it led, to the same bytes, and able to be replaced as before,
also where links stand on the way.

* `Replaces.locate_other`: a path that leads to another place leads there still.
* `Replaces.stat_other`: what it leads to is the same file.
* `Replaces.replaceable_other`: the file can still be replaced.
* `Independent.replaced`: files that are independent stay so when one of them is replaced.
-/

namespace RenderProbe.Disk

open Entry

/-! ## Paths -/

section Other

variable {disk after : Disk} {path other : Path} {text : String} {parent target : List String}
  {content bytes : ByteArray} {mode bits : Nat}

/-- A path whose place is not the one that the replaced path led to. -/
theorem Replaces.locate_other (replaces : Replaces disk path text after parent (.file content mode))
    (located : disk.locate other = .ok target) (apart : disk.locate path ≠ .ok target) :
    after.locate other = .ok target := by
  obtain ⟨links, le, leads⟩ := follow_eq_ok_iff.mp located
  obtain ⟨reached, toReached, -⟩ := stat_eq_ok replaces.led
  have kept : Leads after links [] (disk.namesOf other) target := by
    refine leads.kept replaces.top replaces.leadsToFile (fun count toTarget => apart ?_)
      fun _ elsewhere => replaces.elsewhere elsewhere
    -- The replaced path leads to its parent and by its name to where it led.
    obtain ⟨_, -, toParent⟩ := follow_eq_ok_iff.mp replaces.above
    obtain ⟨_, -, leadsToReached⟩ := follow_eq_ok_iff.mp toReached
    rw [namesOf_eq replaces.named.1] at leadsToReached
    rw [toReached, leadsToReached.unique (toParent.append replaces.directory toTarget)]
  rw [locate, replaces.namesOf]
  exact follow_of_leads kept le

/-- The place of another file is not the one that became a new file. -/
theorem Replaces.ne_place (replaces : Replaces disk path text after parent (.file content mode))
    (isFile : disk.tree.get? target = some (.file bytes bits))
    (apart : disk.locate path ≠ .ok target) : target ≠ parent ++ [path.name] := by
  rintro rfl
  obtain ⟨links, le, toParent⟩ := follow_eq_ok_iff.mp replaces.above
  have toPlace : Leads disk 0 parent [path.name] (parent ++ [path.name]) :=
    .reach replaces.named.2 replaces.leadsToFile.short isFile
  refine apart ?_
  rw [locate, namesOf_eq replaces.named.1]
  exact follow_of_leads (toParent.append replaces.directory toPlace) le

theorem Replaces.get?_other (replaces : Replaces disk path text after parent (.file content mode))
    (isFile : disk.tree.get? target = some (.file bytes bits))
    (apart : disk.locate path ≠ .ok target) :
    after.tree.get? target = some (.file bytes bits) :=
  Entry.eq_of_bare_file (isFile ▸ replaces.elsewhere (replaces.ne_place isFile apart))

/-- A path to another file leads to the same place and the same file. -/
theorem Replaces.stat_other (replaces : Replaces disk path text after parent (.file content mode))
    (isFile : disk.stat other = .ok (.file bytes bits))
    (apart : disk.locate path ≠ disk.locate other) :
    after.locate other = disk.locate other ∧ after.stat other = .ok (.file bytes bits) := by
  obtain ⟨target, located, found⟩ := stat_eq_ok isFile
  rw [located] at apart ⊢
  have kept := replaces.locate_other located apart
  refine ⟨kept, ?_⟩
  simp only [stat, kept, replaces.get?_other found apart]

/-- The replaced path does not come to lead to another file. -/
theorem Replaces.apart_after (replaces : Replaces disk path text after parent (.file content mode))
    (isFile : disk.stat other = .ok (.file bytes bits))
    (apart : disk.locate path ≠ disk.locate other) : after.locate path ≠ after.locate other := by
  obtain ⟨target, located, found⟩ := stat_eq_ok isFile
  rw [(replaces.stat_other isFile apart).1, replaces.locate_after, located]
  rw [located] at apart
  intro same
  exact replaces.ne_place found apart (Except.ok.inj same).symm

/-- A path to a directory leads there still. -/
theorem Replaces.locate_directory
    (replaces : Replaces disk path text after parent (.file content mode))
    (located : disk.locate other = .ok target) (directory : disk.HasDirectory target) :
    after.locate other = .ok target := by
  refine replaces.locate_other located fun toTarget => ?_
  obtain ⟨reached, toReached, isFile⟩ := stat_eq_ok replaces.led
  rw [toReached] at toTarget
  rw [Except.ok.inj toTarget] at isFile
  exact directory.ne_file isFile

/-! ## Names -/

/-- The same names are taken as before. -/
theorem Replaces.isNone_get? (replaces : Replaces disk path text after parent (.file content mode))
    (place : List String) : (after.tree.get? place).isNone = (disk.tree.get? place).isNone := by
  by_cases here : place = parent ++ [path.name]
  · subst here
    rw [replaces.newFile]
    rcases replaces.leadsToFile.entry with ⟨_, _, found⟩ | ⟨_, _, _, _, _, found, -, -⟩
    · rw [found]
      rfl
    · rw [found]
      rfl
  · rw [← Option.isNone_map (f := bare), replaces.elsewhere here, Option.isNone_map]

theorem Replaces.directory_after
    (replaces : Replaces disk path text after parent (.file content mode)) {place : List String}
    {entries : List (String × Entry)} (found : disk.tree.get? place = some (.directory entries)) :
    ∃ others, after.tree.get? place = some (.directory others)
      ∧ ∀ name, (others.lookup name).isNone = (entries.lookup name).isNone := by
  have elsewhere : place ≠ parent ++ [path.name] := by
    rintro rfl
    exact replaces.flat entries found
  have kept := replaces.elsewhere elsewhere
  rw [found] at kept
  obtain ⟨entry, isEntry, isBare⟩ := Option.map_eq_some_iff.mp kept
  cases entry with
  | file => cases isBare
  | link => cases isBare
  | directory others =>
    refine ⟨others, isEntry, fun name => ?_⟩
    have taken := replaces.isNone_get? (place ++ [name])
    rw [get?_append, get?_append, isEntry, found] at taken
    cases new : others.lookup name <;> cases old : entries.lookup name <;>
      simp [get?, new, old] at taken ⊢

theorem freeName?_congr {entries others : List (String × Entry)}
    (same : ∀ name, (others.lookup name).isNone = (entries.lookup name).isNone) (name : String)
    (tries number : Nat) :
    freeName? others name tries number = freeName? entries name tries number := by
  induction tries generalizing number with
  | zero => rfl
  | succ tries ih => simp only [freeName?, same, ih]

end Other

/-! ## Replacing one after the other -/

/-- The file at a path can be replaced, whatever the new text. What that takes does not depend on
the text, see `Room`. -/
def Replaceable (disk : Disk) (path : Path) : Prop :=
  ∀ text, ∃ after, disk.replaceFile path text = .ok after

/-- What it takes to replace what is at a path: a directory above it with a free name for the
temporary file, and no directory in its place. -/
structure Room (disk : Disk) (path : Path) (parent : List String) (entries : List (String × Entry))
    (temporary : String) : Prop where
  above : disk.locate path.parent = .ok parent
  directory : disk.tree.get? parent = some (.directory entries)
  free : freeName? entries path.name temporaryTries 0 = some temporary
  short : temporary.utf8ByteSize ≤ nameLimit
  named : path.name ≠ "" ∧ path.name ≠ ".."
  flat : ∀ below, disk.tree.get? (parent ++ [path.name]) ≠ some (.directory below)

section Room

variable {disk after : Disk} {path other : Path} {text : String} {parent : List String}
  {content bytes : ByteArray} {mode bits : Nat}

theorem Replaceable.room (replaceable : disk.Replaceable path) :
    ∃ parent entries temporary, disk.Room path parent entries temporary := by
  obtain ⟨after, replaced⟩ := replaceable ""
  have cases := replaceFile_cases disk path ""
  rw [replaced] at cases
  rcases cases with ⟨e, failed⟩ | ⟨_, parent, old, -, replaces⟩
  · cases failed
  · obtain ⟨entries, found⟩ := replaces.directory
    simp only [replaceFile, replaces.led, replaces.above, createTemporary, found] at replaced
    split at replaced
    · cases replaced
    · next made =>
      split at made
      · cases made
      · next temporary free =>
        split at made
        · cases made
        · next short =>
          exact ⟨parent, entries, temporary, replaces.above, found, free, Nat.le_of_not_lt short,
            replaces.named, replaces.flat⟩

theorem Room.replaceable {entries : List (String × Entry)} {temporary : String} {old : Entry}
    (room : disk.Room path parent entries temporary) (found : disk.stat path = .ok old) :
    disk.Replaceable path := by
  intro text
  obtain ⟨free, differs⟩ := freeName?_eq_some room.free
  have short := Nat.not_lt.mpr room.short
  have place : ∀ bytes bits, (disk.withFile parent temporary bytes bits).tree.get?
      (parent ++ [path.name]) = disk.tree.get? (parent ++ [path.name]) := fun bytes bits =>
    get?_withFile_of_ne room.directory bytes bits differs
  have created : disk.createTemporary parent path.name = .ok (parent ++ [temporary],
      disk.withFile parent temporary ByteArray.empty temporaryMode) := by
    simp only [createTemporary, room.directory, room.free, short, if_false, withFile, put_eq_alter]
  simp only [replaceFile, found, room.above, created]
  rw [setContent_withFile room.directory, setMode_withFile room.directory]
  simp only [rename, place, get?_withFile room.directory]
  have named : (path.name == "" || path.name == "..") = false := by
    simp [room.named.1, room.named.2]
  simp only [named, Bool.false_eq_true, if_false]
  cases isOld : disk.tree.get? (parent ++ [path.name]) with
  | none => exact ⟨_, rfl⟩
  | some entry =>
    cases entry with
    | file => exact ⟨_, rfl⟩
    | link => exact ⟨_, rfl⟩
    | directory below => exact absurd isOld (room.flat below)

/-- Another file can be replaced as before. -/
theorem Replaces.replaceable_other
    (replaces : Replaces disk path text after parent (.file content mode))
    (isFile : disk.stat other = .ok (.file bytes bits))
    (apart : disk.locate path ≠ disk.locate other) (replaceable : disk.Replaceable other) :
    after.Replaceable other := by
  obtain ⟨above, entries, temporary, room⟩ := replaceable.room
  obtain ⟨others, found, same⟩ := replaces.directory_after room.directory
  have flat : ∀ below, after.tree.get? (above ++ [other.name]) ≠ some (.directory below) := by
    intro below isDirectory
    by_cases here : above ++ [other.name] = parent ++ [path.name]
    · rw [here, replaces.newFile] at isDirectory
      cases isDirectory
    · have kept := replaces.elsewhere here
      rw [isDirectory] at kept
      obtain ⟨entry, isEntry, isBare⟩ := Option.map_eq_some_iff.mp kept.symm
      cases entry with
      | file => cases isBare
      | link => cases isBare
      | directory old => exact room.flat old isEntry
  have room' : after.Room other above others temporary :=
    { room with
      above := replaces.locate_directory room.above ⟨_, room.directory⟩
      directory := found
      free := (freeName?_congr same _ _ _).trans room.free
      flat }
  exact room'.replaceable (replaces.stat_other isFile apart).2

end Room

/-- Paths lead to files, each to one of its own, and every one of the files can be replaced. Two
paths to one file would let a wrap change what a later one reads. -/
structure Independent (disk : Disk) (paths : List Path) : Prop where
  isFile : ∀ path ∈ paths, disk.isFile path = true
  apart : paths.Pairwise fun path other => disk.locate path ≠ disk.locate other
  replaceable : ∀ path ∈ paths, disk.Replaceable path

namespace Independent

variable {disk after : Disk} {path : Path} {paths : List Path} {text : String}
  {parent : List String} {content : ByteArray} {mode : Nat}

theorem tail (independent : disk.Independent (path :: paths)) : disk.Independent paths :=
  ⟨fun other isMember => independent.isFile other (List.mem_cons_of_mem _ isMember),
    (List.pairwise_cons.mp independent.apart).2,
    fun other isMember => independent.replaceable other (List.mem_cons_of_mem _ isMember)⟩

theorem apart_head (independent : disk.Independent (path :: paths)) {other : Path}
    (isMember : other ∈ paths) : disk.locate path ≠ disk.locate other :=
  (List.pairwise_cons.mp independent.apart).1 other isMember

/-- Once the first file is replaced, the others are independent still. This is the step by which a
batch goes from target to target. -/
theorem replaced (independent : disk.Independent (path :: paths))
    (replaces : Replaces disk path text after parent (.file content mode)) :
    after.Independent paths := by
  -- Each of the others leads where it led.
  have kept : ∀ other ∈ paths, ∃ bytes bits, disk.stat other = .ok (.file bytes bits)
      ∧ after.locate other = disk.locate other ∧ after.stat other = .ok (.file bytes bits) := by
    intro other isMember
    obtain ⟨bytes, bits, isFile⟩ := isFile_iff.mp (independent.tail.isFile other isMember)
    exact ⟨bytes, bits, isFile, replaces.stat_other isFile (independent.apart_head isMember)⟩
  refine ⟨fun other isMember => ?_, ?_, fun other isMember => ?_⟩
  · obtain ⟨bytes, bits, -, -, isFile⟩ := kept other isMember
    exact isFile_iff.mpr ⟨bytes, bits, isFile⟩
  · refine independent.tail.apart.imp_of_mem fun {first second} isFirst isSecond differs => ?_
    obtain ⟨_, _, -, first', -⟩ := kept first isFirst
    obtain ⟨_, _, -, second', -⟩ := kept second isSecond
    rwa [first', second']
  · obtain ⟨bytes, bits, isFile, -, -⟩ := kept other isMember
    exact replaces.replaceable_other isFile (independent.apart_head isMember)
      (independent.tail.replaceable other isMember)

end Independent

end RenderProbe.Disk
