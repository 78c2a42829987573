import RenderProbe.Path

/-!
# Directory trees

What a directory holds: files with their bytes and permission bits, symbolic links, and directories.
An entry below another is addressed by the names on the way to it; links are not followed here.

* `get?_put_self`: a place holds what was put there, if its directory exists.
* `get?_put_of_not_prefix`: a place that is neither above nor below stays as it was.
-/

namespace RenderProbe

/-- A file, a symbolic link or a directory. -/
inductive Entry where
  | file (content : ByteArray) (mode : Nat)
  | link (target : Path)
  | directory (entries : List (String × Entry))

namespace Entry

instance : Inhabited Entry := ⟨.directory []⟩

def fileMode : Nat :=
  0o644

def directoryMode : Nat :=
  0o755

def mode : Entry → Nat
  | file _ mode => mode
  | link _ => 0o777
  | directory _ => directoryMode

/-- Whether an entry is a directory itself. -/
def isDirectory : Entry → Bool
  | directory _ => true
  | _ => false

/-- The entry at the end of some names. A link is an entry like any other here: names below it lead
nowhere. -/
def get? : Entry → List String → Option Entry
  | entry, [] => some entry
  | directory entries, name :: rest => match entries.lookup name with
    | some entry => entry.get? rest
    | none => none
  | _, _ :: _ => none

def setName (name : String) (entry : Entry) :
    List (String × Entry) → List (String × Entry)
  | [] => [(name, entry)]
  | (other, old) :: rest =>
    if name == other then (other, entry) :: rest else (other, old) :: setName name entry rest

/-- Put an entry at the end of some names; where the directory for it is missing, nothing changes.
An entry that is there already keeps its place among its siblings. -/
def put : Entry → List String → Entry → Entry
  | _, [], new => new
  | directory entries, [name], new => directory (setName name new entries)
  | directory entries, name :: rest, new => match entries.lookup name with
    | some entry => directory (setName name (entry.put rest new) entries)
    | none => directory entries
  | entry, _, _ => entry

/-- Put an entry at the end of some names, making the directories on the way. What is in the way of
a directory is replaced by one. -/
def graft : Entry → List String → Entry → Entry
  | _, [], new => new
  | directory entries, name :: rest, new =>
    directory (setName name (((entries.lookup name).getD (directory [])).graft rest new) entries)
  | _, name :: rest, new => directory [(name, (directory []).graft rest new)]

/-- Take the entry at the end of some names away. -/
def erase : Entry → List String → Entry
  | directory entries, [name] => directory (entries.filter fun entry => entry.1 != name)
  | directory entries, name :: rest => match entries.lookup name with
    | some entry => directory (setName name (entry.erase rest) entries)
    | none => directory entries
  | entry, _ => entry

mutual

/-- The files below an entry, links aside, with the names that lead to them after `above`. -/
def files (above : List String) : Entry → List (List String × ByteArray)
  | file content _ => [(above, content)]
  | link _ => []
  | directory entries => filesIn above entries

def filesIn (above : List String) : List (String × Entry) → List (List String × ByteArray)
  | [] => []
  | (name, entry) :: rest => entry.files (above ++ [name]) ++ filesIn above rest

end

/-! ## Laws -/

@[simp] theorem lookup_setName_self (name : String) (entry : Entry)
    (entries : List (String × Entry)) : (setName name entry entries).lookup name = some entry := by
  induction entries with
  | nil => simp [setName]
  | cons head rest ih =>
    obtain ⟨other, old⟩ := head
    by_cases h : name = other
    · simp [setName, h]
    · have hb : (name == other) = false := by simpa using h
      simp [setName, List.lookup_cons, hb, ih]

theorem lookup_setName_of_ne {name other : String} (h : other ≠ name) (entry : Entry)
    (entries : List (String × Entry)) :
    (setName name entry entries).lookup other = entries.lookup other := by
  induction entries with
  | nil =>
    have hb : (other == name) = false := by simpa using h
    simp [setName, List.lookup_cons, hb]
  | cons head rest ih =>
    obtain ⟨first, old⟩ := head
    by_cases hf : name = first
    · subst hf
      have hb : (other == name) = false := by simpa using h
      simp [setName, List.lookup_cons, hb]
    · have hb : (name == first) = false := by simpa using hf
      simp [setName, List.lookup_cons, hb, ih]

/-- A place holds what was put there, if its directory exists. -/
theorem get?_put_self (new : Entry) (names : List String) (last : String) (entry : Entry)
    {entries : List (String × Entry)} (h : entry.get? names = some (directory entries)) :
    (entry.put (names ++ [last]) new).get? (names ++ [last]) = some new := by
  induction names generalizing entry with
  | nil =>
    simp only [get?, Option.some.injEq] at h
    subst h
    simp [put, get?]
  | cons name rest ih =>
    cases entry with
    | file => simp [get?] at h
    | link => simp [get?] at h
    | directory below =>
      simp only [get?] at h
      split at h
      · rename_i found hfound
        have hput := ih found h
        cases rest with
        | nil => simpa [put, get?, hfound] using hput
        | cons second others => simpa [put, get?, hfound] using hput
      · cases h

/-- A place that is neither above nor below stays as it was. -/
theorem get?_put_of_not_prefix (new : Entry) (names others : List String) (entry : Entry)
    (above : ¬ others <+: names) (below : ¬ names <+: others) :
    (entry.put names new).get? others = entry.get? others := by
  induction names generalizing entry others with
  | nil => simp at below
  | cons name rest ih =>
    cases others with
    | nil => simp at above
    | cons other tail =>
      cases entry with
      | file => cases rest <;> simp [put, get?]
      | link => cases rest <;> simp [put, get?]
      | directory entries =>
        by_cases h : other = name
        · subst h
          rw [List.cons_prefix_cons] at above below
          have above' : ¬ tail <+: rest := fun hp => above ⟨rfl, hp⟩
          have below' : ¬ rest <+: tail := fun hp => below ⟨rfl, hp⟩
          cases rest with
          | nil => simp at below'
          | cons second more =>
            simp only [put]
            split
            · rename_i found hfound
              simp only [get?, lookup_setName_self, hfound]
              exact ih tail found above' below'
            · rfl
        · cases rest with
          | nil => simp [put, get?, lookup_setName_of_ne h]
          | cons second more =>
            simp only [put]
            split
            · simp [get?, lookup_setName_of_ne h]
            · rfl

end Entry

end RenderProbe
