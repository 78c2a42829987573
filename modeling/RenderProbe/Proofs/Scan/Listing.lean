import Mathlib.Data.List.Induction
import RenderProbe.Proofs.Disk.Walk
import RenderProbe.Proofs.Text.Fields
import RenderProbe.Scan.Manifest

/-!
# What a scan lists

The files that a scan lists are described by their paths alone: which directories lead to them, what
the rules say of every one of these and of the file, and how the file is called.

* `isIgnored_eq_false_iff`: rules let a path in if the last of them that matches it is negated.
* `Eligible`: what a file needs to be listed.
* `scan_lists_eligible`: a scan lists the eligible files, by path and each once.
-/

namespace RenderProbe.Scan

open Disk (HasDirectory EntersAlong)

/-! ## Rules -/

section Rules

variable {rules : List IgnoreRule} {rule : IgnoreRule} {path : String} {isDirectory : Bool}

/-- The last rule that matches a path, if any does, is a negated one. This is what the fold over all
rules comes to, without an order of looking at them. -/
def Admits (rules : List IgnoreRule) (path : String) (isDirectory : Bool) : Prop :=
  ∀ before rule after, rules = before ++ rule :: after → rule.accepts path isDirectory = true →
    (∀ later ∈ after, later.accepts path isDirectory = false) → rule.negate = true

theorem admits_concat_of_accepts (accepts : rule.accepts path isDirectory = true) :
    Admits (rules ++ [rule]) path isDirectory ↔ rule.negate = true := by
  constructor
  · intro admits
    exact admits rules rule [] rfl accepts nofun
  · intro negate before other after split _ last
    rcases List.eq_nil_or_concat after with rfl | ⟨most, final, rfl⟩
    · obtain ⟨-, same⟩ := List.append_inj' split rfl
      cases same
      exact negate
    · -- A rule before the last one that matches is not the last.
      rw [List.concat_eq_append, ← List.cons_append, ← List.append_assoc] at split
      obtain ⟨-, same⟩ := List.append_inj' split rfl
      cases same
      have refused := last rule (by simp)
      rw [accepts] at refused
      cases refused

theorem admits_concat_of_not_accepts (refused : rule.accepts path isDirectory = false) :
    Admits (rules ++ [rule]) path isDirectory ↔ Admits rules path isDirectory := by
  constructor
  · intro admits before other after split accepts last
    refine admits before other (after ++ [rule]) (by simp [split]) accepts fun later isMember => ?_
    rcases List.mem_append.mp isMember with isMember | isRule
    · exact last later isMember
    · rwa [List.mem_singleton.mp isRule]
  · intro admits before other after split accepts last
    rcases List.eq_nil_or_concat after with rfl | ⟨most, final, rfl⟩
    · obtain ⟨-, same⟩ := List.append_inj' split rfl
      cases same
      rw [accepts] at refused
      cases refused
    · rw [List.concat_eq_append, ← List.cons_append, ← List.append_assoc] at split
      obtain ⟨isRules, -⟩ := List.append_inj' split rfl
      exact admits before other most isRules accepts fun later isMember =>
        last later (by simp [isMember])

theorem isIgnored_concat (rules : List IgnoreRule) (rule : IgnoreRule) (path : String)
    (isDirectory : Bool) : isIgnored (rules ++ [rule]) path isDirectory =
      if rule.accepts path isDirectory then !rule.negate else isIgnored rules path isDirectory := by
  rw [isIgnored, List.foldl_append]
  rfl

/-- Rules let a path in exactly if the last of them that matches it is negated. By induction from
the end of the rules, where the last word is said. -/
theorem isIgnored_eq_false_iff : isIgnored rules path isDirectory = false ↔
    Admits rules path isDirectory := by
  induction rules using List.reverseRecOn with
  | nil => simp [isIgnored, Admits]
  | append_singleton rules rule ih =>
    rw [isIgnored_concat]
    cases matched : rule.accepts path isDirectory with
    | true => simpa using (admits_concat_of_accepts matched).symm
    | false => simpa using ih.trans (admits_concat_of_not_accepts matched).symm

end Rules

/-! ## Eligible files -/

section Eligible

variable {settings : ScanSettings} {rules : List IgnoreRule} {directories : List String}
  {file : String}

/-- The name of a component source, whatever its case. -/
def NamesSource (extensions : List String) (file : String) : Prop :=
  (∃ extension ∈ extensions, extension.toList <:+ (Text.lowercase file).toList)
    ∧ ∀ suffix ∈ excludedSuffixes, ¬ suffix.toList <:+ (Text.lowercase file).toList

theorem endsWithAny_iff {suffixes : List String} : endsWithAny suffixes file = true ↔
    ∃ suffix ∈ suffixes, suffix.toList <:+ (Text.lowercase file).toList := by
  simp [endsWithAny]

theorem isSourceFile_iff {extensions : List String} :
    isSourceFile extensions file = true ↔ NamesSource extensions file := by
  rw [isSourceFile, Bool.and_eq_true, Bool.not_eq_true', ← Bool.not_eq_true, endsWithAny_iff,
    endsWithAny_iff, and_comm]
  simp [NamesSource]

/-- Directories that a scan goes through: not too many, none of them excluded or hidden by name, and
none kept out by the rules. -/
structure Entered (settings : ScanSettings) (rules : List IgnoreRule) (directories : List String) :
    Prop where
  shallow : directories = [] ∨ (directories.length : Int) ≤ settings.maxDepth
  named : ∀ directory ∈ directories,
    directory ∉ excludedDirectories ∧ ¬ ['.'] <+: directory.toList
  admitted : ∀ part, part ≠ [] → part <+: directories → Admits rules (relativePath part) true

/-- A file that is to be listed: names below the root lead through directories, none of them a link,
to a file or a link to one. -/
structure Eligible (disk : Disk) (root : Path) (settings : ScanSettings) (rules : List IgnoreRule)
    (directories : List String) (file : String) : Prop where
  isFile : disk.isFile (root.under ⟨"", directories ++ [file]⟩) = true
  unlinked : ∃ place, disk.locate root = .ok place ∧ disk.HasDirectory (place ++ directories)
  entered : Entered settings rules directories
  admitted : Admits rules (relativePath (directories ++ [file])) false
  named : NamesSource settings.extensions file

theorem isEntered_iff {name : String} : isEntered name = true ↔
    name ∉ excludedDirectories ∧ ¬ ['.'] <+: name.toList := by
  have dot : name.toList.head? = some '.' ↔ ['.'] <+: name.toList := by
    cases name.toList <;> simp [eq_comm]
  simp [isEntered, ← dot]

theorem entersAlong_depth_iff {limit : Int} :
    EntersAlong (fun names => decide ((names.length : Int) - 1 < limit)) [] directories ↔
      directories = [] ∨ (directories.length : Int) ≤ limit := by
  have within {names : List String} : decide ((names.length : Int) - 1 < limit) = true ↔
      (names.length : Int) ≤ limit := by
    rw [decide_eq_true_eq, Int.sub_lt_iff, Int.lt_add_one_iff]
  constructor
  · intro along
    by_cases empty : directories = []
    · exact .inl empty
    · exact .inr (within.mp (along directories empty (List.prefix_refl _)))
  · rintro (rfl | shallow) part nonempty isPart
    · exact absurd (List.prefix_nil.mp isPart) nonempty
    · have shorter := isPart.length_le
      exact within.mpr (by simp only [List.nil_append]; omega)

theorem entersAlong_iff : EntersAlong (entersAt settings rules) [] directories ↔
    Entered settings rules directories := by
  have parts : EntersAlong (entersAt settings rules) [] directories ↔
      (EntersAlong (fun names => decide ((names.length : Int) - 1 < settings.maxDepth)) []
        directories
        ∧ EntersAlong (fun names => names.getLast?.all isEntered) [] directories)
      ∧ EntersAlong (fun names => !isIgnored rules (relativePath names) true) [] directories := by
    rw [← Disk.entersAlong_and_iff, ← Disk.entersAlong_and_iff]
    rfl
  have admitted :
      EntersAlong (fun names => !isIgnored rules (relativePath names) true) [] directories ↔
      ∀ part, part ≠ [] → part <+: directories → Admits rules (relativePath part) true := by
    simp only [EntersAlong, Bool.not_eq_true', isIgnored_eq_false_iff, List.nil_append]
  rw [parts, entersAlong_depth_iff, Disk.entersAlong_getLast?_iff, admitted]
  simp only [isEntered_iff]
  constructor
  · rintro ⟨⟨shallow, named⟩, admitted⟩
    exact ⟨shallow, named, admitted⟩
  · rintro ⟨shallow, named, admitted⟩
    exact ⟨⟨shallow, named⟩, admitted⟩

theorem listsAt_iff : listsAt settings rules (directories ++ [file]) = true ↔
    NamesSource settings.extensions file
      ∧ Admits rules (relativePath (directories ++ [file])) false := by
  simp [listsAt, isSourceFile_iff, isIgnored_eq_false_iff]

end Eligible

/-! ## Listed files -/

section Listed

variable {disk : Disk} {root : Path} {place : List String} {settings : ScanSettings}
  {rules : List IgnoreRule} {names : List String}

/-- The rows of names at which a scan finds something to list. -/
def foundIn (disk : Disk) (root : Path) (settings : ScanSettings) (rules : List IgnoreRule) :
    List (List String) :=
  (disk.walk root (entersAt settings rules)).flatMap (listedIn settings rules)

theorem mem_listedIn_iff {visit : Visit} : names ∈ listedIn settings rules visit ↔
    ∃ file ∈ visit.files, names = visit.below ++ [file] ∧ listsAt settings rules names = true := by
  simp only [listedIn, List.mem_filter, List.mem_map]
  constructor
  · rintro ⟨⟨file, isFile, rfl⟩, lists⟩
    exact ⟨file, isFile, rfl, lists⟩
  · rintro ⟨file, isFile, rfl, lists⟩
    exact ⟨⟨file, isFile, rfl⟩, lists⟩

theorem map_path_entries (found : List (List String)) :
    (found.filterMap fun names => (entryAt disk root names).toOption).map SourceEntry.path =
      (found.filter fun names => disk.contains (root.under ⟨"", names⟩)).map relativePath := by
  induction found with
  | nil => rfl
  | cons names rest ih =>
    rw [List.filterMap_cons, List.filter_cons]
    cases isEntry : disk.stat (root.under ⟨"", names⟩) with
    | error => simpa [entryAt, Disk.contains, isEntry, Except.toOption] using ih
    | ok entry => cases entry <;> simpa [entryAt, Disk.contains, isEntry, Except.toOption] using ih

theorem entryBefore_iff {first second : SourceEntry} :
    entryBefore first second = true ↔ first.path ≤ second.path := by
  rw [entryBefore, Bool.not_eq_true', decide_eq_false_iff_not, String.not_lt]

theorem sorted_paths_listFiles (disk : Disk) (root : Path) (settings : ScanSettings)
    (rules : List IgnoreRule) :
    ((listFiles disk root settings rules).value.map SourceEntry.path).Pairwise (· ≤ ·) := by
  rw [List.pairwise_map]
  refine (List.pairwise_mergeSort (fun first second third => ?_) (fun first second => ?_) _).imp
    entryBefore_iff.mp
  · simp only [entryBefore_iff]
    exact String.le_trans
  · simpa [entryBefore_iff] using String.le_total first.path second.path

/-- The paths of the listed files are those that are found and lead somewhere. -/
theorem paths_listFiles_perm (disk : Disk) (root : Path) (settings : ScanSettings)
    (rules : List IgnoreRule) :
    ((listFiles disk root settings rules).value.map SourceEntry.path).Perm
      (((foundIn disk root settings rules).filter fun names =>
        disk.contains (root.under ⟨"", names⟩)).map relativePath) := by
  rw [← map_path_entries]
  exact (List.mergeSort_perm _ entryBefore).map SourceEntry.path

section Root

variable (wellFormed : disk.tree.WellFormed) (located : disk.locate root = .ok place)
  (directory : disk.HasDirectory place)

include wellFormed located directory

/-- What is found and leads somewhere is eligible, and the eligible is found. The tests on the way
in `EntersAlong` are taken apart into depth, names and rules here. -/
theorem mem_foundIn_iff : names ∈ foundIn disk root settings rules
      ∧ disk.contains (root.under ⟨"", names⟩) = true ↔
    ∃ directories file, names = directories ++ [file]
      ∧ Eligible disk root settings rules directories file := by
  simp only [foundIn, List.mem_flatMap, mem_listedIn_iff]
  constructor
  · rintro ⟨⟨visit, isVisit, file, isShown, rfl, lists⟩, leads⟩
    obtain ⟨below, entries, found, along, rfl⟩ :=
      (Disk.mem_walk_iff wellFormed located directory).mp isVisit
    obtain ⟨named, admitted⟩ := listsAt_iff.mp lists
    have isFile := (Disk.isFile_below_iff wellFormed located found).mpr ⟨isShown, leads⟩
    exact ⟨below, file, rfl, isFile, ⟨place, located, entries, found⟩, entersAlong_iff.mp along,
      admitted, named⟩
  · rintro ⟨directories, file, rfl, eligible⟩
    obtain ⟨other, isOther, entries, found⟩ := eligible.unlinked
    obtain rfl : place = other := Except.ok.inj (located.symm.trans isOther)
    obtain ⟨isShown, leads⟩ := (Disk.isFile_below_iff wellFormed located found).mp eligible.isFile
    have along := entersAlong_iff.mpr eligible.entered
    have isVisit := (Disk.mem_walk_iff wellFormed located directory).mpr
      ⟨directories, entries, found, along, rfl⟩
    exact ⟨⟨_, isVisit, file, isShown, rfl, listsAt_iff.mpr ⟨eligible.named, eligible.admitted⟩⟩,
      leads⟩

theorem nodup_foundIn : (foundIn disk root settings rules).Nodup := by
  rw [foundIn, List.nodup_flatMap]
  constructor
  · intro visit isVisit
    have distinct := (Disk.files_walk wellFormed located directory isVisit).1
    refine (distinct.map fun first second same => ?_).filter _
    simpa using same
  · have apart := List.pairwise_map.mp
      (Disk.nodup_walk wellFormed root (entersAt settings rules))
    refine apart.imp fun {first second} differs names isFirst isSecond => ?_
    obtain ⟨_, -, rfl, -⟩ := mem_listedIn_iff.mp isFirst
    obtain ⟨_, -, same, -⟩ := mem_listedIn_iff.mp isSecond
    exact differs (List.append_inj' same rfl).1

theorem isEntryName_of_mem_foundIn (isFound : names ∈ foundIn disk root settings rules) :
    names ≠ [] ∧ ∀ name ∈ names, Path.IsEntryName name := by
  obtain ⟨visit, isVisit, isListed⟩ := List.mem_flatMap.mp isFound
  obtain ⟨file, isFile, rfl, -⟩ := mem_listedIn_iff.mp isListed
  exact ⟨by simp, (Disk.files_walk wellFormed located directory isVisit).2 file isFile⟩

/-- The paths of the listed files are those of the eligible ones. -/
theorem mem_paths_listFiles {path : String} :
    path ∈ (listFiles disk root settings rules).value.map SourceEntry.path ↔
      ∃ directories file, path = relativePath (directories ++ [file])
        ∧ Eligible disk root settings rules directories file := by
  rw [(paths_listFiles_perm disk root settings rules).mem_iff]
  simp only [List.mem_map, List.mem_filter, mem_foundIn_iff wellFormed located directory]
  constructor
  · rintro ⟨_, ⟨directories, file, rfl, eligible⟩, rfl⟩
    exact ⟨directories, file, rfl, eligible⟩
  · rintro ⟨directories, file, rfl, eligible⟩
    exact ⟨_, ⟨directories, file, rfl, eligible⟩, rfl⟩

/-- Different rows of proper names are different paths, so no path is listed twice. -/
theorem nodup_paths_listFiles :
    ((listFiles disk root settings rules).value.map SourceEntry.path).Nodup := by
  rw [(paths_listFiles_perm disk root settings rules).nodup_iff]
  refine List.Nodup.map_on (fun first isFirst second isSecond same => ?_)
    ((nodup_foundIn wellFormed located directory).filter _)
  obtain ⟨nonempty, proper⟩ := isEntryName_of_mem_foundIn wellFormed located directory
    (List.mem_filter.mp isFirst).1
  obtain ⟨nonempty', proper'⟩ := isEntryName_of_mem_foundIn wellFormed located directory
    (List.mem_filter.mp isSecond).1
  exact Text.join_inj nonempty nonempty' (fun name isMember => (proper name isMember).whole)
    (fun name isMember => (proper' name isMember).whole) same

/-- The paths of the listed files increase. -/
theorem pairwise_paths_listFiles :
    ((listFiles disk root settings rules).value.map SourceEntry.path).Pairwise (· < ·) := by
  have sorted := sorted_paths_listFiles disk root settings rules
  have distinct : ((listFiles disk root settings rules).value.map SourceEntry.path).Nodup :=
    nodup_paths_listFiles wellFormed located directory
  refine (sorted.and distinct).imp fun {first second} ⟨le, ne⟩ => ?_
  by_contra notLt
  exact ne (String.le_antisymm le (String.not_lt.mp notLt))

end Root

end Listed

/-! ## Scans -/

section Scans

variable {disk : Disk} {given : Option ScanSettings} {written : String} {settings : ScanSettings}
  {text : String}

/-- The settings of a scan: those that are given, else the root's own. -/
def settingsFor (disk : Disk) (root : Path) : Option ScanSettings → Except Failure ScanSettings
  | some settings => .ok settings
  | none => (ownSettings disk root).value

/-- The text of a root's ignore file, which is empty where there is none. -/
def IgnoreText (disk : Disk) (root : Path) (text : String) : Prop :=
  if disk.contains (root.child ignoreFileName) then
    disk.readLossy (root.child ignoreFileName) = .ok text
  else text = ""

/-- The rules of a scan: those of the ignore file, then those of the configured patterns. -/
def rulesFor (text : String) (settings : ScanSettings) : List IgnoreRule :=
  IgnoreRule.ofFile text ++ IgnoreRule.ofPatterns settings.excludePaths

theorem fileRules_eq {root : Path} (ignore : IgnoreText disk root text) :
    fileRules disk root = .ok (IgnoreRule.ofFile text) := by
  unfold IgnoreText at ignore
  unfold fileRules
  split at ignore
  · next isThere => simp [isThere, ignore]
  · next missing =>
    subst ignore
    simp [missing]
    rfl

/-- What a scan answers, without what it reports on the way. -/
theorem value_scan (disk : Disk) (given : Option ScanSettings) (written : String) :
    (scan disk given written).value =
      if !disk.contains (disk.resolve (Path.ofText written)) then .error (.projectNotFound written)
      else if !disk.isDirectory (disk.resolve (Path.ofText written)) then
        .error (.projectNotDirectory written)
      else match settingsFor disk (disk.resolve (Path.ofText written)) given,
          fileRules disk (disk.resolve (Path.ofText written)) with
        | .error e, _ => .error e
        | _, .error e => .error e
        | .ok settings, .ok rules => .ok ⟨disk.resolve (Path.ofText written),
          (listFiles disk (disk.resolve (Path.ofText written)) settings
            (rules ++ IgnoreRule.ofPatterns settings.excludePaths)).value⟩ := by
  unfold scan
  dsimp only
  split
  · rfl
  · split
    · rfl
    · cases given with
      | some settings =>
        rw [Logged.value_bind, Logged.value_pure, settingsFor]
        cases fileRules disk (disk.resolve (Path.ofText written)) <;> rfl
      | none =>
        rw [Logged.value_bind, settingsFor]
        cases (ownSettings disk (disk.resolve (Path.ofText written))).value <;>
          cases fileRules disk (disk.resolve (Path.ofText written)) <;> rfl

theorem scan_eq {root : Path} (isRoot : root = disk.resolve (Path.ofText written))
    (directory : disk.isDirectory root = true) (chosen : settingsFor disk root given = .ok settings)
    (ignore : IgnoreText disk root text) : (scan disk given written).value =
      .ok ⟨root, (listFiles disk root settings (rulesFor text settings)).value⟩ := by
  obtain ⟨entries, isTop⟩ := Disk.isDirectory_iff.mp directory
  have isThere : disk.contains root = true := Disk.contains_iff.mpr ⟨_, isTop⟩
  subst isRoot
  rw [value_scan, isThere, directory, chosen, fileRules_eq ignore]
  rfl

/-- A scan that gives a result lists the files below a directory, by its settings and rules. So what
is proved of `listFiles` holds of every scan. -/
theorem exists_of_scan {manifest : Manifest}
    (scanned : (scan disk given written).value = .ok manifest) :
    manifest.root = disk.resolve (Path.ofText written) ∧ disk.isDirectory manifest.root = true
      ∧ ∃ settings rules, settingsFor disk manifest.root given = .ok settings
        ∧ fileRules disk manifest.root = .ok rules
        ∧ manifest.files = (listFiles disk manifest.root settings
          (rules ++ IgnoreRule.ofPatterns settings.excludePaths)).value := by
  rw [value_scan] at scanned
  split at scanned
  · cases scanned
  · split at scanned
    · cases scanned
    · next directory =>
      split at scanned
      · cases scanned
      · cases scanned
      · next settings rules isSettings isRules =>
        cases scanned
        exact ⟨rfl, by simpa using directory, settings, rules, isSettings, isRules, rfl⟩

/-- A scan of a directory lists, by increasing path, exactly the eligible files below it. -/
theorem scan_lists_eligible {root : Path} (isRoot : root = disk.resolve (Path.ofText written))
    (wellFormed : disk.tree.WellFormed) (directory : disk.isDirectory root = true)
    (chosen : settingsFor disk root given = .ok settings) (ignore : IgnoreText disk root text) :
    ∃ manifest, (scan disk given written).value = .ok manifest ∧ manifest.root = root
      ∧ (manifest.files.map SourceEntry.path).Pairwise (· < ·)
      ∧ ∀ path, path ∈ manifest.files.map SourceEntry.path ↔
        ∃ directories file, path = relativePath (directories ++ [file])
          ∧ Eligible disk root settings (rulesFor text settings) directories file := by
  obtain ⟨entries, isTop⟩ := Disk.isDirectory_iff.mp directory
  obtain ⟨place, located, found⟩ := Disk.stat_eq_ok isTop
  exact ⟨_, scan_eq isRoot directory chosen ignore, rfl,
    pairwise_paths_listFiles wellFormed located ⟨entries, found⟩,
    fun path => mem_paths_listFiles wellFormed located ⟨entries, found⟩⟩

/-- The ignore file takes a rule back for one source. Another source is a link, in a directory that
holds a directory too deep to enter. -/
def prunedProject : Disk :=
  { tree := .directory [(".gitignore", .file "*.js\n!main.js\ngen/\n".toUTF8 0o644),
      ("main.js", .file ByteArray.empty 0o644), ("other.js", .file ByteArray.empty 0o644),
      ("gen", .directory [("a.tsx", .file ByteArray.empty 0o644)]),
      ("src", .directory [("B.TSX", .link ⟨"", ["..", "main.js"]⟩),
        ("c.d.ts", .file ByteArray.empty 0o644),
        ("deep", .directory [("d.tsx", .file ByteArray.empty 0o644)])]),
      ("sources", .link ⟨"", ["src"]⟩)]
    workingDirectory := ⟨"/", []⟩ }

/-- The source that a rule lets in again and the link are both listed. -/
theorem scan_lists_eligible_prunedProject :
    prunedProject.tree.WellFormed ∧ prunedProject.isDirectory ⟨"/", []⟩ = true
      ∧ IgnoreText prunedProject ⟨"/", []⟩ "*.js\n!main.js\ngen/\n"
      ∧ ∃ manifest, (scan prunedProject (some { maxDepth := 1 }) ".").value = .ok manifest
        ∧ (manifest.files.map SourceEntry.path).Pairwise (· < ·)
        ∧ "main.js" ∈ manifest.files.map SourceEntry.path
        ∧ "src/B.TSX" ∈ manifest.files.map SourceEntry.path := by
  have isRoot : ⟨"/", []⟩ = prunedProject.resolve (Path.ofText ".") := by decide +kernel
  have wellFormed : prunedProject.tree.WellFormed := by decide
  have directory : prunedProject.isDirectory ⟨"/", []⟩ = true := rfl
  have chosen :
      settingsFor prunedProject ⟨"/", []⟩ (some { maxDepth := 1 }) = .ok { maxDepth := 1 } :=
    rfl
  have ignore : IgnoreText prunedProject ⟨"/", []⟩ "*.js\n!main.js\ngen/\n" := by
    have isThere : prunedProject.contains (Path.child ⟨"/", []⟩ ignoreFileName) = true := rfl
    rw [IgnoreText, if_pos isThere]
    decide +kernel
  obtain ⟨manifest, scanned, -, increasing, listed⟩ :=
    scan_lists_eligible isRoot wellFormed directory chosen ignore
  refine ⟨wellFormed, directory, ignore, manifest, scanned, increasing, ?_, ?_⟩
  · exact (listed "main.js").mpr ⟨[], "main.js", by decide +kernel,
      { isFile := rfl
        unlinked := ⟨[], rfl, _, rfl⟩
        entered := entersAlong_iff.mp (Disk.entersAlong_nil _ _)
        admitted := isIgnored_eq_false_iff.mp (by decide +kernel)
        named := isSourceFile_iff.mp (by decide +kernel) }⟩
  · exact (listed "src/B.TSX").mpr ⟨["src"], "B.TSX", by decide +kernel,
      { isFile := rfl
        unlinked := ⟨[], rfl, _, rfl⟩
        entered := entersAlong_iff.mp
          (Disk.entersAlong_cons.mpr ⟨by decide +kernel, Disk.entersAlong_nil _ _⟩)
        admitted := isIgnored_eq_false_iff.mp (by decide +kernel)
        named := isSourceFile_iff.mp (by decide +kernel) }⟩

end Scans

end RenderProbe.Scan
