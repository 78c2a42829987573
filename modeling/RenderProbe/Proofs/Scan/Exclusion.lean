import RenderProbe.Proofs.Scan.Listing

/-!
# Rules that keep paths out

The last rule that matches a path decides, so one more rule that keeps paths out, wherever it
stands, never lets one in. A scan goes by the rules for every directory on the way and for the file
itself, so it lists no more than before.

* `isIgnored_insert`: one more excluding rule.
* `not_accepts_of_admits`: where only excluding rules come last, none of them matches what is let
  in.
* `excluding_lists_less`: what that means for the files that are listed.
-/

namespace RenderProbe.Scan

/-! ## Rules -/

section Rules

variable {before after rules excluding : List IgnoreRule} {rule : IgnoreRule} {path : String}
  {isDirectory : Bool}

/-- One more excluding rule keeps out what was kept out. The rules behind it may still let a path in
again, and do so with it as without it. -/
theorem isIgnored_insert (excludes : rule.negate = false)
    (ignored : isIgnored (before ++ after) path isDirectory = true) :
    isIgnored (before ++ rule :: after) path isDirectory = true := by
  induction after using List.reverseRecOn with
  | nil =>
    rw [List.append_nil] at ignored
    rw [isIgnored_concat, excludes, ignored]
    simp
  | append_singleton after last ih =>
    rw [← List.append_assoc, isIgnored_concat] at ignored
    rw [← List.cons_append, ← List.append_assoc, isIgnored_concat]
    cases matched : last.accepts path isDirectory with
    | true => simpa [matched] using ignored
    | false => simpa [matched] using ih (by simpa [matched] using ignored)

/-- Behind the last rules that only exclude no negated rule lets a path in again. -/
theorem not_accepts_of_admits (excludes : ∀ rule ∈ excluding, rule.negate = false)
    (admits : Admits (rules ++ excluding) path isDirectory) :
    ∀ rule ∈ excluding, rule.accepts path isDirectory = false := by
  induction excluding using List.reverseRecOn with
  | nil => exact nofun
  | append_singleton excluding last ih =>
    simp only [List.forall_mem_append, List.forall_mem_singleton] at excludes ⊢
    rw [← List.append_assoc] at admits
    cases matched : last.accepts path isDirectory with
    | true =>
      have negated := (admits_concat_of_accepts matched).mp admits
      rw [excludes.2] at negated
      cases negated
    | false => exact ⟨ih excludes.1 ((admits_concat_of_not_accepts matched).mp admits), rfl⟩

theorem negate_of_ofPattern? {text : List Char} {negate : Bool}
    (isRule : IgnoreRule.ofPattern? text negate = some rule) : rule.negate = negate := by
  unfold IgnoreRule.ofPattern? at isRule
  dsimp only at isRule
  split at isRule
  · cases isRule
  · cases isRule
    rfl

/-- Configured patterns only exclude, whatever they are. -/
theorem negate_of_mem_ofPatterns {patterns : List String}
    (isRule : rule ∈ IgnoreRule.ofPatterns patterns) :
    rule.negate = false := by
  obtain ⟨pattern, -, isRule⟩ := List.mem_filterMap.mp isRule
  exact negate_of_ofPattern? isRule

end Rules

/-! ## Listed files -/

section Listed

variable {disk : Disk} {root : Path} {settings : ScanSettings}
  {before after rules : List IgnoreRule} {rule : IgnoreRule}
  {names : List String} {entry : SourceEntry}

theorem entersAt_of_insert (excludes : rule.negate = false)
    (enters : entersAt settings (before ++ rule :: after) names = true) :
    entersAt settings (before ++ after) names = true := by
  simp only [entersAt, Bool.and_eq_true, Bool.not_eq_true'] at enters ⊢
  refine ⟨enters.1, Bool.eq_false_iff.mpr fun ignored => ?_⟩
  rw [isIgnored_insert excludes ignored] at enters
  exact absurd enters.2 (by decide)

theorem listsAt_of_insert (excludes : rule.negate = false)
    (lists : listsAt settings (before ++ rule :: after) names = true) :
    listsAt settings (before ++ after) names = true := by
  simp only [listsAt, Bool.and_eq_true, Bool.not_eq_true'] at lists ⊢
  refine ⟨lists.1, Bool.eq_false_iff.mpr fun ignored => ?_⟩
  rw [isIgnored_insert excludes ignored] at lists
  exact absurd lists.2 (by decide)

/-- With one more excluding rule, nothing is found that was not found before. Fewer directories are
entered, and fewer files are listed in each of them. -/
theorem foundIn_insert_subset (disk : Disk) (root : Path) (settings : ScanSettings)
    (before after : List IgnoreRule) (excludes : rule.negate = false) :
    foundIn disk root settings (before ++ rule :: after)
      ⊆ foundIn disk root settings (before ++ after) := by
  intro names isFound
  obtain ⟨visit, isVisit, isListed⟩ := List.mem_flatMap.mp isFound
  obtain ⟨file, isFile, isNames, lists⟩ := mem_listedIn_iff.mp isListed
  have visited := Disk.walk_subset disk root (fun _ => entersAt_of_insert excludes) isVisit
  have listed := mem_listedIn_iff.mpr ⟨file, isFile, isNames, listsAt_of_insert excludes lists⟩
  exact List.mem_flatMap.mpr ⟨visit, visited, listed⟩

theorem mem_listFiles_iff : entry ∈ (listFiles disk root settings rules).value ↔
    ∃ names ∈ foundIn disk root settings rules, entryAt disk root names = .ok entry := by
  have found (names : List String) :
      (entryAt disk root names).toOption = some entry ↔ entryAt disk root names = .ok entry := by
    cases entryAt disk root names <;> simp [Except.toOption]
  simp only [listFiles, List.mem_mergeSort, List.mem_filterMap, found]
  rfl

/-- What a scan lists lies below no directory that one of the last excluding rules matches, and
matches none of them itself. -/
theorem not_accepts_of_eligible {excluding : List IgnoreRule} {directories : List String}
    {file : String} (excludes : ∀ rule ∈ excluding, rule.negate = false)
    (eligible : Eligible disk root settings (rules ++ excluding) directories file)
    (plain : ∀ name ∈ directories ++ [file], '/' ∉ name.toList) (isRule : rule ∈ excluding) :
    rule.accepts (relativePath (directories ++ [file])) false = false
      ∧ ∀ directory, Text.IsAbove '/' directory (relativePath (directories ++ [file])) →
        rule.accepts directory true = false := by
  refine ⟨not_accepts_of_admits excludes eligible.admitted rule isRule, fun directory isAbove => ?_⟩
  obtain ⟨parts, others, nonempty, more, isSplit, rfl⟩ := Text.isAbove_iff.mp isAbove
  rw [relativePath, Text.split_join (by simp) plain] at isSplit
  have isPart : parts <+: directories := by
    obtain ⟨most, last, rfl⟩ := List.eq_nil_or_concat others |>.resolve_left more
    rw [List.concat_eq_append, ← List.append_assoc] at isSplit
    exact ⟨most, (List.append_inj' isSplit rfl).1.symm⟩
  exact not_accepts_of_admits excludes (eligible.entered.admitted parts nonempty isPart) rule isRule

end Listed

/-! ## Scans -/

section Scans

variable {disk : Disk}

/-- One more excluding rule at any place makes a scan list no file that it did not list before. So
no file is listed that a configured pattern matches, or that lies below a directory that one
matches, whatever the ignore file lets in again. -/
theorem excluding_lists_less (disk : Disk) :
    (∀ root settings before rule after, rule.negate = false →
      (listFiles disk root settings (before ++ rule :: after)).value ⊆
        (listFiles disk root settings (before ++ after)).value)
      ∧ ∀ given written manifest settings, disk.tree.WellFormed →
        (scan disk given written).value = .ok manifest →
        settingsFor disk manifest.root given = .ok settings →
        ∀ rule ∈ IgnoreRule.ofPatterns settings.excludePaths, ∀ entry ∈ manifest.files,
          rule.accepts entry.path false = false
            ∧ ∀ directory, Text.IsAbove '/' directory entry.path →
              rule.accepts directory true = false := by
  refine ⟨fun root settings before rule after excludes entry isListed => ?_,
    fun given written manifest settings wellFormed scanned chosen rule isRule entry isListed => ?_⟩
  · obtain ⟨names, isFound, isEntry⟩ := mem_listFiles_iff.mp isListed
    have found := foundIn_insert_subset disk root settings before after excludes isFound
    exact mem_listFiles_iff.mpr ⟨names, found, isEntry⟩
  · obtain ⟨-, directory, _, rules, chosen', -, files⟩ := exists_of_scan scanned
    cases chosen.symm.trans chosen'
    obtain ⟨entries, isTop⟩ := Disk.isDirectory_iff.mp directory
    obtain ⟨place, located, found⟩ := Disk.stat_eq_ok isTop
    rw [files] at isListed
    obtain ⟨directories, file, isPath, eligible⟩ :=
      (mem_paths_listFiles wellFormed located ⟨entries, found⟩).mp (List.mem_map_of_mem isListed)
    have isFound :=
      ((mem_foundIn_iff wellFormed located ⟨entries, found⟩).mpr ⟨_, _, rfl, eligible⟩).1
    have proper := (isEntryName_of_mem_foundIn wellFormed located ⟨entries, found⟩ isFound).2
    rw [isPath]
    exact not_accepts_of_eligible (fun rule => negate_of_mem_ofPatterns) eligible
      (fun name isMember => (proper name isMember).whole) isRule

/-- What is excluded from the pruned project: a source that the ignore file lets in again, and a
directory. -/
def excludingSettings : ScanSettings :=
  { excludePaths := ["main.js", "src/deep/"] }

/-- The rule for the directory. -/
def deepRule : IgnoreRule :=
  ⟨"src/deep", true, false, false, true⟩

/-- A source beside the excluded directory is still listed. -/
theorem excluding_lists_less_prunedProject :
    prunedProject.tree.WellFormed ∧ deepRule ∈ IgnoreRule.ofPatterns excludingSettings.excludePaths
      ∧ (listFiles prunedProject ⟨"/", []⟩ excludingSettings ([] ++ deepRule :: [])).value ⊆
        (listFiles prunedProject ⟨"/", []⟩ excludingSettings ([] ++ [])).value
      ∧ ∃ manifest, (scan prunedProject (some excludingSettings) ".").value = .ok manifest
        ∧ "src/B.TSX" ∈ manifest.files.map SourceEntry.path
        ∧ ∀ entry ∈ manifest.files, deepRule.accepts entry.path false = false
          ∧ ∀ directory, Text.IsAbove '/' directory entry.path →
            deepRule.accepts directory true = false := by
  have isRoot : ⟨"/", []⟩ = prunedProject.resolve (Path.ofText ".") := by decide +kernel
  have wellFormed : prunedProject.tree.WellFormed := by decide
  have directory : prunedProject.isDirectory ⟨"/", []⟩ = true := rfl
  have ignore : IgnoreText prunedProject ⟨"/", []⟩ "*.js\n!main.js\ngen/\n" := by
    have isThere : prunedProject.contains (Path.child ⟨"/", []⟩ ignoreFileName) = true := rfl
    rw [IgnoreText, if_pos isThere]
    decide +kernel
  have isRule : deepRule ∈ IgnoreRule.ofPatterns excludingSettings.excludePaths := by decide +kernel
  have chosen :
      settingsFor prunedProject ⟨"/", []⟩ (some excludingSettings) = .ok excludingSettings := rfl
  have scanned := scan_eq isRoot directory chosen ignore
  have listed :=
    (mem_paths_listFiles wellFormed (rfl : prunedProject.locate ⟨"/", []⟩ = .ok []) ⟨_, rfl⟩).mpr
    ⟨["src"], "B.TSX", rfl,
      { isFile := rfl
        unlinked := ⟨[], rfl, _, rfl⟩
        entered := entersAlong_iff.mp
          (Disk.entersAlong_cons.mpr ⟨by decide +kernel, Disk.entersAlong_nil _ _⟩)
        admitted := isIgnored_eq_false_iff.mp (by decide +kernel)
        named := isSourceFile_iff.mp (by decide +kernel) :
          Eligible prunedProject ⟨"/", []⟩ excludingSettings
          (rulesFor "*.js\n!main.js\ngen/\n" excludingSettings) ["src"] "B.TSX" }⟩
  have isPath : relativePath (["src"] ++ ["B.TSX"]) = "src/B.TSX" := by decide +kernel
  obtain ⟨fewer, keptOut⟩ := excluding_lists_less prunedProject
  exact ⟨wellFormed, isRule, fewer _ _ _ _ _ rfl, _, scanned, isPath ▸ listed,
    keptOut _ _ _ _ wellFormed scanned chosen deepRule isRule⟩

end Scans

end RenderProbe.Scan
