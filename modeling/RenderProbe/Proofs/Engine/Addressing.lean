import RenderProbe.Proofs.Config.Refusal
import RenderProbe.Proofs.Engine.Accounting
import RenderProbe.Proofs.Engine.Naming
import RenderProbe.Proofs.Engine.WrapFile
import RenderProbe.Proofs.Scan.Listing
import RenderProbe.Proofs.Text.Case

/-!
# What is reported can be addressed

A candidate that a scan reports carries the path it was read from, and its target is that path and
its name. A batch takes the target apart again and applies checks of its own to the path, all of
which it passes, so the wrap is tried in the very file that was read.

* `cutAtColons_eq_some_iff` and `splitTarget_join_iff`: when a target comes apart where it was
  joined.
* `mem_scanComponents`: what is known of the path and the name of a reported candidate.
* `reported_addressable`: its target leads to a wrap of its name in its file.
-/

namespace RenderProbe

/-! ## Targets -/

namespace Component

/-- What stands before two colons starts with a colon if it does so with the first of them behind
it. -/
theorem colon_prefix_iff {before after : List Char} :
    [':'] <+: before ++ [':'] ↔ ∃ rest, before ++ ':' :: ':' :: after = ':' :: rest := by
  cases before <;> simp [eq_comm]

/-- A text is cut at its first two colons: none stand together before them, nor with the first of
them. -/
theorem cutAtColons_eq_some_iff {text before after : List Char} :
    cutAtColons text = some (before, after) ↔
      text = before ++ ':' :: ':' :: after ∧ ¬ [':', ':'] <:+: before ++ [':'] := by
  fun_induction cutAtColons text generalizing before with
  | case1 rest =>
    constructor
    · intro cut
      cases cut
      exact ⟨rfl, by decide⟩
    · rintro ⟨joined, apart⟩
      cases before with
      | nil => simpa using joined
      | cons first more =>
        obtain ⟨rfl, more'⟩ := List.cons.inj joined
        have colon := colon_prefix_iff.mpr ⟨rest, more'.symm⟩
        exact absurd (List.cons_prefix_cons.mpr ⟨rfl, colon⟩).isInfix apart
  | case2 c rest notColons ih =>
    simp only [Option.map_eq_some_iff, Prod.exists, Prod.mk.injEq]
    constructor
    · rintro ⟨more, _, cut, rfl, rfl⟩
      obtain ⟨rfl, apart⟩ := ih.mp cut
      refine ⟨rfl, fun colons => ?_⟩
      rcases List.infix_cons_iff.mp colons with first | later
      · obtain ⟨rfl, colon⟩ := List.cons_prefix_cons.mp first
        obtain ⟨_, follows⟩ := colon_prefix_iff.mp colon
        exact notColons _ rfl follows
      · exact apart later
    · rintro ⟨joined, apart⟩
      cases before with
      | nil =>
        obtain ⟨rfl, rfl⟩ := List.cons.inj joined
        exact absurd rfl (notColons after rfl)
      | cons first more =>
        obtain ⟨rfl, rfl⟩ := List.cons.inj joined
        refine ⟨more, after, ih.mpr ⟨rfl, fun later => apart ?_⟩, rfl, rfl⟩
        exact List.infix_cons_iff.mpr (.inr later)
  | case3 => simp

theorem splitTarget_eq_iff {target path name : String} (named : name ≠ "") :
    splitTarget target = (path, some name) ↔
      cutAtColons target.toList = some (path.toList, name.toList) := by
  unfold splitTarget
  cases found : cutAtColons target.toList with
  | none => simp
  | some parts =>
    obtain ⟨file, rest⟩ := parts
    simp only [Prod.mk.injEq, Option.ite_none_left_eq_some, Option.some.injEq]
    constructor
    · rintro ⟨rfl, -, rfl⟩
      simp
    · rintro ⟨rfl, rfl⟩
      simp [named]

/-- A path and a name come apart where they were joined exactly if no two colons stand together
before that, also not with the first of the two. -/
theorem splitTarget_join_iff {path name : String} (named : name ≠ "") :
    splitTarget (path ++ "::" ++ name) = (path, some name) ↔
      ¬ "::".toList <:+: (path ++ ":").toList := by
  have joined : (path ++ "::" ++ name).toList = path.toList ++ ':' :: ':' :: name.toList := by simp
  rw [splitTarget_eq_iff named, joined, cutAtColons_eq_some_iff, String.toList_append]
  exact and_iff_right rfl

end Component

/-! ## Extensions -/

namespace Config

/-- Every one of the suffixes has a dot. -/
def Dotted (extensions : List String) : Prop :=
  ∀ extension ∈ extensions, '.' ∈ extension.toList

/-- Every suffix that a project is configured with has a dot. -/
theorem dotted_of_load {disk : Disk} {path : Path} {config : Config}
    (loaded : load disk path = .ok config) : Dotted config.scan.extensions :=
  fun extension configured =>
    ((usable_of_loadWith loaded).dotted extension configured).subset List.mem_cons_self

end Config

namespace Scan

variable {disk : Disk} {root : Path} {written : String} {settings : ScanSettings}
  {rules : List IgnoreRule} {extensions : List String} {file path : String}

/-- A path ends, whatever its case, with what its last name ends with. -/
theorem endsWithAny_relativePath (ends : endsWithAny extensions file = true)
    (directories : List String) :
    endsWithAny extensions (relativePath (directories ++ [file])) = true := by
  have suffix : (Text.lowercase file).toList <:+
      (Text.lowercase (relativePath (directories ++ [file]))).toList := by
    simp only [Text.lowercase, relativePath, Text.join, String.toList_ofList, List.map_append,
      List.map_cons, List.map_nil]
    by_cases top : directories = []
    · subst top
      exact List.suffix_refl _
    · rw [Text.joinFields_concat (by simpa using top)]
      exact Text.suffix_lowerFrom_append (by decide +kernel) _ _
  obtain ⟨extension, configured, isEnd⟩ := endsWithAny_iff.mp ends
  exact endsWithAny_iff.mpr ⟨extension, configured, isEnd.trans suffix⟩

/-- A path that ends with a suffix that has a dot is not blank. -/
theorem trimBlanks_ne_nil_of_endsWithAny (dotted : Config.Dotted extensions)
    (ends : endsWithAny extensions path = true) : Text.trimBlanks path.toList ≠ [] := by
  obtain ⟨extension, configured, isEnd⟩ := endsWithAny_iff.mp ends
  have isMember := isEnd.subset (dotted extension configured)
  rw [Text.lowercase, String.toList_ofList] at isMember
  exact Text.trimBlanks_ne_nil_of_mem isMember (by decide)

theorem manifest_of_scan {manifest : Manifest}
    (scanned : (scan disk (some settings) written).value = .ok manifest) :
    manifest.root = disk.resolve (Path.ofText written)
      ∧ ∃ rules, manifest.files = (listFiles disk manifest.root settings rules).value := by
  obtain ⟨isRoot, -, _, rules, chosen, -, files⟩ := exists_of_scan scanned
  cases chosen
  exact ⟨isRoot, _, files⟩

theorem endsWithAny_of_mem_listFiles {entry : SourceEntry}
    (isListed : entry ∈ (listFiles disk root settings rules).value) :
    endsWithAny settings.extensions entry.path = true := by
  have listed : entry.path ∈ (listFiles disk root settings rules).value.map SourceEntry.path :=
    List.mem_map_of_mem isListed
  rw [(paths_listFiles_perm disk root settings rules).mem_iff] at listed
  obtain ⟨names, isFound, isPath⟩ := List.mem_map.mp listed
  obtain ⟨visit, -, inVisit⟩ := List.mem_flatMap.mp (List.mem_filter.mp isFound).1
  obtain ⟨file, -, rfl, lists⟩ := mem_listedIn_iff.mp inVisit
  have isSource := isSourceFile_iff.mpr (listsAt_iff.mp lists).1
  rw [isSourceFile, Bool.and_eq_true] at isSource
  rw [← isPath]
  exact endsWithAny_relativePath isSource.2 visit.below

end Scan

namespace Engine

/-! ## Reported candidates -/

section Reported

variable {engine : Engine} {disk : Disk} {root text fileName : String}
  {candidate : Component.Candidate} {found : List Component.Candidate}

/-- A component has a name. -/
theorem name_ne_empty_of_mem_candidates
    (isCandidate : candidate ∈ engine.candidates text fileName) :
    candidate.name ≠ "" := by
  obtain ⟨first, rest, isName, -⟩ :=
    (engine.names_of_candidates text fileName).2 candidate isCandidate
  intro empty
  simp [empty] at isName

/-- A candidate of a listed source has the path that the source was read from. -/
theorem mem_componentsOf {base : Path} {entry : Scan.SourceEntry}
    (isCandidate : candidate ∈ (engine.componentsOf disk base entry).value) :
    candidate.path = some entry.path ∧ candidate.name ≠ ""
      ∧ disk.isFile (base.under (Path.ofText entry.path)) = true := by
  unfold componentsOf at isCandidate
  split at isCandidate
  · cases isCandidate
  · split at isCandidate
    · cases isCandidate
    · next source read =>
      obtain ⟨detected, isDetected, rfl⟩ := List.mem_map.mp isCandidate
      have named : detected.name ≠ "" := name_ne_empty_of_mem_candidates isDetected
      obtain ⟨content, mode, isFile, -⟩ := stat_of_read read
      exact ⟨rfl, named, Disk.isFile_iff.mpr ⟨content, mode, isFile⟩⟩

theorem mem_componentsOfAll {base : Path} {entries : List Scan.SourceEntry}
    (isCandidate : candidate ∈ (engine.componentsOfAll disk base entries).value) :
    ∃ entry ∈ entries, candidate ∈ (engine.componentsOf disk base entry).value := by
  induction entries with
  | nil => cases isCandidate
  | cons entry rest ih =>
    rcases List.mem_append.mp isCandidate with first | later
    · exact ⟨entry, List.mem_cons_self, first⟩
    · obtain ⟨entry, isEntry, isCandidate⟩ := ih later
      exact ⟨entry, List.mem_cons_of_mem _ isEntry, isCandidate⟩

theorem forProject_eq_ok {base : Path} (configured : forProject disk base = .ok engine) :
    ∃ config, Config.load disk base = .ok config ∧ engine = ⟨some config⟩ := by
  unfold forProject at configured
  cases loaded : Config.load disk base with
  | error e =>
    rw [loaded] at configured
    cases configured
  | ok config =>
    rw [loaded] at configured
    cases configured
    exact ⟨config, rfl, rfl⟩

/-- What is known of the path and the name of a reported candidate: the path was listed and leads to
a file, and the name is not empty. -/
theorem mem_scanComponents (configured : forProject disk (Path.ofText root) = .ok engine)
    (scanned : (engine.scanComponents disk root).value = .ok found)
    (isCandidate : candidate ∈ found) :
    ∃ path, candidate.path = some path ∧ candidate.name ≠ ""
      ∧ Scan.endsWithAny engine.extensions path = true
      ∧ Text.trimBlanks path.toList ≠ []
      ∧ disk.isFile ((disk.resolve (Path.ofText root)).under (Path.ofText path)) = true := by
  obtain ⟨config, loaded, rfl⟩ := forProject_eq_ok configured
  rw [scanComponents, Logged.value_bind] at scanned
  split at scanned
  · cases scanned
  · next manifest isManifest =>
    cases scanned
    obtain ⟨isRoot, rules, files⟩ := Scan.manifest_of_scan isManifest
    obtain ⟨entry, isEntry, isCandidate⟩ := mem_componentsOfAll isCandidate
    obtain ⟨isPath, named, isFile⟩ := mem_componentsOf isCandidate
    rw [files] at isEntry
    rw [isRoot] at isFile
    have ends := Scan.endsWithAny_of_mem_listFiles isEntry
    exact ⟨entry.path, isPath, named, ends,
      Scan.trimBlanks_ne_nil_of_endsWithAny (Config.dotted_of_load loaded) ends, isFile⟩

end Reported

/-! ## Wraps of reported candidates -/

section Addressed

variable {engine : Engine} {disk : Disk} {scope : BatchScope} {target path name : String}

/-- A target whose path passes every check is wrapped in the file that it names. No search is made
then, so the name cannot lead to another file. -/
theorem wrapTarget_eq_wrapIn (split : Component.splitTarget target = (path, some name))
    (notBlank : Text.trimBlanks path.toList ≠ [])
    (ends : Scan.endsWithAny scope.extensions path = true)
    (isFile : disk.isFile (scope.root.under (Path.ofText path)) = true) (report : BatchReport) :
    engine.wrapTarget scope target disk report =
      engine.wrapIn scope target name (scope.root.under (Path.ofText path)) disk report := by
  have plan : TargetPlan.ofTarget scope.extensions target = .wrap path name := by
    simp [TargetPlan.ofTarget, split, notBlank, ends]
  have file : fileFor disk scope path name = pure (some (scope.root.under (Path.ofText path))) := by
    simp [fileFor, isFile]
  simp only [wrapTarget, plan, file]
  rfl

theorem value_wrapComponents_single (engine : Engine) (disk : Disk) (root : Path) (target : String)
    (options : WrapOptions) : (engine.wrapComponents disk root [target] options).value =
      (engine.wrapTarget (engine.scopeFor disk root options) target disk {}).value := by
  have batch : (engine.wrapComponents disk root [target] options).value =
    (engine.wrapTargets (engine.scopeFor disk root options) [target] disk {}).value := rfl
  rw [batch, wrapTargets, Logged.value_bind]
  cases (engine.wrapTarget (engine.scopeFor disk root options) target disk {}).value
  rfl

/-- The target of a reported candidate comes apart into its path and its name unless two colons
stand together in the path, or one at its end. Then a batch takes the file at the path below the
root, without a search, and reports what comes of wrapping the name in it. -/
theorem reported_addressable {root : String} {found : List Component.Candidate}
    {candidate : Component.Candidate} (configured : forProject disk (Path.ofText root) = .ok engine)
    (scanned : (engine.scanComponents disk root).value = .ok found)
    (isCandidate : candidate ∈ found) :
    ∃ path, candidate.path = some path
      ∧ (Component.splitTarget candidate.target = (path, some candidate.name) ↔
        ¬ "::".toList <:+: (path ++ ":").toList)
      ∧ (¬ "::".toList <:+: (path ++ ":").toList → ∀ options,
        let scope := engine.scopeFor disk (Path.ofText root) options
        let file := (disk.resolve (Path.ofText root)).under (Path.ofText path)
        (∀ report, engine.wrapTarget scope candidate.target disk report =
          engine.wrapIn scope candidate.target candidate.name file disk report)
        ∧ (engine.wrapComponents disk (Path.ofText root) [candidate.target] options).value =
          let (ending, after) := TargetEnd.ofAnswer
            (engine.wrapComponent disk scope.root file candidate.name options).value
          (ending.note {} candidate.target, after)) := by
  obtain ⟨path, isPath, named, ends, notBlank, isFile⟩ :=
    mem_scanComponents configured scanned isCandidate
  have isTarget : candidate.target = path ++ "::" ++ candidate.name := by
    have nonempty : path ≠ "" := by
      rintro rfl
      exact notBlank rfl
    simp only [Component.Candidate.target, isPath, beq_iff_eq, nonempty, if_false]
    rfl
  have split : Component.splitTarget candidate.target = (path, some candidate.name) ↔
      ¬ "::".toList <:+: (path ++ ":").toList := by
    rw [isTarget]
    exact Component.splitTarget_join_iff named
  refine ⟨path, isPath, split, fun apart options => ?_⟩
  have tried : ∀ report, engine.wrapTarget (engine.scopeFor disk (Path.ofText root) options)
      candidate.target disk report
        = engine.wrapIn _ candidate.target candidate.name _ disk report :=
    wrapTarget_eq_wrapIn (split.mpr apart) notBlank ends isFile
  refine ⟨tried, ?_⟩
  rw [value_wrapComponents_single, tried]
  exact value_wrapIn ..

/-- A project with one source, which has a colon in its name. -/
def colonProject : Disk :=
  { tree := .directory [("src", .directory [("a:b.tsx", .file "export default A\n".toUTF8 0o644)])]
    workingDirectory := ⟨"/", []⟩ }

/-- The engine for the project, which has no configuration of its own. -/
def colonEngine : Engine :=
  ⟨some { root := ⟨"/", []⟩ }⟩

/-- The one component of the project. -/
def colonCandidate : Component.Candidate :=
  { name := "A", kind := .reference, exportKind := .default, path := some "src/a:b.tsx" }

theorem listFiles_colonProject : (Scan.listFiles colonProject ⟨"/", []⟩ {} []).value =
    [⟨"src/a:b.tsx", 17, Dialect.ofFileName "b.tsx"⟩] := by
  -- Sorting does not compute by itself; here it has one thing to sort each time.
  have walk : colonProject.walk ⟨"/", []⟩ (Scan.entersAt {} []) =
      [⟨[], []⟩, ⟨["src"], ["a:b.tsx"]⟩] := by
    have top : colonProject.stat ⟨"/", []⟩ = .ok colonProject.tree := rfl
    have enters : Scan.entersAt {} [] ["src"] = true := by decide +kernel
    rw [Disk.walk, top]
    simp [colonProject, Disk.visits, Disk.subvisits, Entry.isDirectory, Disk.fileNames, enters]
  have entries : ([⟨[], []⟩, ⟨["src"], ["a:b.tsx"]⟩].flatMap (Scan.listedIn {} [])).filterMap
      (fun names => (Scan.entryAt colonProject ⟨"/", []⟩ names).toOption) =
        [⟨"src/a:b.tsx", 17, Dialect.ofFileName "b.tsx"⟩] := by
    decide +kernel
  rw [Scan.listFiles, walk]
  dsimp only
  rw [entries, List.mergeSort_singleton]

theorem scanComponents_colonProject :
    (colonEngine.scanComponents colonProject ".").value = .ok [colonCandidate] := by
  have isRoot : ⟨"/", []⟩ = colonProject.resolve (Path.ofText ".") := by decide +kernel
  have ignore : Scan.IgnoreText colonProject ⟨"/", []⟩ "" := by
    have missing : colonProject.contains (Path.child ⟨"/", []⟩ Scan.ignoreFileName) = false := rfl
    simp [Scan.IgnoreText, missing]
  have rules : Scan.rulesFor "" {} = [] := rfl
  have scanned : (Scan.scan colonProject (some {}) ".").value =
      .ok ⟨⟨"/", []⟩, [⟨"src/a:b.tsx", 17, Dialect.ofFileName "b.tsx"⟩]⟩ := by
    rw [Scan.scan_eq isRoot rfl rfl ignore, rules, listFiles_colonProject]
  have components : (colonEngine.componentsOfAll colonProject ⟨"/", []⟩
      [⟨"src/a:b.tsx", 17, Dialect.ofFileName "b.tsx"⟩]).value = [colonCandidate] := by
    decide +kernel
  have settings : colonEngine.config.map (·.scan) = some {} := rfl
  rw [scanComponents, Logged.value_bind, settings, scanned]
  exact congrArg Except.ok components

/-- The one component is addressed by its path, with the colon in it. -/
theorem reported_addressable_colonProject :
    forProject colonProject (Path.ofText ".") = .ok colonEngine
      ∧ (colonEngine.scanComponents colonProject ".").value = .ok [colonCandidate]
      ∧ colonCandidate.target = "src/a:b.tsx::A"
      ∧ ∀ options report,
        colonEngine.wrapTarget (colonEngine.scopeFor colonProject (Path.ofText ".") options)
            colonCandidate.target colonProject report =
          colonEngine.wrapIn (colonEngine.scopeFor colonProject (Path.ofText ".") options)
            colonCandidate.target "A" ⟨"/", ["src", "a:b.tsx"]⟩ colonProject report := by
  have configured : forProject colonProject (Path.ofText ".") = .ok colonEngine := by
    have loaded : Config.load colonProject (Path.ofText ".") = .ok { root := ⟨"/", []⟩ } := by
      decide +kernel
    rw [forProject, loaded]
    rfl
  have file : (colonProject.resolve (Path.ofText ".")).under (Path.ofText "src/a:b.tsx") =
      ⟨"/", ["src", "a:b.tsx"]⟩ := by decide +kernel
  obtain ⟨path, isPath, -, addressed⟩ :=
    reported_addressable configured scanComponents_colonProject List.mem_cons_self
  cases isPath
  refine ⟨configured, scanComponents_colonProject, by decide +kernel, fun options => ?_⟩
  rw [← file]
  exact (addressed (by decide +kernel) options).1

end Addressed

end Engine

end RenderProbe
