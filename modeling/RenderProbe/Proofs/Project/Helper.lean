import Mathlib.Data.Nat.Find
import RenderProbe.Project.Helper
import RenderProbe.Proofs.Project.Files

/-!
# Which helper is found

The helper of a wrapper is the first file of its name that mentions it, in the nearest app package
above the component or, if that has none, in the workspace.

* `isAppPackage_iff` and `isHelper_iff`: what a package and what a helper is.
* `nearestApp_eq_some_iff`: the nearest package on the way up, within ten directories.
* `findHelper_nearest_first`: the helper that is found.
-/

namespace RenderProbe.Project

/-! ## Packages -/

/-- The manifest of a directory lists the framework among its dependencies, of either kind. -/
def DeclaresFramework (disk : Disk) (directory : Path) : Prop :=
  ∃ text manifest, disk.readText (directory.child "package.json") = .ok text
    ∧ Json.parse text.toList = .ok manifest
    ∧ ∃ kind ∈ ["dependencies", "devDependencies"], ∃ members,
      manifest.member? kind = some (.object members) ∧ "react-native" ∈ members.map Prod.fst

/-- The directory that is met after some steps up from another: so many of its last names are
gone. -/
def metAbove (directory : Path) (steps : Nat) : Path :=
  { directory with names := directory.names.take (directory.names.length - steps) }

/-- Where the search for the helper of a component in a directory starts: at the nearest package
among the first ten directories on the way up, or at the workspace if none of them is one. -/
inductive StartsAt (disk : Disk) (workspace directory : Path) : Path → Prop
  | package {steps : Nat} : steps < 10 → DeclaresFramework disk (metAbove directory steps) →
    (∀ fewer < steps, ¬ DeclaresFramework disk (metAbove directory fewer)) →
    StartsAt disk workspace directory (metAbove directory steps)
  | workspace : (∀ steps < 10, ¬ DeclaresFramework disk (metAbove directory steps)) →
    StartsAt disk workspace directory workspace

section Packages

variable {disk : Disk} {directory found : Path} {rounds : Nat}

theorem hasMember_iff {name : String} {value : Json} : Json.hasMember name value = true ↔
    ∃ members, value = .object members ∧ name ∈ members.map Prod.fst := by
  cases value <;> simp [Json.hasMember]

theorem dependsOnFramework_iff {manifest : Json} : dependsOnFramework manifest = true ↔
    ∃ kind ∈ ["dependencies", "devDependencies"], ∃ members,
      manifest.member? kind = some (.object members) ∧ "react-native" ∈ members.map Prod.fst := by
  simp only [dependsOnFramework, List.any_eq_true, Option.any_eq_true, hasMember_iff, framework]
  refine exists_congr fun kind => and_congr_right fun _ => ?_
  constructor
  · rintro ⟨value, isMember, members, rfl, named⟩
    exact ⟨members, isMember, named⟩
  · rintro ⟨members, isMember, named⟩
    exact ⟨_, isMember, members, rfl, named⟩

theorem readManifest_eq_ok {path : Path} {manifest : Json} : readManifest disk path = .ok manifest ↔
    ∃ text, disk.readText path = .ok text ∧ Json.parse text.toList = .ok manifest := by
  unfold readManifest
  cases read : disk.readText path with
  | error e => cases e <;> simp
  | ok text => cases parsed : Json.parse text.toList <;> simp [parsed]

/-- A directory is an app package if its manifest can be read and declares the framework. -/
theorem isAppPackage_iff :
    isAppPackage disk directory = true ↔ DeclaresFramework disk directory := by
  unfold isAppPackage DeclaresFramework
  constructor
  · intro isPackage
    split at isPackage
    · next manifest found =>
      obtain ⟨text, read, parsed⟩ := readManifest_eq_ok.mp found
      exact ⟨text, manifest, read, parsed, dependsOnFramework_iff.mp isPackage⟩
    · cases isPackage
  · rintro ⟨text, manifest, read, parsed, depends⟩
    have found : readManifest disk (directory.child manifestName) = .ok manifest :=
      readManifest_eq_ok.mpr ⟨text, read, parsed⟩
    rw [found]
    exact dependsOnFramework_iff.mpr depends

theorem metAbove_zero (directory : Path) : metAbove directory 0 = directory := by
  simp [metAbove]

theorem metAbove_parent (directory : Path) (steps : Nat) :
    metAbove directory.parent steps = metAbove directory (steps + 1) := by
  simp only [metAbove, Path.parent, List.dropLast_eq_take, List.take_take, List.length_take]
  congr 2
  omega

theorem metAbove_of_parent_eq (top : directory.parent = directory) (steps : Nat) :
    metAbove directory steps = directory := by
  induction steps with
  | zero => exact metAbove_zero directory
  | succ steps ih => rw [← metAbove_parent, top, ih]

theorem value_nearestApp_succ (disk : Disk) (rounds : Nat) (directory : Path) :
    (nearestApp disk (rounds + 1) directory).value =
      if isAppPackage disk directory then some directory
      else if directory.parent == directory then none
      else (nearestApp disk rounds directory.parent).value := by
  rw [nearestApp, Logged.value_bind]
  split
  · rfl
  · split <;> rfl

/-- The package that is found is the first on the way up. By induction on the number of directories,
with one step up for each. -/
theorem nearestApp_eq_some_iff : (nearestApp disk rounds directory).value = some found ↔
    ∃ steps < rounds, found = metAbove directory steps ∧ DeclaresFramework disk found
      ∧ ∀ fewer < steps, ¬ DeclaresFramework disk (metAbove directory fewer) := by
  induction rounds generalizing directory with
  | zero =>
    refine iff_of_false nofun ?_
    rintro ⟨steps, lt, -⟩
    exact absurd lt (Nat.not_lt_zero _)
  | succ rounds ih =>
    rw [value_nearestApp_succ]
    split
    · next isPackage =>
      have declares := isAppPackage_iff.mp isPackage
      rw [Option.some.injEq]
      constructor
      · rintro rfl
        exact ⟨0, Nat.succ_pos _, (metAbove_zero _).symm, declares, nofun⟩
      · rintro ⟨steps, -, rfl, -, none⟩
        cases steps with
        | zero => exact (metAbove_zero _).symm
        | succ steps =>
          have absent := none 0 (Nat.succ_pos _)
          rw [metAbove_zero] at absent
          exact absurd declares absent
    · next noPackage =>
      have absent : ¬ DeclaresFramework disk directory := fun declares =>
        noPackage (isAppPackage_iff.mpr declares)
      split
      · next isTop =>
        refine iff_of_false nofun ?_
        rintro ⟨steps, -, rfl, declares, -⟩
        rw [metAbove_of_parent_eq (eq_of_beq isTop)] at declares
        exact absent declares
      · rw [ih]
        simp only [metAbove_parent]
        constructor
        · rintro ⟨steps, lt, isFound, declares, none⟩
          refine ⟨steps + 1, Nat.succ_lt_succ lt, isFound, declares, fun fewer less => ?_⟩
          cases fewer with
          | zero => rwa [metAbove_zero]
          | succ fewer => exact none fewer (Nat.lt_of_succ_lt_succ less)
        · rintro ⟨steps, lt, rfl, declares, none⟩
          cases steps with
          | zero =>
            rw [metAbove_zero] at declares
            exact absurd declares absent
          | succ steps =>
            exact ⟨steps, Nat.lt_of_succ_lt_succ lt, rfl, declares,
              fun fewer less => none (fewer + 1) (Nat.succ_lt_succ less)⟩

/-- The search starts at the package that is found, or at the workspace. -/
theorem startsAt_getD (disk : Disk) (workspace directory : Path) : StartsAt disk workspace directory
    ((nearestApp disk parentLimit directory).value.getD workspace) := by
  cases nearest : (nearestApp disk parentLimit directory).value with
  | some found =>
    obtain ⟨steps, lt, rfl, declares, none⟩ := nearestApp_eq_some_iff.mp nearest
    exact .package lt declares none
  | none =>
    refine .workspace fun steps lt declares => ?_
    classical
    have isSome : ∃ steps, steps < 10 ∧ DeclaresFramework disk (metAbove directory steps) :=
      ⟨steps, lt, declares⟩
    obtain ⟨lt, declares⟩ := Nat.find_spec isSome
    have found : (nearestApp disk parentLimit directory).value =
        some (metAbove directory (Nat.find isSome)) := by
      refine nearestApp_eq_some_iff.mpr ⟨_, lt, rfl, declares, fun fewer less declares' => ?_⟩
      exact Nat.find_min isSome less ⟨Nat.lt_trans less lt, declares'⟩
    rw [nearest] at found
    cases found

/-- There is one place to start at, so the two cases of a search do not overlap. -/
theorem StartsAt.unique {workspace start other : Path}
    (starts : StartsAt disk workspace directory start)
    (starts' : StartsAt disk workspace directory other) : start = other := by
  cases starts with
  | @package steps lt declares none =>
    cases starts' with
    | @package steps' lt' declares' none' =>
      rcases Nat.lt_trichotomy steps steps' with less | same | more
      · exact absurd declares (none' steps less)
      · rw [same]
      · exact absurd declares' (none steps' more)
    | workspace none' => exact absurd declares (none' steps lt)
  | workspace none =>
    cases starts' with
    | @package steps' lt' declares' => exact absurd declares' (none steps' lt')
    | workspace => rfl

end Packages

/-! ## Helpers -/

/-- A file has the name of a wrapper and the suffix of a source, whatever their case, and mentions
the wrapper. -/
structure IsHelper (disk : Disk) (symbol : String) (path : Path) : Prop where
  named : ∃ suffix ∈ [".tsx", ".ts", ".jsx", ".js"],
    Text.lowercase path.name = Text.lowercase (symbol ++ suffix)
  mentions : ∃ text, disk.readLossy path = .ok text ∧ symbol.toList <:+: text.toList

section Helpers

variable {disk : Disk} {symbol : String} {path : Path}

theorem occursIn_iff {wanted text : List Char} :
    occursIn wanted text = true ↔ wanted <:+: text := by
  induction text with
  | nil => simp [occursIn]
  | cons c rest ih => simp [occursIn, ih, List.infix_cons_iff]

theorem isHelper_iff : isHelper disk symbol path = true ↔ IsHelper disk symbol path := by
  have named : (helperSuffixes.map fun suffix => Text.lowercase (symbol ++ suffix)).contains
      (Text.lowercase path.name) = true ↔ ∃ suffix ∈ [".tsx", ".ts", ".jsx", ".js"],
        Text.lowercase path.name = Text.lowercase (symbol ++ suffix) := by
    simp only [List.contains_iff_mem, List.mem_map, helperSuffixes]
    exact exists_congr fun suffix => and_congr_right fun _ => eq_comm
  rw [isHelper, Bool.and_eq_true, named]
  constructor
  · rintro ⟨isNamed, mentions⟩
    refine ⟨isNamed, ?_⟩
    split at mentions
    · next text read => exact ⟨text, read, occursIn_iff.mp mentions⟩
    · cases mentions
  · rintro ⟨isNamed, text, read, occurs⟩
    refine ⟨isNamed, ?_⟩
    rw [read]
    exact occursIn_iff.mpr occurs

theorem IsHelper.there (helper : IsHelper disk symbol path) : disk.contains path = true := by
  obtain ⟨text, read, -⟩ := helper.mentions
  exact contains_of_readLossy read

theorem value_findHelper (disk : Disk) (workspace component : Path) (symbol : String) :
    (findHelper disk workspace component symbol).value =
      let base := disk.resolve workspace
      let start := (nearestApp disk parentLimit (base.under component).parent).value.getD base
      (helperBelow disk symbol start).or
        (if start == base then none else helperBelow disk symbol base) := by
  have reported : ∀ (found : Option Path) (report : Logged Unit),
      (if found.isNone = true then report >>= fun _ => pure found else pure found).value = found :=
    fun found report => by split <;> rfl
  rw [findHelper, Logged.value_bind]
  refine (reported _ _).trans ?_
  dsimp only
  generalize (nearestApp disk parentLimit _).value.getD (disk.resolve workspace) = start
  cases helperBelow disk symbol start <;> rfl

/-- The search for a helper starts at the nearest app package or the workspace, and finds the first
helper there; if there is none, it finds the first one of the workspace, and nothing only if that
has none either. -/
theorem findHelper_nearest_first (wellFormed : disk.tree.WellFormed) (workspace component : Path)
    (symbol : String) :
    ∃ start, StartsAt disk (disk.resolve workspace)
      ((disk.resolve workspace).under component).parent start
      ∧ (∀ path, (findHelper disk workspace component symbol).value = some path ↔
        (∃ directories file, path = start.under ⟨"", directories ++ [file]⟩
          ∧ LooksFirst disk start (IsHelper disk symbol) directories file)
        ∨ ¬ LooksAtSome disk start (IsHelper disk symbol)
          ∧ ∃ directories file, path = (disk.resolve workspace).under ⟨"", directories ++ [file]⟩
            ∧ LooksFirst disk (disk.resolve workspace) (IsHelper disk symbol) directories file)
      ∧ ((findHelper disk workspace component symbol).value = none ↔
        ¬ LooksAtSome disk start (IsHelper disk symbol)
          ∧ ¬ LooksAtSome disk (disk.resolve workspace) (IsHelper disk symbol)) := by
  have starts := startsAt_getD disk (disk.resolve workspace)
    ((disk.resolve workspace).under component).parent
  rw [value_findHelper]
  dsimp only
  generalize disk.resolve workspace = base at *
  generalize (nearestApp disk parentLimit (base.under component).parent).value.getD base
    = start at *
  have first : ∀ top path, helperBelow disk symbol top = some path ↔ ∃ directories file,
      path = top.under ⟨"", directories ++ [file]⟩
        ∧ LooksFirst disk top (IsHelper disk symbol) directories file := fun top path =>
    find?_filesBelow wellFormed (fun _ => isHelper_iff) fun _ => IsHelper.there
  have nothing : ∀ top, helperBelow disk symbol top = none ↔
      ¬ LooksAtSome disk top (IsHelper disk symbol) := fun top =>
    find?_filesBelow_eq_none wellFormed (fun _ => isHelper_iff) fun _ => IsHelper.there
  refine ⟨start, starts, ?_⟩
  simp only [← first, ← nothing]
  cases inStart : helperBelow disk symbol start with
  | some path => simp
  | none =>
    by_cases same : start = base
    · subst same
      simp [inStart]
    · simp [same]

/-- An app package below the workspace holds one helper, and the workspace another. -/
def nestedApp : Disk :=
  { tree := .directory [("w.ts", .file "w".toUTF8 0o644),
      ("app", .directory [
        ("package.json",
          .file "\x7b\"dependencies\": \x7b\"react-native\": \"1\"\x7d\x7d".toUTF8 0o644),
        ("lib", .directory [("W.TSX", .file "export const w = 1".toUTF8 0o644)]),
        ("src", .directory [("A.tsx", .file ByteArray.empty 0o644)])])]
    workingDirectory := ⟨"/", []⟩ }

/-- The helper that is found is the package's, though its name differs in case. -/
theorem findHelper_nearest_first_nestedApp :
    nestedApp.tree.WellFormed
      ∧ StartsAt nestedApp ⟨"/", []⟩ ⟨"/", ["app", "src"]⟩ ⟨"/", ["app"]⟩
      ∧ ∃ directories file,
        (findHelper nestedApp ⟨"/", []⟩ (Path.ofText "app/src/A.tsx") "w").value =
          some (Path.under ⟨"/", ["app"]⟩ ⟨"", directories ++ [file]⟩)
        ∧ LooksFirst nestedApp ⟨"/", ["app"]⟩ (IsHelper nestedApp "w") directories file := by
  have wellFormed : nestedApp.tree.WellFormed := by decide
  have starts : StartsAt nestedApp ⟨"/", []⟩ ⟨"/", ["app", "src"]⟩ ⟨"/", ["app"]⟩ := by
    refine .package (show 1 < 10 by decide) (isAppPackage_iff.mp (by decide +kernel)) ?_
    intro fewer less
    obtain rfl : fewer = 0 := by omega
    exact fun declares => absurd (isAppPackage_iff.mpr declares) (by decide +kernel)
  refine ⟨wellFormed, starts, ?_⟩
  obtain ⟨start, starts', helper, nothing⟩ :=
    findHelper_nearest_first wellFormed ⟨"/", []⟩ (Path.ofText "app/src/A.tsx") "w"
  have isWorkspace : nestedApp.resolve ⟨"/", []⟩ = ⟨"/", []⟩ := by decide +kernel
  have above :
      (Path.under ⟨"/", []⟩ (Path.ofText "app/src/A.tsx")).parent = ⟨"/", ["app", "src"]⟩ := by
    decide +kernel
  rw [isWorkspace, above] at starts'
  obtain rfl : ⟨"/", ["app"]⟩ = start := starts.unique starts'
  have looks : Looks nestedApp ⟨"/", ["app"]⟩ ["lib"] "W.TSX" :=
    { isFile := rfl
      unlinked := ⟨["app"], rfl, _, rfl⟩
      entered := by decide }
  have helps : IsHelper nestedApp "w" ⟨"/", ["app", "lib", "W.TSX"]⟩ :=
    isHelper_iff.mp (by decide +kernel)
  have looksAtSome : LooksAtSome nestedApp ⟨"/", ["app"]⟩ (IsHelper nestedApp "w") :=
    ⟨_, _, looks, helps⟩
  cases found : (findHelper nestedApp ⟨"/", []⟩ (Path.ofText "app/src/A.tsx") "w").value with
  | none => exact absurd looksAtSome (nothing.mp found).1
  | some path =>
    rcases (helper path).mp found with ⟨directories, file, rfl, isFirst⟩ | ⟨noHelper, -⟩
    · exact ⟨directories, file, rfl, isFirst⟩
    · exact absurd looksAtSome noHelper

end Helpers

end RenderProbe.Project
