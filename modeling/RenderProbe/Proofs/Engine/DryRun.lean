import RenderProbe.Proofs.Disk.Independence
import RenderProbe.Proofs.Engine.Accounting
import RenderProbe.Proofs.Engine.WrapFile

/-!
# Dry runs

A dry run does all that a batch does but write. It leaves the disk as it was, and where the targets
name files of their own, it ends as the batch itself would: no target sees what was written for
another.

* `BatchRun.dry`: a dry run leaves the disk as it was.
* `wrapFile_dry_real`: one wrap in a file, once dry and once real, from the same bytes.
* `BatchRun.dry_real`: the same for batches whose files are independent, target by target.
* `dry_run_predicts`: the report of a dry run is that of the real one, and what the real one writes.
-/

namespace RenderProbe

/-- The same options for a dry run or for a real one. -/
def Engine.WrapOptions.withDryRun (options : WrapOptions) (dryRun : Bool) : WrapOptions :=
  { options with dryRun }

namespace BatchScope

/-- The files that targets name by their texts alone, in order. -/
def paths (scope : BatchScope) (targets : List String) : List Path :=
  targets.filterMap fun target => match TargetPlan.ofTarget scope.extensions target with
    | .wrap file _ => some (scope.root.under (Path.ofText file))
    | _ => none

/-- The same batch as a dry run or as a real one. -/
def withDryRun (scope : BatchScope) (dryRun : Bool) : BatchScope :=
  { scope with options := scope.options.withDryRun dryRun }

end BatchScope

/-- How a target ends by its text alone, if it does. -/
def TargetPlan.ending? : TargetPlan → Option TargetEnd
  | .noFile => some (.failed "target has no file path")
  | .blankFile => some (.failed "target has an empty file path")
  | .notSource => some .skipped
  | .wrap .. => none

namespace Engine

/-! ## Dry runs leave the disk alone -/

section Dry

variable {engine : Engine} {scope : BatchScope} {disk after : Disk}

theorem wrapFile_dry (engine : Engine) (disk : Disk) (request : WrapRequest) :
    (∃ e, (engine.wrapFile disk request true).value = .fail disk e)
      ∨ ∃ outcome, (engine.wrapFile disk request true).value = .ok (outcome, disk) := by
  rcases wrapFile_cases engine disk request true with failed | ⟨outcome, kept, -⟩ |
    ⟨_, _, _, _, _, _, _, _, _, real, -⟩
  · exact .inl failed
  · exact .inr ⟨outcome, kept⟩
  · cases real

theorem wrapComponent_dry (engine : Engine) (disk : Disk) (root file : Path) (component : String)
    {options : WrapOptions} (dry : options.dryRun = true) :
    (∃ e, (engine.wrapComponent disk root file component options).value = .fail disk e)
      ∨ ∃ outcome, (engine.wrapComponent disk root file component options).value =
        .ok (outcome, disk) := by
  unfold wrapComponent
  rw [dry]
  dsimp only
  split
  · exact wrapFile_dry ..
  · rw [Logged.value_bind]
    split
    · exact .inr ⟨_, rfl⟩
    · exact wrapFile_dry ..

theorem TargetRun.dry {target : String} {ending : TargetEnd} (dry : scope.options.dryRun = true)
    (run : TargetRun engine scope target disk ending after) : after = disk := by
  cases run with
  | noFile => rfl
  | blankFile => rfl
  | notSource => rfl
  | notFound => rfl
  | raised _ _ failed _ =>
    rcases wrapComponent_dry engine disk _ _ _ dry with ⟨e, answer⟩ | ⟨outcome, answer⟩
    · rw [answer] at failed
      cases failed
      rfl
    · rw [answer] at failed
      cases failed
  | returned _ _ returned =>
    rcases wrapComponent_dry engine disk _ _ _ dry with ⟨e, answer⟩ | ⟨outcome, answer⟩
    · rw [answer] at returned
      cases returned
    · rw [answer] at returned
      cases returned
      rfl

/-- A dry run leaves the disk as it was. -/
theorem BatchRun.dry {targets : List String} {endings : List TargetEnd}
    (dry : scope.options.dryRun = true) (run : BatchRun engine scope targets disk endings after) :
    after = disk := by
  induction run with
  | done => rfl
  | step first _ ih => rw [ih, first.dry dry]

end Dry

/-! ## One file -/

section File

variable {disk now : Disk} {module : String}

theorem read_congr {path : Path} (same : now.stat path = disk.stat path) :
    SourceFile.read now path = SourceFile.read disk path := by
  simp only [SourceFile.read, Disk.readExact, Disk.readBytes, same]

/-- The text that a component's file becomes: what the transform makes of the file's text on a
disk. -/
def Produces (engine : Engine) (options : WrapOptions) (module : String) (disk : Disk)
    (outcome : WrapOutcome) (text : String) : Prop :=
  ∃ source strategy rules, SourceFile.read disk outcome.path = .ok source
    ∧ engine.transform source.text outcome.component module outcome.path.name
        (some (engine.symbolOr options.symbol)) = .ok ⟨strategy, .wrapped text rules⟩

/-- A wrap from the same bytes, once dry and once real, where the file can be replaced. The two go
through the same cases and differ only in what is done at the end. -/
theorem wrapFile_dry_real (engine : Engine) (request : WrapRequest)
    (given : request.module = some module) (same : now.stat request.path = disk.stat request.path)
    (replaceable : now.Replaceable request.path) :
    (∃ e, (engine.wrapFile disk request true).value = .fail disk e
        ∧ (engine.wrapFile now request false).value = .fail now e)
      ∨ (∃ outcome, (engine.wrapFile disk request true).value = .ok (outcome, disk)
        ∧ (engine.wrapFile now request false).value = .ok (outcome, now)
        ∧ outcome.isSuccess = false)
      ∨ ∃ outcome after source strategy text rules parent old,
        (engine.wrapFile disk request true).value = .ok (outcome, disk)
        ∧ (engine.wrapFile now request false).value = .ok (outcome, after)
        ∧ outcome.isSuccess = true ∧ outcome.path = request.path
        ∧ outcome.component = request.component
        ∧ SourceFile.read disk request.path = .ok source
        ∧ engine.transform source.text request.component module request.path.name
            (some request.symbol) = .ok ⟨strategy, .wrapped text rules⟩
        ∧ Disk.Replaces now request.path text after parent old := by
  have isModule : ∀ disk, moduleFor disk request = .ok module := by
    intro disk
    simp only [moduleFor, given]
  simp only [wrapFile, isModule, read_congr same]
  cases isSource : SourceFile.read disk request.path with
  | error e => exact .inl ⟨e, rfl, rfl⟩
  | ok source =>
    dsimp only [Logged.value_bind]
    cases transformed : engine.transform source.text request.component module request.path.name
        (some request.symbol) with
    | error e => exact .inl ⟨e, rfl, rfl⟩
    | ok wrapped =>
      obtain ⟨strategy, result⟩ := wrapped
      cases result with
      | untouched reason => exact .inr (.inl ⟨_, rfl, rfl, rfl⟩)
      | wrapped text rules =>
        obtain ⟨after, written⟩ := replaceable text
        have replaces := Disk.replaceFile_cases now request.path text
        rw [written] at replaces
        rcases replaces with ⟨_, failed⟩ | ⟨_, parent, old, same, replaces⟩
        · cases failed
        · cases same
          simp only [SourceFile.write, written, Bool.false_eq_true, if_false, if_true]
          exact .inr
            (.inr ⟨_, after, source, strategy, text, rules, parent, old, rfl, rfl, rfl, rfl, rfl,
              rfl, transformed, replaces⟩)

end File

/-! ## One target -/

section Target

variable {engine : Engine} {scope : BatchScope} {disk now left after : Disk}
  {module target : String} {ending ending' : TargetEnd} {file name : String}

theorem TargetRun.of_ending? {expected : TargetEnd}
    (run : TargetRun engine scope target disk ending after)
    (plan : (TargetPlan.ofTarget scope.extensions target).ending? = some expected) :
    ending = expected ∧ after = disk := by
  cases run with
  | noFile isPlan => exact ⟨by simpa [isPlan, TargetPlan.ending?] using plan, rfl⟩
  | blankFile isPlan => exact ⟨by simpa [isPlan, TargetPlan.ending?] using plan, rfl⟩
  | notSource isPlan => exact ⟨by simpa [isPlan, TargetPlan.ending?] using plan, rfl⟩
  | notFound isPlan => simp [isPlan, TargetPlan.ending?] at plan
  | raised isPlan => simp [isPlan, TargetPlan.ending?] at plan
  | returned isPlan => simp [isPlan, TargetPlan.ending?] at plan

/-- A target whose file is in its place is wrapped there. -/
theorem TargetRun.of_wrap (run : TargetRun engine scope target disk ending after)
    (plan : TargetPlan.ofTarget scope.extensions target = .wrap file name)
    (isFile : disk.isFile (scope.root.under (Path.ofText file)) = true) :
    (∃ failure, (engine.wrapComponent disk scope.root (scope.root.under (Path.ofText file)) name
        scope.options).value = .fail after failure ∧ ending = .failed failure.message)
      ∨ ∃ outcome, (engine.wrapComponent disk scope.root (scope.root.under (Path.ofText file)) name
        scope.options).value = .ok (outcome, after) ∧ ending = .returned outcome := by
  have inPlace :
      (fileFor disk scope file name).value = some (scope.root.under (Path.ofText file)) := by
    simp [fileFor, isFile]
  cases run with
  | noFile isPlan => cases plan.symm.trans isPlan
  | blankFile isPlan => cases plan.symm.trans isPlan
  | notSource isPlan => cases plan.symm.trans isPlan
  | notFound isPlan missing =>
    cases plan.symm.trans isPlan
    cases inPlace.symm.trans missing
  | raised isPlan found failed =>
    cases plan.symm.trans isPlan
    cases inPlace.symm.trans found
    exact .inl ⟨_, failed, rfl⟩
  | returned isPlan found returned =>
    cases plan.symm.trans isPlan
    cases inPlace.symm.trans found
    exact .inr ⟨_, returned, rfl⟩

theorem wrapComponent_given (options : WrapOptions) {path : Path}
    (given : engine.moduleOr options.module = some module) (absolute : path.isAbsolute = true)
    (disk : Disk) (root : Path) (name : String) :
    engine.wrapComponent disk root path name options = engine.wrapFile disk
      ⟨path, name, engine.symbolOr options.symbol, some module, none⟩ options.dryRun := by
  simp only [wrapComponent, given, Path.under, absolute, if_true]

theorem isAbsolute_under {base : Path} (absolute : base.isAbsolute = true) (path : Path) :
    (base.under path).isAbsolute = true := by
  unfold Path.under
  split
  · assumption
  · exact absolute

/-- A target ends alike in a dry and in a real run that find the same bytes at its path. In the real
run nothing was written, or its file was replaced by the text that the dry run's file becomes. -/
theorem TargetRun.dry_real (given : engine.moduleOr scope.options.module = some module)
    (absolute : scope.root.isAbsolute = true)
    (plan : TargetPlan.ofTarget scope.extensions target = .wrap file name)
    {path : Path} (isPath : path = scope.root.under (Path.ofText file))
    (isFile : now.isFile path = true) (same : now.stat path = disk.stat path)
    (replaceable : now.Replaceable path)
    (dry : TargetRun engine (scope.withDryRun true) target disk ending left)
    (real : TargetRun engine (scope.withDryRun false) target now ending' after) :
    ending' = ending ∧ (ending.isSuccess = false ∧ after = now
      ∨ ∃ outcome text parent old, ending = .returned outcome ∧ outcome.isSuccess = true
        ∧ outcome.path = path ∧ engine.Produces scope.options module disk outcome text
        ∧ Disk.Replaces now path text after parent old) := by
  subst isPath
  have isFile' : disk.isFile (scope.root.under (Path.ofText file)) = true := by
    rw [Disk.isFile, ← same]
    exact isFile
  have component : ∀ (disk : Disk) (dryRun : Bool), engine.wrapComponent disk
      (scope.withDryRun dryRun).root ((scope.withDryRun dryRun).root.under (Path.ofText file)) name
      (scope.withDryRun dryRun).options = engine.wrapFile disk
        ⟨scope.root.under (Path.ofText file), name, engine.symbolOr scope.options.symbol,
          some module, none⟩ dryRun := fun disk dryRun =>
    wrapComponent_given (scope.withDryRun dryRun).options given (isAbsolute_under absolute _) disk
      scope.root name
  have dry := dry.of_wrap plan isFile'
  have real := real.of_wrap plan isFile
  rw [component] at dry real
  rcases wrapFile_dry_real engine ⟨scope.root.under (Path.ofText file), name,
      engine.symbolOr scope.options.symbol, some module, none⟩ rfl same replaceable with
    ⟨e, dryAnswer, realAnswer⟩ | ⟨outcome, dryAnswer, realAnswer, failure⟩ |
    ⟨outcome, written, source, strategy, text, rules, parent, old, dryAnswer, realAnswer, success,
      isPath, isName, isSource, transformed, replaces⟩
  · rw [dryAnswer] at dry
    rw [realAnswer] at real
    rcases dry with ⟨_, same, rfl⟩ | ⟨_, same, -⟩ <;> cases same
    rcases real with ⟨_, same, rfl⟩ | ⟨_, same, -⟩ <;> cases same
    exact ⟨rfl, .inl ⟨rfl, rfl⟩⟩
  · rw [dryAnswer] at dry
    rw [realAnswer] at real
    rcases dry with ⟨_, same, -⟩ | ⟨_, same, rfl⟩ <;> cases same
    rcases real with ⟨_, same, -⟩ | ⟨_, same, rfl⟩ <;> cases same
    exact ⟨rfl, .inl ⟨failure, rfl⟩⟩
  · rw [dryAnswer] at dry
    rw [realAnswer] at real
    rcases dry with ⟨_, same, -⟩ | ⟨_, same, rfl⟩ <;> cases same
    rcases real with ⟨_, same, -⟩ | ⟨_, same, rfl⟩ <;> cases same
    refine ⟨rfl, .inr ⟨outcome, text, parent, old, rfl, success, isPath,
      ⟨source, strategy, rules, ?_, ?_⟩, replaces⟩⟩
    · rw [isPath]
      exact isSource
    · rw [isPath, isName]
      exact transformed

end Target

/-! ## Batches -/

section Batch

variable {engine : Engine} {scope : BatchScope} {disk now between left after : Disk}
  {module : String} {outcome : WrapOutcome} {outcomes : List WrapOutcome} {paths : List Path}

/-- A path leads to the same file on two disks, and its parent to the same place. This is what a
wrap reads of a disk, apart from where it writes. -/
structure SameAt (disk now : Disk) (path : Path) : Prop where
  stat : now.stat path = disk.stat path
  above : now.locate path.parent = disk.locate path.parent

/-- The other paths of independent files still lead where they led on a first disk. So the dry run,
which stays on that disk, reads what the real one reads. -/
theorem SameAt.replaced {path other : Path} {text : String} {parent : List String}
    {content : ByteArray} {mode : Nat} (same : SameAt disk now other)
    (independent : now.Independent (path :: paths)) (isMember : other ∈ paths)
    (replaces : Disk.Replaces now path text between parent (.file content mode)) :
    SameAt disk between other := by
  obtain ⟨bytes, bits, isFile⟩ := Disk.isFile_iff.mp (independent.tail.isFile other isMember)
  obtain ⟨above, entries, temporary, room⟩ := (independent.tail.replaceable other isMember).room
  constructor
  · rw [(replaces.stat_other isFile (independent.apart_head isMember)).2, ← isFile, same.stat]
  · rw [replaces.locate_directory room.above ⟨_, room.directory⟩, ← same.above, room.above]

/-- A run turned one disk into another by writing for its successful outcomes the texts that their
files on a first disk become, and it wrote nothing else. Paths to files that are none of its own
lead where they led. -/
structure Written (engine : Engine) (options : WrapOptions) (module : String)
    (disk now after : Disk) (paths : List Path) (outcomes : List WrapOutcome) : Prop where
  texts : ∀ outcome ∈ outcomes, outcome.isSuccess = true → ∃ text content mode,
    engine.Produces options module disk outcome text
    ∧ disk.stat outcome.path = .ok (.file content mode)
    ∧ after.stat outcome.path = .ok (.file text.toUTF8 mode)
  elsewhere : ∀ place, (∀ outcome ∈ outcomes, outcome.isSuccess = true → ∀ parent,
      disk.locate outcome.path.parent = .ok parent → place ≠ parent ++ [outcome.path.name]) →
    (after.tree.get? place).map Entry.bare = (now.tree.get? place).map Entry.bare
  others : ∀ path content mode, now.stat path = .ok (.file content mode) →
    (∀ other ∈ paths, now.locate other ≠ now.locate path) →
      after.stat path = .ok (.file content mode)

/-- A target that wrote nothing adds nothing. -/
theorem Written.keep {options : WrapOptions} {ending : TargetEnd} {endings : List TargetEnd}
    (written : Written engine options module disk now after paths
      (endings.filterMap TargetEnd.outcome?)) (kept : ending.isSuccess = false)
      (others : List Path) :
    Written engine options module disk now after (others ++ paths)
      ((ending :: endings).filterMap TargetEnd.outcome?) := by
  have successes : ∀ outcome, outcome.isSuccess = true →
      (outcome ∈ (ending :: endings).filterMap TargetEnd.outcome? ↔
        outcome ∈ endings.filterMap TargetEnd.outcome?) := by
    intro outcome success
    rw [List.filterMap_cons]
    cases ending with
    | failed => rfl
    | skipped => rfl
    | returned first =>
      simp only [TargetEnd.outcome?, List.mem_cons, or_iff_right_iff_imp]
      rintro rfl
      exact absurd (success.symm.trans kept) (by decide)
  constructor
  · intro outcome isMember success
    exact written.texts outcome ((successes outcome success).mp isMember) success
  · intro place apart
    exact written.elsewhere place fun outcome isMember success =>
      apart outcome ((successes outcome success).mpr isMember) success
  · intro path content mode isFile apart
    exact written.others path content mode isFile fun other isMember =>
      apart other (List.mem_append_right _ isMember)

/-- A target that replaced its file adds the file's new text. -/
theorem Written.write {options : WrapOptions} {path : Path} {text : String} {parent : List String}
    {content : ByteArray} {mode : Nat}
    (written : Written engine options module disk between after paths outcomes)
    (independent : now.Independent (path :: paths)) (same : SameAt disk now path)
    (isPath : outcome.path = path) (success : outcome.isSuccess = true)
    (produces : engine.Produces options module disk outcome text)
    (replaces : Disk.Replaces now path text between parent (.file content mode)) :
    Written engine options module disk now after (path :: paths) (outcome :: outcomes) := by
  subst isPath
  have files : ∀ other ∈ paths, ∃ bytes bits, now.stat other = .ok (.file bytes bits) :=
    fun other isMember => Disk.isFile_iff.mp (independent.tail.isFile other isMember)
  constructor
  · intro other isMember success
    rcases List.mem_cons.mp isMember with rfl | isMember
    · refine ⟨text, content, mode, produces, same.stat ▸ replaces.led, ?_⟩
      -- The new file is not one of those that are replaced later.
      refine written.others other.path text.toUTF8 mode replaces.stat_after fun path isMember => ?_
      obtain ⟨bytes, bits, isFile⟩ := files path isMember
      exact (replaces.apart_after isFile (independent.apart_head isMember)).symm
    · exact written.texts other isMember success
  · intro place apart
    rw [written.elsewhere place fun other isMember =>
      apart other (List.mem_cons_of_mem _ isMember)]
    exact replaces.elsewhere
      (apart outcome List.mem_cons_self success parent (same.above ▸ replaces.above))
  · intro path bytes bits isFile apart
    have kept := replaces.stat_other isFile (apart outcome.path List.mem_cons_self)
    refine written.others path bytes bits kept.2 fun other isMember => ?_
    obtain ⟨_, _, isOther⟩ := files other isMember
    rw [(replaces.stat_other isOther (independent.apart_head isMember)).1, kept.1]
    exact apart other (List.mem_cons_of_mem _ isMember)

theorem paths_of_wrap {target file name : String}
    (plan : TargetPlan.ofTarget scope.extensions target = .wrap file name) (rest : List String) :
    scope.paths (target :: rest) = scope.root.under (Path.ofText file) :: scope.paths rest := by
  simp only [BatchScope.paths, List.filterMap_cons, plan]

theorem paths_of_ending? {target : String} {ending : TargetEnd}
    (plan : (TargetPlan.ofTarget scope.extensions target).ending? = some ending)
    (rest : List String) : scope.paths (target :: rest) = scope.paths rest := by
  cases isPlan : TargetPlan.ofTarget scope.extensions target with
  | wrap => simp [isPlan, TargetPlan.ending?] at plan
  | noFile => simp only [BatchScope.paths, List.filterMap_cons, isPlan]
  | blankFile => simp only [BatchScope.paths, List.filterMap_cons, isPlan]
  | notSource => simp only [BatchScope.paths, List.filterMap_cons, isPlan]

/-- A target without a file ends alike in both runs and writes nothing. -/
theorem TargetRun.dry_real_of_ending? {target : String} {ending ending' expected : TargetEnd}
    (plan : (TargetPlan.ofTarget scope.extensions target).ending? = some expected)
    (dry : TargetRun engine (scope.withDryRun true) target disk ending left)
    (real : TargetRun engine (scope.withDryRun false) target now ending' after) :
    ending' = ending ∧ ending.isSuccess = false ∧ after = now := by
  obtain ⟨rfl, -⟩ := dry.of_ending? plan
  obtain ⟨rfl, rfl⟩ := real.of_ending? plan
  refine ⟨rfl, ?_, rfl⟩
  cases isPlan :
    TargetPlan.ofTarget scope.extensions target <;> rw [isPlan] at plan <;> cases plan <;>
    rfl

/-- Batches on independent files end alike, dry and real, and the real one writes what the
transforms of the files' texts give. -/
theorem BatchRun.dry_real (given : engine.moduleOr scope.options.module = some module)
    (absolute : scope.root.isAbsolute = true) {targets : List String}
    {endings endings' : List TargetEnd}
    (dry : BatchRun engine (scope.withDryRun true) targets disk endings left)
    (real : BatchRun engine (scope.withDryRun false) targets now endings' after)
    (independent : now.Independent (scope.paths targets))
    (same : ∀ path ∈ scope.paths targets, SameAt disk now path) :
    endings' = endings ∧ Written engine scope.options module disk now after (scope.paths targets)
      (endings.filterMap TargetEnd.outcome?) := by
  induction targets generalizing now endings endings' with
  | nil =>
    cases dry
    cases real
    exact ⟨rfl, nofun, fun _ _ => rfl, fun _ _ _ isFile _ => isFile⟩
  | cons target rest ih =>
    obtain _ | ⟨dryFirst, dryRest⟩ := dry
    obtain _ | ⟨realFirst, realRest⟩ := real
    obtain rfl := dryFirst.dry rfl
    cases plan : (TargetPlan.ofTarget scope.extensions target).ending? with
    | some expected =>
      rw [paths_of_ending? plan] at independent same ⊢
      obtain ⟨rfl, kept, rfl⟩ := dryFirst.dry_real_of_ending? plan realFirst
      obtain ⟨rfl, written⟩ := ih dryRest realRest independent same
      exact ⟨rfl, written.keep kept []⟩
    | none =>
      obtain ⟨file, name, plan⟩ : ∃ file name, TargetPlan.ofTarget scope.extensions target =
          .wrap file name := by
        cases isPlan : TargetPlan.ofTarget scope.extensions target with
        | wrap file name => exact ⟨file, name, rfl⟩
        | noFile => simp [isPlan, TargetPlan.ending?] at plan
        | blankFile => simp [isPlan, TargetPlan.ending?] at plan
        | notSource => simp [isPlan, TargetPlan.ending?] at plan
      rw [paths_of_wrap plan] at independent same ⊢
      have here := same _ List.mem_cons_self
      have isFile := independent.isFile _ List.mem_cons_self
      obtain ⟨rfl,
        ⟨kept, rfl⟩ | ⟨outcome, text, parent, old, rfl, success, isPath, produces, replaces⟩⟩ :=
        TargetRun.dry_real given absolute plan rfl isFile here.stat
          (independent.replaceable _ List.mem_cons_self) dryFirst realFirst
      · obtain ⟨rfl, written⟩ := ih dryRest realRest independent.tail fun path isMember =>
          same path (List.mem_cons_of_mem _ isMember)
        exact ⟨rfl, written.keep kept [_]⟩
      · obtain ⟨content, mode, found⟩ := Disk.isFile_iff.mp isFile
        obtain rfl : old = .file content mode := Except.ok.inj (replaces.led.symm.trans found)
        obtain ⟨rfl, written⟩ := ih dryRest realRest (independent.replaced replaces)
          fun path isMember =>
            (same path (List.mem_cons_of_mem _ isMember)).replaced independent isMember replaces
        exact ⟨rfl, written.write independent here isPath success produces replaces⟩

end Batch

/-- A dry run leaves the disk as it was. Where the module is given and the targets that pass for
wraps by their texts name files that exist, each its own, and can be written, the real run reports
the same in all parts. After it the path of each success leads to the text that the transform gives
for the file as it was, and nothing else on the disk is different. -/
theorem dry_run_predicts (engine : Engine) (disk : Disk) (root : Path) (targets : List String)
    (options : WrapOptions) :
    (engine.wrapComponents disk root targets (options.withDryRun true)).value.2 = disk
      ∧ ∀ module, engine.moduleOr options.module = some module →
        disk.Independent ((engine.scopeFor disk root options).paths targets) →
        ∃ report after,
          (engine.wrapComponents disk root targets (options.withDryRun true)).value = (report, disk)
          ∧ (engine.wrapComponents disk root targets (options.withDryRun false)).value =
            (report, after)
          ∧ (∀ outcome ∈ report.outcomes, outcome.isSuccess = true → ∃ text content mode,
              engine.Produces options module disk outcome text
              ∧ disk.stat outcome.path = .ok (.file content mode)
              ∧ after.stat outcome.path = .ok (.file text.toUTF8 mode))
          ∧ ∀ place, (∀ outcome ∈ report.outcomes, outcome.isSuccess = true → ∀ parent,
                disk.locate outcome.path.parent = .ok parent →
                place ≠ parent ++ [outcome.path.name]) →
              (after.tree.get? place).map Entry.bare = (disk.tree.get? place).map Entry.bare := by
  obtain ⟨endings, left, dry, dryAnswer⟩ := wrapComponents_run engine disk root targets
    (options.withDryRun true)
  obtain ⟨endings', after, real, realAnswer⟩ := wrapComponents_run engine disk root targets
    (options.withDryRun false)
  obtain rfl : left = disk := dry.dry rfl
  refine ⟨by rw [dryAnswer], fun module given independent => ?_⟩
  have dryRun : BatchRun engine ((engine.scopeFor left root options).withDryRun true) targets left
    endings left := dry
  have realRun : BatchRun engine ((engine.scopeFor left root options).withDryRun false) targets left
    endings' after := real
  obtain ⟨rfl, written⟩ := dryRun.dry_real given rfl realRun independent fun _ _ => ⟨rfl, rfl⟩
  have outcomes : (({} : BatchReport).noted (targets.zip endings')).outcomes =
      endings'.filterMap TargetEnd.outcome? :=
    (BatchReport.accounts_empty.noted _).outcomes.trans dry.outcomes
  rw [← outcomes] at written
  exact ⟨_, after, dryAnswer, realAnswer, written.texts, written.elsewhere⟩

/-- Two sources, and a link to a third one. -/
def linkedSources : Disk :=
  { tree := .directory [("a.tsx", .link ⟨"", ["c.tsx"]⟩),
      ("b.tsx", .file "export default B\n".toUTF8 0o644),
      ("c.tsx", .file "export default A\n".toUTF8 0o640)]
    workingDirectory := ⟨"/", []⟩ }

theorem linkedSources_independent :
    linkedSources.Independent [⟨"/", ["a.tsx"]⟩, ⟨"/", ["b.tsx"]⟩] := by
  have linked : linkedSources.Replaceable ⟨"/", ["a.tsx"]⟩ := by
    have room : linkedSources.Room ⟨"/", ["a.tsx"]⟩ [] _ ".a.tsx.aaaaaaaa" :=
      ⟨rfl, rfl, by decide +kernel, by decide, by decide, nofun⟩
    exact room.replaceable rfl
  have plain : linkedSources.Replaceable ⟨"/", ["b.tsx"]⟩ := by
    have room : linkedSources.Room ⟨"/", ["b.tsx"]⟩ [] _ ".b.tsx.aaaaaaaa" :=
      ⟨rfl, rfl, by decide +kernel, by decide, by decide, nofun⟩
    exact room.replaceable rfl
  have apart : linkedSources.locate ⟨"/", ["a.tsx"]⟩ ≠ linkedSources.locate ⟨"/", ["b.tsx"]⟩ := by
    have toLinked : linkedSources.locate ⟨"/", ["a.tsx"]⟩ = .ok ["c.tsx"] := rfl
    have toPlain : linkedSources.locate ⟨"/", ["b.tsx"]⟩ = .ok ["b.tsx"] := rfl
    rw [toLinked, toPlain]
    exact fun same => absurd (Except.ok.inj same) (by decide)
  exact ⟨by simp only [List.forall_mem_cons]; exact ⟨rfl, rfl, nofun⟩, by simpa using apart,
    by simpa using ⟨linked, plain⟩⟩

/-- The module and the wrapper for the sources. -/
def linkedOptions : WrapOptions :=
  { module := some "m", symbol := some "w" }

/-- Both targets are wrapped, in the dry run and in the real one, also where a link is replaced. -/
theorem dry_run_predicts_linkedSources :
    linkedSources.Independent ((scopeFor {} linkedSources ⟨"/", []⟩ linkedOptions).paths
        ["a.tsx::A", "b.tsx::B"])
      ∧ ∃ report after,
        (wrapComponents {} linkedSources ⟨"/", []⟩ ["a.tsx::A", "b.tsx::B"]
          (linkedOptions.withDryRun true)).value = (report, linkedSources)
        ∧ (wrapComponents {} linkedSources ⟨"/", []⟩ ["a.tsx::A", "b.tsx::B"]
          (linkedOptions.withDryRun false)).value = (report, after)
        ∧ report.succeeded = 2 := by
  have paths : (scopeFor {} linkedSources ⟨"/", []⟩ linkedOptions).paths
      ["a.tsx::A", "b.tsx::B"] = [⟨"/", ["a.tsx"]⟩, ⟨"/", ["b.tsx"]⟩] := by decide +kernel
  have successes : (wrapComponents {} linkedSources ⟨"/", []⟩ ["a.tsx::A", "b.tsx::B"]
      (linkedOptions.withDryRun true)).value.1.succeeded = 2 := by
    decide +kernel
  have independent :
      linkedSources.Independent ((scopeFor {} linkedSources ⟨"/", []⟩ linkedOptions).paths
        ["a.tsx::A", "b.tsx::B"]) := by
    rw [paths]
    exact linkedSources_independent
  obtain ⟨report, after, dry, real, -⟩ := (dry_run_predicts {} linkedSources ⟨"/", []⟩
    ["a.tsx::A", "b.tsx::B"] linkedOptions).2 "m" rfl independent
  have counted := congrArg (fun answer => answer.1.succeeded) dry
  exact ⟨independent, report, after, dry, real, counted.symm.trans successes⟩

end Engine

end RenderProbe
