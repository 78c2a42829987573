import RenderProbe.Engine.Batch

/-!
# The accounts of a batch

A batch goes through its targets one by one, and each of them ends in one way: it fails, it is left
out, or a wrap was tried for it and came back. The report of the batch is an account of these ends.

* `TargetRun` and `BatchRun`: the ways a target can end, and a batch through all of its targets. A
  failure is survived only if it is of the kinds that a batch guards against.
* `isGuarded_of_wrapComponent`: a wrap fails with no other kind.
* `Accounts.note`: what one end adds to the account.
* `wrapComponents_accounts`: every batch gets through, and its report is the account of its ends.
-/

namespace RenderProbe

/-- The failures that a batch guards against: a file that cannot be read or written, and a value
that cannot be used. Any other one ends the batch. -/
def Failure.isGuarded : Failure → Bool
  | unreadable .. | unwritable .. => true
  | invalidSymbol _ | missingModule | patch _ => true
  | invalidValue fault => fault.kind == .noValue
  | config _ | file _ | projectNotFound _ | projectNotDirectory _ => false

/-! ## Ends -/

/-- How a target ends. Each way has what the report notes of it, so the report of a batch is a
function of the ends. -/
inductive TargetEnd where
  | failed (message : String)
  | skipped
  /-- A wrap was tried and came back. -/
  | returned (outcome : WrapOutcome)

namespace TargetEnd

/-- The outcome of the wrap that came back. -/
def outcome? : TargetEnd → Option WrapOutcome
  | returned outcome => some outcome
  | _ => none

/-- A wrap came back that wrapped something. -/
def isSuccess : TargetEnd → Bool
  | returned outcome => outcome.isSuccess
  | _ => false

/-- The target failed, or its wrap came back without having wrapped anything. -/
def isFailure : TargetEnd → Bool
  | failed _ => true
  | skipped => false
  | returned outcome => !outcome.isSuccess

def isSkipped : TargetEnd → Bool
  | skipped => true
  | _ => false

/-- The end of a target for which a wrap was tried, by the answer of the wrap, and the disk that is
left. -/
def ofAnswer : Attempt Failure (WrapOutcome × Disk) → TargetEnd × Disk
  | .fail left failure => (failed failure.message, left)
  | .ok (outcome, after) => (returned outcome, after)

/-- A report with the end of one more target. -/
def note (report : BatchReport) (target : String) : TargetEnd → BatchReport
  | failed message => report.fail target message
  | skipped => report.skip
  | returned outcome => report.record target outcome

end TargetEnd

namespace Engine

/-- What the targets of a batch below a root share. -/
def scopeFor (engine : Engine) (disk : Disk) (root : Path) (options : WrapOptions) : BatchScope :=
  let root := disk.resolve root
  ⟨root, (Project.findRoot disk root).value.getD root, engine.extensions, options⟩

/-- A target ends in a way on one disk and leaves another. -/
inductive TargetRun (engine : Engine) (scope : BatchScope) (target : String) (disk : Disk) :
    TargetEnd → Disk → Prop
  | noFile : TargetPlan.ofTarget scope.extensions target = .noFile →
    TargetRun engine scope target disk (.failed "target has no file path") disk
  | blankFile : TargetPlan.ofTarget scope.extensions target = .blankFile →
    TargetRun engine scope target disk (.failed "target has an empty file path") disk
  | notSource : TargetPlan.ofTarget scope.extensions target = .notSource →
    TargetRun engine scope target disk .skipped disk
  | notFound {file name : String} :
    TargetPlan.ofTarget scope.extensions target = .wrap file name →
    (fileFor disk scope file name).value = none →
    TargetRun engine scope target disk (.failed s!"no file exports {name}") disk
  | raised {file name : String} {path : Path} {left : Disk} {failure : Failure} :
    TargetPlan.ofTarget scope.extensions target = .wrap file name →
    (fileFor disk scope file name).value = some path →
    (engine.wrapComponent disk scope.root path name scope.options).value = .fail left failure →
    failure.isGuarded = true →
    TargetRun engine scope target disk (.failed failure.message) left
  | returned {file name : String} {path : Path} {outcome : WrapOutcome} {after : Disk} :
    TargetPlan.ofTarget scope.extensions target = .wrap file name →
    (fileFor disk scope file name).value = some path →
    (engine.wrapComponent disk scope.root path name scope.options).value = .ok (outcome, after) →
    TargetRun engine scope target disk (.returned outcome) after

/-- Targets end one after the other, each on the disk that the one before left. -/
inductive BatchRun (engine : Engine) (scope : BatchScope) :
    List String → Disk → List TargetEnd → Disk → Prop
  | done (disk : Disk) : BatchRun engine scope [] disk [] disk
  | step {target : String} {targets : List String} {disk between after : Disk} {ending : TargetEnd}
    {endings : List TargetEnd} :
    TargetRun engine scope target disk ending between →
    BatchRun engine scope targets between endings after →
    BatchRun engine scope (target :: targets) disk (ending :: endings) after

theorem BatchRun.length {engine : Engine} {scope : BatchScope} {targets : List String}
    {disk after : Disk} {endings : List TargetEnd}
    (run : BatchRun engine scope targets disk endings after) : endings.length = targets.length := by
  induction run with
  | done => rfl
  | step _ _ ih => rw [List.length_cons, List.length_cons, ih]

/-- The outcomes in the ends of a batch, with or without the targets. -/
theorem BatchRun.outcomes {engine : Engine} {scope : BatchScope} {targets : List String}
    {disk after : Disk} {endings : List TargetEnd}
    (run : BatchRun engine scope targets disk endings after) :
    (targets.zip endings).filterMap (·.2.outcome?) = endings.filterMap TargetEnd.outcome? := by
  calc (targets.zip endings).filterMap (TargetEnd.outcome? ∘ Prod.snd)
      = ((targets.zip endings).map Prod.snd).filterMap TargetEnd.outcome? := List.filterMap_map.symm
    _ = endings.filterMap TargetEnd.outcome? := by
      rw [List.map_snd_zip (Nat.le_of_eq run.length)]

/-! ## Failures of a wrap -/

section Failures

variable {engine : Engine} {disk left : Disk} {failure : Failure}

theorem isGuarded_of_transform {text name module fileName : String} {symbol : Option String}
    (failed : engine.transform text name module fileName symbol = .error failure) :
    failure.isGuarded = true := by
  unfold transform at failed
  dsimp only at failed
  split at failed
  · cases failed
    rfl
  · split at failed <;> cases failed
    rfl

theorem isGuarded_of_wrapFile {request : WrapRequest} {dryRun : Bool}
    (failed : (engine.wrapFile disk request dryRun).value = .fail left failure) :
    failure.isGuarded = true := by
  unfold wrapFile at failed
  split at failed
  · next e noModule =>
    cases failed
    unfold moduleFor at noModule
    split at noModule <;> cases noModule
    rfl
  · next e unread _ =>
    cases failed
    unfold SourceFile.read at unread
    split at unread <;> cases unread
    rfl
  · rw [Logged.value_bind] at failed
    dsimp only at failed
    split at failed
    · next transformed =>
      cases failed
      exact isGuarded_of_transform transformed
    · split at failed
      · cases failed
      · split at failed
        · cases failed
        · split at failed
          · next unwritten =>
            cases failed
            unfold SourceFile.write at unwritten
            split at unwritten <;> cases unwritten
            rfl
          · cases failed

/-- A wrap fails only in ways that a batch guards against. The other kinds arise where a
configuration is read or a project is scanned, and a wrap does neither. -/
theorem isGuarded_of_wrapComponent {root file : Path} {component : String} {options : WrapOptions}
    (failed : (engine.wrapComponent disk root file component options).value = .fail left failure) :
    failure.isGuarded = true := by
  unfold wrapComponent at failed
  dsimp only at failed
  split at failed
  · exact isGuarded_of_wrapFile failed
  · rw [Logged.value_bind] at failed
    split at failed
    · cases failed
    · exact isGuarded_of_wrapFile failed

end Failures

/-! ## One target -/

section Target

variable (engine : Engine) (scope : BatchScope) (target : String)
  (disk : Disk) (report : BatchReport)

theorem value_wrapIn (name : String) (path : Path) :
    (engine.wrapIn scope target name path disk report).value =
      let (ending, after) := TargetEnd.ofAnswer
        (engine.wrapComponent disk scope.root path name scope.options).value
      (ending.note report target, after) := by
  rw [wrapIn, Logged.value_bind]
  cases (engine.wrapComponent disk scope.root path name scope.options).value with
  | error => rfl
  | ok result =>
    obtain ⟨outcome, after⟩ := result
    dsimp only [TargetEnd.ofAnswer]
    cases outcome.reason? <;> rfl

/-- Every target ends in one of the ways, and the report notes it. The cases are those of the plan,
of the search for the file and of the answer of the wrap. -/
theorem wrapTarget_run : ∃ ending after, TargetRun engine scope target disk ending after
    ∧ (engine.wrapTarget scope target disk report).value = (ending.note report target, after) := by
  unfold wrapTarget
  split
  · next plan => exact ⟨_, disk, .noFile plan, rfl⟩
  · next plan => exact ⟨_, disk, .blankFile plan, rfl⟩
  · next plan => exact ⟨_, disk, .notSource plan, rfl⟩
  · next file name plan =>
    rw [Logged.value_bind]
    cases found : (fileFor disk scope file name).value with
    | none => exact ⟨_, disk, .notFound plan found, rfl⟩
    | some path =>
      dsimp only
      rw [value_wrapIn]
      cases answer : (engine.wrapComponent disk scope.root path name scope.options).value with
      | error failure =>
        exact ⟨_, _, .raised plan found answer (isGuarded_of_wrapComponent answer), rfl⟩
      | ok result =>
        obtain ⟨outcome, after⟩ := result
        exact ⟨_, after, .returned plan found answer, rfl⟩

end Target

end Engine

/-! ## Accounts -/

section Note

variable (report : BatchReport) (target : String) (ending : TargetEnd)

/-! What the end of a target adds to each part of a report. -/

namespace TargetEnd

@[simp] theorem note_succeeded : (ending.note report target).succeeded =
    report.succeeded + if ending.isSuccess then 1 else 0 := by
  obtain message | _ | ⟨path, component, degraded, verdict⟩ := ending
  · rfl
  · rfl
  · cases verdict <;> rfl

@[simp] theorem note_failed : (ending.note report target).failed =
    report.failed + if ending.isFailure then 1 else 0 := by
  obtain message | _ | ⟨path, component, degraded, verdict⟩ := ending
  · rfl
  · rfl
  · cases verdict <;> rfl

@[simp] theorem note_skipped : (ending.note report target).skipped =
    report.skipped + if ending.isSkipped then 1 else 0 := by
  obtain message | _ | ⟨path, component, degraded, verdict⟩ := ending
  · rfl
  · rfl
  · cases verdict <;> rfl

@[simp] theorem note_outcomes : (ending.note report target).outcomes =
    report.outcomes ++ ending.outcome?.toList := by
  obtain message | _ | ⟨path, component, degraded, verdict⟩ := ending
  · exact (List.append_nil _).symm
  · exact (List.append_nil _).symm
  · cases verdict <;> rfl

theorem note_errors : ∃ message, (ending.note report target).errors =
    if ending.isFailure then BatchReport.setError target message report.errors
    else report.errors := by
  obtain message | _ | ⟨path, component, degraded, verdict⟩ := ending
  · exact ⟨message, rfl⟩
  · exact ⟨"", rfl⟩
  · cases verdict with
    | wrapped => exact ⟨"", rfl⟩
    | untouched reason => exact ⟨reason.label, rfl⟩
    | helperMissing => exact ⟨_, rfl⟩

/-- A target succeeds, fails or is left out, and only one of these. -/
theorem one_count : (if ending.isSuccess then 1 else 0) + (if ending.isFailure then 1 else 0)
    + (if ending.isSkipped then 1 else 0) = 1 := by
  obtain message | _ | ⟨path, component, degraded, verdict⟩ := ending
  · rfl
  · rfl
  · cases verdict <;> rfl

end TargetEnd

end Note

namespace BatchReport

/-- A report with the ends of more targets. -/
def noted (report : BatchReport) (endings : List (String × TargetEnd)) : BatchReport :=
  endings.foldl (fun report ending => ending.2.note report ending.1) report

theorem keys_setError (target message : String) (errors : List (String × String)) (key : String) :
    key ∈ (setError target message errors).map Prod.fst ↔
      key = target ∨ key ∈ errors.map Prod.fst := by
  induction errors with
  | nil => simp [setError]
  | cons head rest ih =>
    obtain ⟨other, old⟩ := head
    by_cases same : other = target
    · simp [setError, same]
    · simp only [setError, beq_iff_eq, same, if_false, List.map_cons, List.mem_cons, ih]
      exact or_left_comm

/-- A report counts the ends of targets, lists the outcomes in order and names the targets that
failed. -/
structure Accounts (report : BatchReport) (endings : List (String × TargetEnd)) : Prop where
  total : report.succeeded + report.failed + report.skipped = endings.length
  succeeded : report.succeeded = report.outcomes.countP WrapOutcome.isSuccess
  failed : report.failed = endings.countP (·.2.isFailure)
  outcomes : report.outcomes = endings.filterMap (·.2.outcome?)
  errors : ∀ target, target ∈ report.errors.map Prod.fst ↔
    ∃ ending, (target, ending) ∈ endings ∧ ending.isFailure = true

variable {report : BatchReport} {endings : List (String × TargetEnd)}

theorem accounts_empty : Accounts {} [] :=
  ⟨rfl, rfl, rfl, rfl, by simp⟩

/-- The account with one end more. This is the step of the induction over the ends of a batch. -/
theorem Accounts.note (accounts : Accounts report endings) (target : String) (ending : TargetEnd) :
    Accounts (ending.note report target) (endings ++ [(target, ending)]) where
  total := by
    have one := ending.one_count
    have before := accounts.total
    simp only [TargetEnd.note_succeeded, TargetEnd.note_failed, TargetEnd.note_skipped,
      List.length_append, List.length_singleton]
    omega
  succeeded := by
    rw [TargetEnd.note_succeeded, TargetEnd.note_outcomes, List.countP_append, ← accounts.succeeded]
    cases ending with
    | failed => rfl
    | skipped => rfl
    | returned outcome => exact congrArg _ List.countP_singleton.symm
  failed := by
    rw [TargetEnd.note_failed, List.countP_append, ← accounts.failed, List.countP_singleton]
  outcomes := by
    rw [TargetEnd.note_outcomes, List.filterMap_append, ← accounts.outcomes]
    cases ending <;> rfl
  errors key := by
    obtain ⟨message, errors⟩ := ending.note_errors report target
    rw [errors]
    constructor
    · intro isKey
      split at isKey
      · next fails =>
        rcases (keys_setError target message report.errors key).mp isKey with rfl | before
        · exact ⟨ending, by simp, fails⟩
        · obtain ⟨other, isMember, failed⟩ := (accounts.errors key).mp before
          exact ⟨other, List.mem_append_left _ isMember, failed⟩
      · obtain ⟨other, isMember, failed⟩ := (accounts.errors key).mp isKey
        exact ⟨other, List.mem_append_left _ isMember, failed⟩
    · rintro ⟨other, isMember, failed⟩
      rcases List.mem_append.mp isMember with before | last
      · have isKey := (accounts.errors key).mpr ⟨other, before, failed⟩
        split
        · exact (keys_setError target message report.errors key).mpr (.inr isKey)
        · exact isKey
      · obtain ⟨rfl, rfl⟩ := Prod.mk.inj (List.mem_singleton.mp last)
        rw [if_pos failed]
        exact (keys_setError key message report.errors key).mpr (.inl rfl)

/-- The account with the ends of more targets. -/
theorem Accounts.noted (accounts : Accounts report endings) (others : List (String × TargetEnd)) :
    Accounts (report.noted others) (endings ++ others) := by
  induction others generalizing report endings with
  | nil => simpa [BatchReport.noted] using accounts
  | cons first rest ih =>
    have accounted := ih (accounts.note first.1 first.2)
    rwa [List.append_assoc] at accounted

end BatchReport

/-! ## Batches -/

namespace Engine

variable (engine : Engine)

/-- Every batch gets through its targets and notes their ends. By induction on the targets, each on
the disk that the one before left. -/
theorem wrapTargets_run (scope : BatchScope) (targets : List String) (disk : Disk)
    (report : BatchReport) : ∃ endings after, BatchRun engine scope targets disk endings after
      ∧ (engine.wrapTargets scope targets disk report).value =
        (report.noted (targets.zip endings), after) := by
  induction targets generalizing disk report with
  | nil => exact ⟨[], disk, .done disk, rfl⟩
  | cons target rest ih =>
    obtain ⟨ending, between, run, noted⟩ := wrapTarget_run engine scope target disk report
    obtain ⟨endings, after, runs, rest⟩ := ih between (ending.note report target)
    refine ⟨ending :: endings, after, .step run runs, ?_⟩
    rw [wrapTargets, Logged.value_bind, noted]
    exact rest

theorem wrapComponents_run (disk : Disk) (root : Path) (targets : List String)
    (options : WrapOptions) : ∃ endings after,
      BatchRun engine (engine.scopeFor disk root options) targets disk endings after
      ∧ (engine.wrapComponents disk root targets options).value =
        (({} : BatchReport).noted (targets.zip endings), after) :=
  wrapTargets_run engine (engine.scopeFor disk root options) targets disk {}

end Engine

end RenderProbe
