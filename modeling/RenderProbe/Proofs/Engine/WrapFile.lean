import RenderProbe.Engine.Files
import RenderProbe.Proofs.Disk.Replace

/-!
# Wrapping in a file is all or nothing

A wrap reads a file, transforms its text and replaces the file. Every way out of it but the last
leaves the disk as it was, and the last one makes a single place of the disk another file.

* `transform_changes`: a text that is wrapped is another text.
* `wrapFile_cases`: the ways out of a wrap in a file.
* `wrapFile_all_or_nothing`: what they leave of the disk.
-/

namespace RenderProbe

/-! ## Wrapped texts -/

theorem Wrap.transform_changes {criteria : Component.Criteria} {style : QuoteStyle} {text : String}
    {root : Syntax.Node} {name : String} {target : ImportTarget} {output : String}
    {rules : List Rule}
    (answer : transform criteria style text root name target = .ok (.wrapped output rules)) :
    output ≠ text := by
  unfold transform at answer
  dsimp only at answer
  split at answer
  · cases answer
  · split at answer
    · cases answer
    · split at answer
      · cases answer
      · next differs =>
        cases answer
        simpa using differs

theorem Fallback.transform_changes {style : QuoteStyle} {text name : String} {target : ImportTarget}
    {output : String} {rules : List Wrap.Rule}
    (answer : transform style text name target = .wrapped output rules) : output ≠ text := by
  unfold transform at answer
  split at answer
  · cases answer
  · dsimp only at answer
    split at answer
    · cases answer
    · split at answer
      · cases answer
      · next differs =>
        cases answer
        intro same
        have same' := congrArg String.toList same
        rw [String.toList_ofList] at same'
        exact differs (beq_iff_eq.mpr same')

namespace Engine

variable {engine : Engine} {text name module fileName output : String} {symbol : Option String}
  {strategy : Strategy} {rules : List Wrap.Rule}

theorem transform_changes
    (answer : engine.transform text name module fileName symbol =
      .ok ⟨strategy, .wrapped output rules⟩) : output ≠ text := by
  unfold transform at answer
  dsimp only at answer
  split at answer
  · cases answer
  · split at answer
    · cases answer
    · next result transformed =>
      cases answer
      unfold Strategy.transform at transformed
      split at transformed
      · split at transformed
        · exact Wrap.transform_changes transformed
        · cases transformed
      · exact Fallback.transform_changes (Except.ok.inj transformed)

/-! ## The ways out -/

/-- A file that was read is one. -/
theorem stat_of_read {disk : Disk} {path : Path} {source : SourceFile}
    (read : SourceFile.read disk path = .ok source) :
    ∃ content mode, disk.stat path = .ok (.file content mode)
      ∧ String.fromUTF8? content = some source.text := by
  unfold SourceFile.read Disk.readExact Disk.readBytes at read
  cases found : disk.stat path with
  | error e => simp [found] at read
  | ok entry =>
    cases entry with
    | file content mode =>
      refine ⟨content, mode, rfl, ?_⟩
      cases decoded : String.fromUTF8? content with
      | none => simp [found, decoded] at read
      | some text =>
        simp only [found, decoded, Except.ok.injEq] at read
        rw [← read]
    | link => simp [found] at read
    | directory => simp [found] at read

variable (engine : Engine) (disk : Disk) (request : WrapRequest) (dryRun : Bool)

/-- A wrap in a file fails, or leaves the file, or replaces it by the wrapped text; before the last,
the disk is not touched, or what was done to it is undone. -/
theorem wrapFile_cases :
    (∃ e, (engine.wrapFile disk request dryRun).value = .fail disk e)
      ∨ (∃ outcome, (engine.wrapFile disk request dryRun).value = .ok (outcome, disk)
        ∧ (outcome.isSuccess = true → dryRun = true))
      ∨ ∃ outcome after module source strategy text rules parent old, dryRun = false
        ∧ (engine.wrapFile disk request dryRun).value = .ok (outcome, after)
        ∧ outcome.isSuccess = true
        ∧ moduleFor disk request = .ok module
        ∧ SourceFile.read disk request.path = .ok source
        ∧ engine.transform source.text request.component module request.path.name
            (some request.symbol) = .ok ⟨strategy, .wrapped text rules⟩
        ∧ Disk.Replaces disk request.path text after parent old := by
  unfold wrapFile
  split
  · exact .inl ⟨_, rfl⟩
  · exact .inl ⟨_, rfl⟩
  · next module source isModule isSource =>
    rw [Logged.value_bind]
    dsimp only
    split
    · exact .inl ⟨_, rfl⟩
    · next wrapped transformed =>
      obtain ⟨strategy, result⟩ := wrapped
      dsimp only
      cases result with
      | untouched reason => exact .inr (.inl ⟨_, rfl, nofun⟩)
      | wrapped text rules =>
        cases dryRun with
        | true => exact .inr (.inl ⟨_, rfl, fun _ => rfl⟩)
        | false =>
          simp only [SourceFile.write, Bool.false_eq_true, if_false]
          rcases Disk.replaceFile_cases disk request.path text with
            ⟨e, failed⟩ | ⟨after, parent, old, replaced, replaces⟩
          · rw [failed]
            exact .inl ⟨_, rfl⟩
          · rw [replaced]
            exact .inr
              (.inr ⟨_, after, module, source, strategy, text, rules, parent, old, trivial, rfl,
                rfl, isModule, isSource, transformed, replaces⟩)

/-- A wrap that fails, has no success or is a dry run leaves the disk as it was. One that succeeds
leaves a file of the wrapped text, another one than the old, with the old permission bits at its
path, which is no link any more, and nothing else on the disk is different. -/
theorem wrapFile_all_or_nothing :
    match (engine.wrapFile disk request dryRun).value with
    | .fail left _ => left = disk
    | .ok (outcome, after) =>
      if outcome.isSuccess = true ∧ dryRun = false then
        ∃ module source strategy text rules content mode parent,
          moduleFor disk request = .ok module
          ∧ SourceFile.read disk request.path = .ok source
          ∧ engine.transform source.text request.component module request.path.name
              (some request.symbol) = .ok ⟨strategy, .wrapped text rules⟩
          ∧ text ≠ source.text
          ∧ disk.stat request.path = .ok (.file content mode)
          ∧ after.stat request.path = .ok (.file text.toUTF8 mode)
          ∧ disk.locate request.path.parent = .ok parent
          ∧ after.tree.get? (parent ++ [request.path.name]) = some (.file text.toUTF8 mode)
          ∧ (∀ place, place ≠ parent ++ [request.path.name] →
              (after.tree.get? place).map Entry.bare = (disk.tree.get? place).map Entry.bare)
          ∧ after.workingDirectory = disk.workingDirectory
      else after = disk := by
  rcases wrapFile_cases engine disk request dryRun with ⟨e, failed⟩ | ⟨outcome, kept, dry⟩ |
    ⟨outcome, after, module, source, strategy, text, rules, parent, old, real, succeeded, success,
      isModule, isSource, transformed, replaces⟩
  · rw [failed]
  · rw [kept]
    dsimp only
    split
    · next written =>
      rw [dry written.1] at written
      cases written.2
    · rfl
  · obtain ⟨content, mode, isFile, -⟩ := stat_of_read isSource
    obtain rfl : old = .file content mode := Except.ok.inj (replaces.led.symm.trans isFile)
    rw [succeeded]
    dsimp only
    rw [if_pos ⟨success, real⟩]
    exact ⟨module, source, strategy, text, rules, content, mode, parent, isModule, isSource,
      transformed, transform_changes transformed, isFile, replaces.stat_after, replaces.above,
      replaces.newFile, fun _ => replaces.elsewhere, by rw [replaces.result]; rfl⟩

/-- A directory with a file that exports a component, and a link to it. -/
def linkedSource : Disk :=
  { tree := .directory [("a.tsx", .link ⟨"", ["b.tsx"]⟩),
      ("b.tsx", .file "export default A\n".toUTF8 0o640)]
    workingDirectory := ⟨"/", []⟩ }

/-- A wrap by way of a link puts a file in the link's place; the file that the link led to stays. -/
theorem wrapFile_replaces_link :
    ∃ outcome after text, (wrapFile {} linkedSource ⟨⟨"", ["a.tsx"]⟩, "A", "w", some "m", none⟩
        false).value = .ok (outcome, after)
      ∧ outcome.isSuccess = true
      ∧ after.tree.get? ["a.tsx"] = some (.file text 0o640)
      ∧ after.tree.get? ["b.tsx"] = some (.file "export default A\n".toUTF8 0o640) := by
  have general := wrapFile_all_or_nothing {} linkedSource
    ⟨⟨"", ["a.tsx"]⟩, "A", "w", some "m", none⟩ false
  have succeeds : (match (wrapFile {} linkedSource ⟨⟨"", ["a.tsx"]⟩, "A", "w", some "m", none⟩
      false).value with
    | .ok (outcome, _) => outcome.isSuccess
    | .error _ => false) = true := by decide +kernel
  generalize (wrapFile {} linkedSource _ false).value = answer at general succeeds
  cases answer with
  | error => cases succeeds
  | ok result =>
    obtain ⟨outcome, after⟩ := result
    dsimp only at general succeeds
    rw [if_pos ⟨succeeds, rfl⟩] at general
    obtain ⟨_, _, _, text, _, content, mode, parent, _, _, _, _, isFile, _, above, newFile,
      elsewhere, _⟩ := general
    have mode' : mode = 0o640 := by
      cases isFile
      rfl
    have parent' : parent = [] := by
      cases above
      rfl
    subst mode' parent'
    refine ⟨outcome, after, _, rfl, succeeds, newFile, ?_⟩
    have kept := elsewhere ["b.tsx"] (by decide)
    obtain ⟨entry, isEntry, bare⟩ := Option.map_eq_some_iff.mp kept
    cases entry <;> cases bare
    exact isEntry

end Engine

end RenderProbe
