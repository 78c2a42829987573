import RenderProbe.Proofs.Diff.Faithful
import RenderProbe.Proofs.Engine.WrapFile
import RenderProbe.Proofs.Text.Utf8

/-!
# The diff that a wrap reports

A wrap that has success reports the diff from the text of its file to the wrapped one, in a dry run
as well as when it writes the file. Whoever applies the diff to the old text gets the wrapped one,
unless a line that goes is not ended and the next line of the diff is joined to it.

* `wrapFile_reported`: what is reported, and what the disk holds then.
* `reported_diff_applies`: what becomes of the old text if the diff is applied to it.
* `reported_diff_joins_lines`: the diff of a file whose only line has no end does not fit the file.
-/

namespace RenderProbe.Engine

open Diff (ReadAlike applyDiff diffLines)

section Reported

variable {engine : Engine} {disk after : Disk} {request : WrapRequest} {dryRun : Bool}
  {outcome : WrapOutcome} {diff : String}

/-- What is reported is the diff between the text that was read and the wrapped text; a dry run
leaves the disk, and any other leaves a file of the wrapped text. -/
theorem wrapFile_reported
    (succeeded : (engine.wrapFile disk request dryRun).value = .ok (outcome, after))
    (reported : outcome.diff? = some diff) :
    ∃ module source strategy text rules, moduleFor disk request = .ok module
      ∧ SourceFile.read disk request.path = .ok source
      ∧ engine.transform source.text request.component module request.path.name
        (some request.symbol) = .ok ⟨strategy, .wrapped text rules⟩
      ∧ diff = Diff.unified request.path.name source.text text
      ∧ (dryRun = true → after = disk)
      ∧ (dryRun = false → ∃ mode, after.stat request.path = .ok (.file text.toUTF8 mode)) := by
  unfold wrapFile at succeeded
  split at succeeded
  · cases succeeded
  · cases succeeded
  · next module source isModule isSource =>
    rw [Logged.value_bind] at succeeded
    dsimp only at succeeded
    split at succeeded
    · cases succeeded
    · next wrapped transformed =>
      obtain ⟨strategy, result⟩ := wrapped
      dsimp only at succeeded
      cases result with
      | untouched reason =>
        cases succeeded
        cases reported
      | wrapped text rules =>
        refine ⟨module, source, strategy, text, rules, isModule, isSource, transformed, ?_⟩
        cases dryRun with
        | true =>
          cases succeeded
          cases reported
          exact ⟨rfl, fun _ => rfl, fun real => absurd real (by decide)⟩
        | false =>
          simp only [SourceFile.write, Bool.false_eq_true, if_false] at succeeded
          rcases Disk.replaceFile_cases disk request.path text with
            ⟨e, failed⟩ | ⟨written, parent, old, replaced, replaces⟩
          · rw [failed] at succeeded
            cases succeeded
          · rw [replaced] at succeeded
            cases succeeded
            cases reported
            obtain ⟨content, mode, isFile, -⟩ := stat_of_read isSource
            obtain rfl : old = .file content mode := Except.ok.inj (replaces.led.symm.trans isFile)
            exact ⟨rfl, fun dry => absurd dry (by decide), fun _ => ⟨mode, replaces.stat_after⟩⟩

/-- The diff that a wrap reports, dry or not, is put together from lines. It is read by line feeds
and applied to the text of the file: if both texts are cut alike up to its last hunk, this gives the
wrapped text in case each of the lines but the last ends with a line feed, and cannot be done in any
other case. A file that ends with a line feed has such a diff. -/
theorem reported_diff_applies
    (succeeded : (engine.wrapFile disk request dryRun).value = .ok (outcome, after))
    (reported : outcome.diff? = some diff) :
    ∃ module source strategy text rules, moduleFor disk request = .ok module
      ∧ SourceFile.read disk request.path = .ok source
      ∧ engine.transform source.text request.component module request.path.name
        (some request.symbol) = .ok ⟨strategy, .wrapped text rules⟩
      ∧ (dryRun = true → after = disk)
      ∧ (dryRun = false → ∃ mode, after.stat request.path = .ok (.file text.toUTF8 mode))
      ∧ diff.toList = (diffLines request.path.name source.text text).flatten
      ∧ ('\n' ∉ request.path.name.toList → ReadAlike source.text text →
        (applyDiff diff.toList source.text.toList =
          if ∀ line ∈ (diffLines request.path.name source.text text).dropLast,
            line.getLast? = some '\n' then
            some text.toList
          else none)
        ∧ (source.text.toList.getLast? = some '\n' →
          applyDiff diff.toList source.text.toList = some text.toList)) := by
  obtain ⟨module, source, strategy, text, rules, isModule, isSource, transformed, rfl, dry, real⟩ :=
    wrapFile_reported succeeded reported
  refine ⟨module, source, strategy, text, rules, isModule, isSource, transformed, dry, real,
    Diff.toList_unified _ _ _, fun plain alike => ?_⟩
  have differ : source.text ≠ text := (transform_changes transformed).symm
  have applied := Diff.applyDiff_unified alike plain differ
  refine ⟨applied, fun feed => ?_⟩
  rw [applied, if_pos (Diff.ended_of_getLast? alike plain differ feed)]

end Reported

/-! ## One file -/

/-- A wrap in a file has success. -/
def wraps (engine : Engine) (disk : Disk) (request : WrapRequest) (dryRun : Bool) : Bool :=
  match (engine.wrapFile disk request dryRun).value with
  | .ok (outcome, _) => outcome.diff?.isSome
  | .error _ => false

theorem exists_of_wraps {engine : Engine} {disk : Disk} {request : WrapRequest} {dryRun : Bool}
    (succeeds : engine.wraps disk request dryRun = true) :
    ∃ outcome after diff, (engine.wrapFile disk request dryRun).value = .ok (outcome, after)
      ∧ outcome.diff? = some diff := by
  unfold wraps at succeeds
  split at succeeds
  · next outcome after answer =>
    obtain ⟨diff, reported⟩ := Option.isSome_iff_exists.mp succeeds
    exact ⟨outcome, after, diff, answer, reported⟩
  · cases succeeds

/-- A directory with one file. -/
def holding (text : String) : Disk :=
  { tree := .directory [("a.tsx", .file text.toUTF8 0o644)]
    workingDirectory := ⟨"/", []⟩ }

/-- The wish to wrap what the file exports. -/
def wrapDefault : WrapRequest :=
  ⟨⟨"", ["a.tsx"]⟩, "A", "w", some "m", none⟩

theorem text_of_holding {text : String} {source : SourceFile}
    (read : SourceFile.read (holding text) wrapDefault.path = .ok source) : source.text = text := by
  obtain ⟨content, mode, isFile, decoded⟩ := stat_of_read read
  have isText : (holding text).stat wrapDefault.path = .ok (.file text.toUTF8 0o644) := rfl
  cases isText.symm.trans isFile
  exact Option.some.inj (decoded.symm.trans (Text.fromUTF8?_toUTF8 text))

/-- A default export with a line feed at its end. -/
def endedText : String :=
  "export default A\n"

/-- What a wrap makes of it. -/
def endedOutput : String :=
  "import \x7b w \x7d from 'm';\nexport default w(A, 'A')\n"

/-- A file that ends with a line feed is wrapped, and the diff makes the new text of the old one. -/
theorem reported_diff_applies_ended :
    ∃ outcome after diff, (wrapFile {} (holding endedText) wrapDefault false).value
      = .ok (outcome, after)
      ∧ outcome.diff? = some diff
      ∧ applyDiff diff.toList endedText.toList = some endedOutput.toList := by
  have produced : transform {} endedText "A" "m" "a.tsx" (some "w") =
      .ok ⟨.syntaxTree, .wrapped endedOutput [.defaultIdentifier]⟩ := by decide +kernel
  have alike : ReadAlike endedText endedOutput :=
    ⟨Diff.cutAlike_of_ended (by decide +kernel) _, Diff.cutAlike_of_ended (by decide +kernel) _⟩
  have succeeds : wraps {} (holding endedText) wrapDefault false = true := by decide +kernel
  obtain ⟨outcome, after, diff, answer, reported⟩ := exists_of_wraps succeeds
  obtain ⟨module, source, strategy, text, rules, isModule, isSource,
    transformed, -, -, -, faithful⟩ :=
    reported_diff_applies answer reported
  rw [text_of_holding isSource] at transformed faithful
  cases isModule
  cases produced.symm.trans transformed
  exact ⟨outcome, after, diff, answer, reported,
    (faithful (by decide) alike).2 (by decide +kernel)⟩

/-- A default export with nothing behind it. -/
def openText : String :=
  "export default A"

/-- What a wrap makes of it. -/
def openOutput : String :=
  "import \x7b w \x7d from 'm';\nexport default w(A, 'A')"

/-- A file whose only line has no end is wrapped as well, but the diff cannot be applied to it. -/
theorem reported_diff_joins_lines :
    ∃ outcome diff,
      (wrapFile {} (holding openText) wrapDefault true).value = .ok (outcome, holding openText)
      ∧ outcome.diff? = some diff
      ∧ diff = Diff.unified "a.tsx" openText openOutput
      ∧ applyDiff diff.toList openText.toList = none := by
  have produced : transform {} openText "A" "m" "a.tsx" (some "w") =
      .ok ⟨.syntaxTree, .wrapped openOutput [.defaultIdentifier]⟩ := by decide +kernel
  have alike : ReadAlike openText openOutput :=
    ⟨Diff.cutAlike_of_ended (by decide +kernel) _, Diff.cutAlike_of_ended (by decide +kernel) _⟩
  have apart :
      ∀ line ∈ Diff.textLines openText, line ∉ Diff.textLines openOutput := by decide +kernel
  have succeeds : wraps {} (holding openText) wrapDefault true = true := by decide +kernel
  obtain ⟨outcome, after, diff, answer, reported⟩ := exists_of_wraps succeeds
  obtain ⟨module, source, strategy, text, rules, isModule, isSource, transformed, isDiff, dry, -⟩ :=
    wrapFile_reported answer reported
  rw [text_of_holding isSource] at transformed isDiff
  cases isModule
  cases produced.symm.trans transformed
  obtain rfl := dry rfl
  refine ⟨outcome, diff, answer, reported, isDiff, ?_⟩
  rw [isDiff]
  exact Diff.applyDiff_unified_of_disjoint apart alike (by decide)
    (by decide) (by decide) (by decide)

end RenderProbe.Engine
