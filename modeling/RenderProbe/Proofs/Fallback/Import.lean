import RenderProbe.Proofs.Fallback.Prologue

/-!
# Where the fallback puts an import

The import of the wrapper goes behind the last import that is found, in the middle of a line
perhaps, or behind the lines that lead a text. Either way it parts no line before its first quote
and starts one new line, its own, so the export lines of the text stay what they were.

* `sameExports_ensureImport`: a text has the same export lines before and after.
-/

namespace RenderProbe.Fallback

open Text

/-- The lists hold the same lines but for lines that are no exports. -/
def SameExports (first second : List (List Char)) : Prop :=
  ∀ line, ¬ Inert line → (line ∈ first ↔ line ∈ second)

theorem SameExports.trans {first second third : List (List Char)} (left : SameExports first second)
    (right : SameExports second third) : SameExports first third :=
  fun line exported => (left line exported).trans (right line exported)

/-- A line that is no export may be put in anywhere. -/
theorem SameExports.insert {line : List Char} (inert : Inert line)
    (before after : List (List Char)) :
    SameExports (before ++ after) (before ++ line :: after) := by
  intro other exported
  have differs : other ≠ line := by
    rintro rfl
    exact exported inert
  simp [differs]

/-! ## Placing the import -/

/-- The line break of generated lines is one. -/
theorem isNewline_newlineFor (source : String) : IsNewline (Snippet.newlineFor source).toList := by
  unfold Snippet.newlineFor
  split
  · exact .inr rfl
  · exact .inl rfl

theorem IsNewline.fronts_false {newline : List Char} (isNewline : IsNewline newline)
    (rest : List Char) : fronts false (newline ++ rest) = fronts true rest := by
  rcases isNewline with rfl | rfl <;> rfl

theorem IsNewline.fronts_append {newline : List Char} (isNewline : IsNewline newline)
    (text rest : List Char) :
    fronts true (text ++ (newline ++ rest)) = fronts true text ++ fronts true rest := by
  rcases isNewline with rfl | rfl
  · exact fronts_append_stop rfl text true
  · exact fronts_append_stop rfl text true

/-- An import is put between the lines of a text, or into one behind its front. The recognisers look
at fronts of lines only, so they see the same exports. -/
theorem sameExports_ensureImport {statement newline : List Char} (isNewline : IsNewline newline)
    (plain : '\n' ∉ statement) (inert : ∀ rest, Inert (statement ++ rest))
    (text symbol : List Char) :
    SameExports (fronts true text) (fronts true (ensureImport text symbol statement newline)) := by
  have inert' : ∀ rest, Inert (front (statement ++ rest)) :=
    fun rest => inert_front.mpr (inert rest)
  unfold ensureImport
  dsimp only
  split
  · exact fun _ _ => Iff.rfl
  · split
    · next clause stop last =>
      obtain ⟨before, quote, after, isQuoted, plain', cut⟩ :=
        exists_take_import (List.mem_of_getLast? last)
      have isStopped : isStop quote = true ∧ quote ≠ '\n' :=
        ⟨isStop_of_isQuote isQuoted, (ne_of_isQuote isQuoted rfl).symm⟩
      have settled : ∀ rest, fronts true (text.take stop ++ rest) =
          fronts true before ++ fronts false rest := by
        intro rest
        rw [cut, List.append_assoc]
        exact fronts_append_quote isStopped.1 isStopped.2 plain'.2 before rest
      have whole := settled (text.drop stop)
      rw [List.take_append_drop] at whole
      rw [whole, List.append_assoc, List.append_assoc, settled, isNewline.fronts_false,
        fronts_true (statement ++ _), fronts_false_append plain]
      exact .insert (inert' _) _ _
    · obtain ⟨earlier, settled⟩ := (startsLine_prologue text).exists_fronts
      have whole := settled (text.drop (prologueLength text))
      rw [List.take_append_drop] at whole
      rw [whole, List.append_assoc, List.append_assoc, settled,
        fronts_true (statement ++ (newline ++ _)), fronts_false_append plain,
          isNewline.fronts_false]
      exact .insert (inert' _) _ _

end RenderProbe.Fallback
