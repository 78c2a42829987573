import RenderProbe.Proofs.Fallback.Conservation

/-!
# The fallback keeps the line style

Each edit of the fallback swaps a stretch inside a line, the lines it adds end in the style of the
text, and the import goes behind a quote and characters of the quote's line, or between two lines.
None of these is inside a line break.

* `Edited.Keeps`: the text so far and the lines to add are of a style; each edit keeps that.
* `keeps_ensureImport`: the import is put at no inside of a line break.
* `keeps_transform`: the output of the fallback is of the style of its text.
-/

namespace RenderProbe.Fallback

open Text
open Text.LineStyle

/-- The text and the lines to add are of the style. -/
structure Edited.Keeps (style : LineStyle) (edited : Edited) : Prop where
  text : style.Keeps edited.text
  appended : ∀ line ∈ edited.appended, style.Keeps line

section Edits

variable {style : LineStyle} {quotes : QuoteStyle} {symbol name : String} {edited : Edited}

/-- Keywords can be taken off a line without touching its break. -/
theorem keeps_demote {before indentation keywords declaration : List Char}
    (keeps : style.Keeps (before ++ (indentation ++ keywords ++ declaration)))
    (smooth : Smooth keywords) (nonempty : keywords ≠ []) :
    style.Keeps (before ++ indentation ++ declaration) := by
  have keeps' : style.Keeps (before ++ indentation ++ keywords ++ declaration) := by
    simpa only [List.append_assoc] using keeps
  simpa using keeps'.swap (plain_of_smooth smooth) nonempty keeps_nil

theorem Edited.Keeps.demote {text line : List Char} {rules : List Wrap.Rule}
    (keeps : edited.Keeps style) (keepsText : style.Keeps text) (keepsLine : style.Keeps line) :
    Edited.Keeps style ⟨text, rules, edited.appended ++ [line]⟩ where
  text := keepsText
  appended other member := by
    rcases List.mem_append.mp member with earlier | last
    · exact keeps.appended other earlier
    · rw [List.mem_singleton.mp last]
      exact keepsLine

theorem wordAndGap_ne_nil {word : String} {text : List Char} (isWord : WordAndGap word text) :
    text ≠ [] := by
  obtain ⟨gap, wide, -, rfl⟩ := isWord
  simp [wide]

variable (keepsSymbol : style.Keeps symbol.toList) (isName : isComponentName name.toList = true)

include keepsSymbol isName

theorem Edited.Keeps.editReference (keeps : edited.Keeps style) :
    (editReference quotes symbol name edited).Keeps style := by
  have plain : Plain name.toList := plain_of_smooth (smooth_of_isComponentName isName)
  have nonempty := (isNameChar_of_isComponentName isName).1
  unfold Fallback.editReference
  split
  · exact keeps
  · next before keywords after found =>
    obtain ⟨line, split, -, recognised⟩ := searchLines_eq_some found
    obtain ⟨indentation, words, -, -, -, -, rfl⟩ := defaultReference?_eq_some recognised
    refine ⟨?_, keeps.appended⟩
    have keepsText := keeps.text
    rw [split, ← List.append_assoc, ← List.append_assoc] at keepsText
    exact keepsText.swap plain nonempty
      (keeps_wrapCall quotes keepsSymbol (keeps_of_plain plain) (keeps_of_plain plain))

theorem Edited.Keeps.editDefault (keeps : edited.Keeps style) :
    (editDefault quotes symbol name edited).Keeps style := by
  have plain : Plain name.toList := plain_of_smooth (smooth_of_isComponentName isName)
  unfold Fallback.editDefault
  split
  · exact keeps
  · split
    · exact keeps
    · next before indentation declaration found =>
      obtain ⟨line, split, -, recognised⟩ := searchLines_eq_some found
      obtain ⟨keywords, -, isKeywords, -, rfl⟩ := defaultDeclaration?_eq_some recognised
      have nonempty : keywords ≠ [] := by
        obtain ⟨first, second, isFirst, -, rfl⟩ := isKeywords
        simp [wordAndGap_ne_nil isFirst]
      exact keeps.demote
        (keeps_demote (split ▸ keeps.text) (smooth_of_defaultKeywords isKeywords) nonempty)
        (keeps_defaultExport quotes keepsSymbol (keeps_of_plain plain))

theorem Edited.Keeps.editFunction (keeps : edited.Keeps style) :
    (editFunction quotes symbol name edited).Keeps style := by
  have plain : Plain name.toList := plain_of_smooth (smooth_of_isComponentName isName)
  unfold Fallback.editFunction
  split
  · exact keeps
  · split
    · exact keeps
    · next before indentation declaration found =>
      obtain ⟨line, split, -, recognised⟩ := searchLines_eq_some found
      obtain ⟨keywords, -, isKeyword, -, rfl⟩ := namedFunction?_eq_some recognised
      exact keeps.demote
        (keeps_demote (split ▸ keeps.text) (smooth_of_wordAndGap smooth_export isKeyword)
          (wordAndGap_ne_nil isKeyword))
        (keeps_namedExport quotes keepsSymbol (keeps_of_plain plain))

/-- All edits keep the style of a text. -/
theorem keeps_edit {text : List Char} (keeps : style.Keeps text) :
    (edit quotes symbol name text).Keeps style :=
  have start : Edited.Keeps style ⟨text, [], []⟩ := ⟨keeps, by simp⟩
  ((start.editReference keepsSymbol isName).editDefault keepsSymbol isName).editFunction keepsSymbol
    isName

end Edits

section Lines

variable {style : LineStyle} {text symbol newline statement : List Char} {edited : Edited}

theorem keeps_withAppended (keeps : edited.Keeps style) (keepsNewline : style.Keeps newline) :
    style.Keeps (withAppended newline edited) := by
  unfold withAppended
  dsimp only
  split
  · exact keeps.text
  · refine (keeps.text.append ?_).append
      (keeps_flatMap fun line member => (keeps.appended line member).append keepsNewline)
    split
    · exact keepsNewline
    · exact keeps_nil

/-- The import is put at no inside of a line break. -/
theorem keeps_ensureImport (keeps : style.Keeps text) (keepsStatement : style.Keeps statement)
    (keepsNewline : style.Keeps newline) :
    style.Keeps (ensureImport text symbol statement newline) := by
  unfold ensureImport
  dsimp only
  split
  · exact keeps
  · split
    · next clause stop last =>
      obtain ⟨before, quote, after, isQuoted, plain, cut⟩ :=
        exists_take_import (List.mem_of_getLast? last)
      have whole : ¬ Parts (text.take stop) (text.drop stop) := by
        have plainQuote : '\r' ∉ quote :: after := by
          intro member
          rcases List.mem_cons.mp member with rfl | later
          · cases isQuoted
          · exact plain.1 later
        rw [cut, parts_append (List.cons_ne_nil _ _)]
        exact not_parts_of_notMem plainQuote
      rw [← List.take_append_drop stop text] at keeps
      obtain ⟨front, back⟩ := keeps.of_append whole
      exact ((front.append keepsNewline).append keepsStatement).append back
    · have whole : ¬ Parts (text.take (prologueLength text)) (text.drop (prologueLength text)) := by
        rcases startsLine_prologue text with empty | ends
        · rw [empty]
          exact not_parts_nil _
        · exact fun parts => by simp [parts.1] at ends
      rw [← List.take_append_drop (prologueLength text) text] at keeps
      obtain ⟨front, back⟩ := keeps.of_append whole
      exact ((front.append keepsStatement).append keepsNewline).append back

end Lines

/-- The output of the fallback is of the style of its text. -/
theorem keeps_transform {style : LineStyle} {quotes : QuoteStyle} {text name output : String}
    {target : ImportTarget} {rules : List Wrap.Rule} (shown : style.Shown text.toList)
    (keepsSymbol : style.Keeps target.symbol.toList)
    (keepsModule : style.Keeps target.module.toList)
    (answer : transform quotes text name target = .wrapped output rules) :
    style.Keeps output.toList := by
  obtain ⟨isName, isOutput⟩ := transform_eq_wrapped answer
  have keepsNewline := keeps_newlineFor shown
  have edited : (edit quotes target.symbol name text.toList).Keeps style :=
    keeps_edit keepsSymbol isName shown.keeps
  rw [isOutput]
  exact keeps_ensureImport (keeps_withAppended edited keepsNewline)
    (keeps_importStatement quotes keepsSymbol keepsModule) keepsNewline

end RenderProbe.Fallback
