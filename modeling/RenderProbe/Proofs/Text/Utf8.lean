import RenderProbe.Text.Utf8

/-!
# Texts of files

What a file holds reads back as the text that was put there, but for its line ends: every carriage
return becomes a line feed, alone or with the line feed behind it.
-/

namespace RenderProbe.Text

variable {c : Char} {front rest : List Char}

theorem fromUTF8?_toUTF8 (text : String) : String.fromUTF8? text.toUTF8 = some text := by
  rw [String.fromUTF8?, String.toUTF8_eq_toByteArray, dif_pos text.isValidUTF8]
  rfl

theorem unifyBreaks_return (noFeed : rest.head? ≠ some '\n') :
    unifyBreaks ('\r' :: rest) = '\n' :: unifyBreaks rest := by
  cases rest with
  | nil => rfl
  | cons c rest => rw [unifyBreaks]; simpa using noFeed

theorem unifyBreaks_other (noReturn : c ≠ '\r') (rest : List Char) :
    unifyBreaks (c :: rest) = c :: unifyBreaks rest := by
  rw [unifyBreaks] <;> simp [noReturn]

theorem unifyBreaks_append_cons (other : c ≠ '\n') (before rest : List Char) :
    unifyBreaks (before ++ c :: rest) = unifyBreaks before ++ unifyBreaks (c :: rest) := by
  induction before using unifyBreaks.induct with
  | case1 before ih => simp only [List.cons_append, unifyBreaks, ih]
  | case2 before noFeed ih =>
    have noFeed : before.head? ≠ some '\n' := by
      intro feed
      obtain ⟨rest, rfl⟩ := List.head?_eq_some_iff.mp feed
      exact noFeed rest rfl
    have noFeed' : (before ++ c :: rest).head? ≠ some '\n' := by
      cases before with
      | nil => simpa using other
      | cons d before => simpa using noFeed
    rw [List.cons_append, unifyBreaks_return noFeed, unifyBreaks_return noFeed', ih,
      List.cons_append]
  | case3 d before noReturn noReturn' ih =>
    have other : d ≠ '\r' := fun same => noReturn' same
    rw [List.cons_append, unifyBreaks_other other, unifyBreaks_other other, ih, List.cons_append]
  | case4 => rfl

theorem unifyBreaks_append_of_no_return (noReturn : '\r' ∉ front) (rest : List Char) :
    unifyBreaks (front ++ rest) = front ++ unifyBreaks rest := by
  induction front with
  | nil => rfl
  | cons c front ih =>
    obtain ⟨other, noReturn⟩ := not_or.mp (mt List.mem_cons.mpr noReturn)
    rw [List.cons_append, unifyBreaks_other (Ne.symm other), ih noReturn, List.cons_append]

/-- A text without carriage returns is read as it is. -/
theorem withUnifiedBreaks_of_no_return {text : String} (noReturn : '\r' ∉ text.toList) :
    withUnifiedBreaks text = text := by
  have unified := unifyBreaks_append_of_no_return noReturn []
  rw [List.append_nil, unifyBreaks, List.append_nil] at unified
  rw [withUnifiedBreaks, unified, String.ofList_toList]

end RenderProbe.Text
