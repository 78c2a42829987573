import Mathlib.Data.List.TakeWhile
import RenderProbe.Text.Letter

/-!
# Lowercase forms of parts

The lowercase form of a text depends on its neighbours only at a capital sigma, and only within a
word. So behind a character at which words end, a text has the form that it has by itself.

* `suffix_lowerFrom_append`: the form of a text ends with the form of what stands behind such a
  character.
* `trimBlanks_ne_nil_of_mem`: a text with something in its lowercase form that is no blank is not
  blank.
* `suffix_lowerFrom_iff`: the form of a text ends with a suffix of file names exactly if the text
  does, in letters of either case.
-/

namespace RenderProbe.Text

/-! ## Words -/

section Words

variable {c : Char}

/-- Words end at the character: it is no letter with a case and does not stand inside words. -/
def EndsWords (c : Char) : Prop :=
  isCased c = false ∧ isWordInner c = false

instance (c : Char) : Decidable (EndsWords c) :=
  inferInstanceAs (Decidable (_ ∧ _))

theorem closesWord_append (ends : EndsWords c) (before above after : List Char) :
    closesWord (before ++ c :: above) after = closesWord before after := by
  have front : ((before ++ c :: above).dropWhile isWordInner).head?.any isCased =
      (before.dropWhile isWordInner).head?.any isCased := by
    rw [List.dropWhile_append]
    cases left : before.dropWhile isWordInner with
    | nil => simp [ends.1, ends.2]
    | cons => simp
  rw [closesWord, front, closesWord]

theorem lowerFrom_of_endsWords (ends : EndsWords c) (before above text : List Char) :
    lowerFrom (before ++ c :: above) text = lowerFrom before text := by
  induction text generalizing before with
  | nil => rfl
  | cons first rest ih =>
    rw [lowerFrom, lowerFrom, closesWord_append ends, ← List.cons_append, ih]

theorem suffix_lowerFrom (before front text : List Char) :
    lowerFrom (front.reverse ++ before) text <:+ lowerFrom before (front ++ text) := by
  induction front generalizing before with
  | nil => exact List.suffix_refl _
  | cons first rest ih =>
    have later := ih (first :: before)
    rw [List.reverse_cons, List.append_assoc, List.singleton_append, List.cons_append, lowerFrom]
    exact later.trans (List.suffix_append ..)

/-- Behind a character at which words end, a text has the lowercase form that it has by itself. So
the lowercase form of a path ends with that of its last name. -/
theorem suffix_lowerFrom_append (ends : EndsWords c) (front text : List Char) :
    lowerFrom [] text <:+ lowerFrom [] (front ++ c :: text) := by
  have suffix := suffix_lowerFrom [] (front ++ [c]) text
  rw [List.append_nil, List.reverse_append, List.reverse_singleton, List.singleton_append,
    List.append_assoc, List.singleton_append] at suffix
  rwa [← lowerFrom_of_endsWords ends [] front.reverse text]

end Words

/-! ## Blanks -/

section Blanks

variable {c : Char} {text : List Char}

/-- The codes of blanks. -/
def blankCodes : List Nat :=
  List.range' 9 5 ++ List.range' 28 5 ++ [0x85, 0xA0, 0x1680] ++ List.range' 0x2000 11
    ++ [0x2028, 0x2029, 0x202F, 0x205F, 0x3000]

theorem mem_blankCodes (blank : isBlank c = true) : c.toNat ∈ blankCodes := by
  simp only [isBlank, Bool.or_eq_true, Bool.and_eq_true, decide_eq_true_eq, beq_iff_eq] at blank
  simp only [blankCodes, List.mem_append, List.mem_range'_1, List.mem_cons, List.not_mem_nil]
  omega

theorem lower_of_mem_blankCodes :
    ∀ code ∈ blankCodes, Char.ofNat code ≠ 'Σ'
      ∧ lowerChar (Char.ofNat code) = [Char.ofNat code] := by
  decide +kernel

/-- Blanks are their own lowercase form. -/
theorem lowerFrom_of_blank (blank : ∀ c ∈ text, isBlank c = true) (before : List Char) :
    lowerFrom before text = text := by
  induction text generalizing before with
  | nil => rfl
  | cons first rest ih =>
    rw [List.forall_mem_cons] at blank
    obtain ⟨notSigma, lower⟩ := lower_of_mem_blankCodes _ (mem_blankCodes blank.1)
    rw [Char.ofNat_toNat] at notSigma lower
    simp [lowerFrom, notSigma, lower, ih blank.2]

theorem blank_of_trimBlanks_eq_nil (trimmed : trimBlanks text = []) :
    ∀ c ∈ text, isBlank c = true := by
  rw [trimBlanks, List.reverse_eq_nil_iff, List.dropWhile_eq_nil_iff] at trimmed
  refine List.dropWhile_eq_nil_iff.mp ?_
  cases left : text.dropWhile isBlank with
  | nil => rfl
  | cons first rest =>
    -- What is left starts with something that is no blank.
    have blank := trimmed first (by simp [left])
    have notBlank := List.head_dropWhile_not isBlank (by rw [left]; simp)
    simp only [left, List.head_cons] at notBlank
    rw [blank] at notBlank
    cases notBlank

/-- A text is not blank if its lowercase form is not. -/
theorem trimBlanks_ne_nil_of_mem (isMember : c ∈ lowerFrom [] text) (notBlank : isBlank c = false) :
    trimBlanks text ≠ [] := by
  intro trimmed
  have blank := blank_of_trimBlanks_eq_nil trimmed
  rw [lowerFrom_of_blank blank] at isMember
  rw [blank c isMember] at notBlank
  cases notBlank

end Blanks

/-! ## Suffixes of file names -/

section Suffixes

variable {c d : Char} {ending text : List Char}

/-- The characters of the suffixes of source files. Apart from themselves, only their capital
letters have them in their lowercase form. -/
def suffixChars : List Char :=
  ".tsxjmc".toList

theorem code_of_mem_suffixChars (member : c ∈ suffixChars) : 0 < c.toNat ∧ c.toNat < 128 := by
  have codes : ∀ code ∈ suffixChars.map Char.toNat, 0 < code ∧ code < 128 := by decide
  exact codes _ (List.mem_map_of_mem member)

/-- No run of the table but that of the first letters maps to a character of a suffix. -/
theorem apart_of_mem_lowercaseRuns : ∀ run ∈ lowercaseRuns, run.2.1 < 128
    ∨ ∀ code ∈ suffixChars.map Char.toNat,
      (code : Int) < run.1 + run.2.2.2 ∨ run.2.1 + run.2.2.2 < (code : Int) := by
  decide +kernel

theorem lowerCode_ne {code : Nat} (high : 128 ≤ code) (member : c ∈ suffixChars) :
    lowerCode code ≠ c.toNat := by
  have range := code_of_mem_suffixChars member
  unfold lowerCode
  split
  · next first last step shift found =>
    have inRun := List.find?_some found
    simp only [Bool.and_eq_true, decide_eq_true_eq] at inRun
    rcases apart_of_mem_lowercaseRuns _ (List.mem_of_find?_eq_some found) with low | apart
    · dsimp only at low
      omega
    · have apart := apart c.toNat (List.mem_map_of_mem member)
      dsimp only at apart
      omega
  · omega

theorem toNat_ofNat_cases (code : Nat) :
    (Char.ofNat code).toNat = code ∨ (Char.ofNat code).toNat = 0 := by
  by_cases valid : code.isValidChar
  · rw [Char.ofNat, dif_pos valid]
    exact .inl rfl
  · rw [Char.ofNat, dif_neg valid]
    exact .inr rfl

/-- A character beyond the first 128 has none of a suffix in its lowercase form. -/
theorem notMem_lowerChar (high : 128 ≤ c.toNat) (member : d ∈ suffixChars) : d ∉ lowerChar c := by
  unfold lowerChar
  rw [if_neg (by omega)]
  split
  · simp only [List.mem_cons, List.not_mem_nil, or_false]
    rintro (rfl | rfl) <;> exact absurd member (by decide)
  · rw [List.mem_singleton]
    rintro rfl
    have range := code_of_mem_suffixChars member
    rcases toNat_ofNat_cases (lowerCode c.toNat) with same | zero
    · exact lowerCode_ne high member same.symm
    · omega

/-- The lowercase form of a text starts with that of its first character: the small letter, or
characters of which no suffix has one. -/
theorem lowerFrom_cons (before : List Char) (c : Char) (text : List Char) : ∃ form,
    lowerFrom before (c :: text) = form ++ lowerFrom (c :: before) text ∧ form ≠ []
      ∧ (form = [c.toLower] ∨ c.toLower ∉ suffixChars ∧ ∀ d ∈ form, d ∉ suffixChars) := by
  rw [lowerFrom]
  refine ⟨_, rfl, ?_⟩
  by_cases sigma : c = 'Σ'
  · subst sigma
    refine ⟨by simp, .inr ⟨by decide, fun d member => ?_⟩⟩
    simp only [beq_self_eq_true, if_true, List.mem_singleton] at member
    subst member
    split <;> decide
  · rw [if_neg (by simpa using sigma)]
    by_cases low : c.toNat < 128
    · have form : lowerChar c = [c.toLower] := by rw [lowerChar, if_pos low]
      exact ⟨by simp [form], .inl form⟩
    · refine ⟨?_, .inr ⟨fun member => ?_, fun d isMember member =>
        notMem_lowerChar (by omega) member isMember⟩⟩
      · unfold lowerChar
        rw [if_neg low]
        split <;> simp
      · -- a letter that is not of the first 128 is its own small letter there
        have same : c.toLower = c := by
          unfold Char.toLower
          refine dif_neg fun between => low ?_
          have last : c.toNat ≤ 'Z'.toNat := UInt32.le_iff_toNat_le.mp between.2
          exact Nat.lt_of_le_of_lt last (by decide)
        rw [same] at member
        exact low (code_of_mem_suffixChars member).2

/-- A text in small letters that suffixes may have is its lowercase form. -/
theorem lowerFrom_of_forall (plain : ∀ c ∈ text.map Char.toLower, c ∈ suffixChars)
    (before : List Char) :
    lowerFrom before text = text.map Char.toLower := by
  induction text generalizing before with
  | nil => rfl
  | cons c text ih =>
    rw [List.map_cons, List.forall_mem_cons] at plain
    obtain ⟨form, split, -, rfl | ⟨other, -⟩⟩ := lowerFrom_cons before c text
    · rw [split, ih plain.2]
      rfl
    · exact absurd plain.1 other

theorem length_le_lowerFrom (text before : List Char) :
    text.length ≤ (lowerFrom before text).length := by
  induction text generalizing before with
  | nil => exact Nat.zero_le _
  | cons c text ih =>
    obtain ⟨form, split, some, -⟩ := lowerFrom_cons before c text
    have longer := ih (c :: before)
    have positive := List.length_pos_iff.mpr some
    rw [split, List.length_append, List.length_cons]
    omega

/-- A text ends with a suffix in its lowercase form exactly if it does when only the 26 letters are
taken for letters. -/
theorem suffix_lowerFrom_iff (plain : ∀ c ∈ ending, c ∈ suffixChars) (before text : List Char) :
    ending <:+ lowerFrom before text ↔ ending <:+ text.map Char.toLower := by
  induction text generalizing before ending with
  | nil => rfl
  | cons c text ih =>
    obtain ⟨form, split, some, isForm⟩ := lowerFrom_cons before c text
    rw [split, List.map_cons, List.suffix_cons_iff]
    constructor
    · intro isSuffix
      rcases List.suffix_or_suffix_of_suffix isSuffix (List.suffix_append form _) with
        later | ⟨front, rfl⟩
      · exact .inr ((ih plain (c :: before)).mp later)
      · obtain ⟨passed, whole⟩ := isSuffix
        rw [← List.append_assoc, List.append_cancel_right_eq] at whole
        have plainRest : ∀ d ∈ lowerFrom (c :: before) text, d ∈ suffixChars :=
          fun d member => plain d (List.mem_append_right _ member)
        have later := (ih plainRest (c :: before)).mp (List.suffix_refl _)
        cases front with
        | nil => exact .inr later
        | cons d front =>
          -- the suffix takes in a part of the first form, so this is one small letter
          have inForm : d ∈ form := whole ▸ List.mem_append_right _ List.mem_cons_self
          rcases isForm with rfl | ⟨-, others⟩
          · have rest := later.eq_of_length_le (by
              rw [List.length_map]
              exact length_le_lowerFrom text _)
            have only : passed ++ d :: front = [c.toLower] := whole
            simp only [List.append_eq_singleton_iff, List.cons.injEq, reduceCtorEq, and_false,
              or_false] at only
            obtain ⟨-, rfl, rfl⟩ := only
            exact .inl (by rw [rest]; rfl)
          · exact absurd (plain d (by simp)) (others d inForm)
    · rintro (rfl | later)
      · rw [List.forall_mem_cons] at plain
        rcases isForm with rfl | ⟨other, -⟩
        · rw [lowerFrom_of_forall plain.2]
          exact List.suffix_refl _
        · exact absurd plain.1 other
      · exact ((ih plain (c :: before)).mpr later).trans (List.suffix_append ..)

end Suffixes

end RenderProbe.Text
