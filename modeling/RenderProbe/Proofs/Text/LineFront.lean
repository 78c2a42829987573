import Mathlib.Data.List.TakeWhile
import RenderProbe.Text.Match

/-!
# The fronts of lines

Searching tries a recogniser at every line start and gives it the whole rest of the text. A
recogniser that reads neither line breaks nor quotes sees the front of the line only, up to the
first of these, so what is found in a text is decided by the fronts of its lines.

* `searchLines_isSome_iff`: such a recogniser finds something exactly if it accepts the front of a
  line.
* `fronts_append_stop`: the fronts before a line break or a quote do not depend on what follows.
* `wordThenIndent?_front` and its siblings: recognisers read the same from a text and from its
  front.
-/

namespace RenderProbe.Text

/-- A line break or a quote. -/
def isStop (c : Char) : Bool :=
  c == '\n' || c == '\r' || c == '\'' || c == '"'

/-- The characters have neither line breaks nor quotes. -/
def Smooth (text : List Char) : Prop :=
  ∀ c ∈ text, isStop c = false

instance (text : List Char) : Decidable (Smooth text) :=
  List.decidableBAll (fun c => isStop c = false) text

/-- The text up to the first line break or quote. -/
def front (text : List Char) : List Char :=
  text.takeWhile fun c => !isStop c

/-- The fronts of the lines of a text; `lineStart` says whether the text starts a line. -/
def fronts (lineStart : Bool) : List Char → List (List Char)
  | [] => if lineStart then [[]] else []
  | c :: rest => (if lineStart then [front (c :: rest)] else []) ++ fronts (c == '\n') rest

/-! ## Fronts -/

section Fronts

variable {text before after rest : List Char} {c : Char}

@[simp] theorem front_nil : front [] = [] := rfl

theorem front_cons (c : Char) (text : List Char) :
    front (c :: text) = if isStop c then [] else c :: front text := by
  rw [front, List.takeWhile_cons]
  cases isStop c <;> rfl

/-- A front ends at the first line break or quote, whatever comes then. -/
theorem front_append_stop (stop : isStop c = true) (before : List Char) :
    front (before ++ c :: rest) = front before := by
  induction before with
  | nil => simp [front_cons, stop]
  | cons d before ih => simp only [List.cons_append, front_cons, ih]

theorem lineFeed_notMem_of_smooth (smooth : Smooth text) : '\n' ∉ text := by
  intro member
  have smooth := smooth _ member
  cases smooth

/-- The first line of a text, and the lines that start later. -/
theorem fronts_true (text : List Char) : fronts true text = front text :: fronts false text := by
  cases text <;> rfl

/-- A line that is under way stays so until a line feed. -/
theorem fronts_false_append (plain : '\n' ∉ before) :
    fronts false (before ++ rest) = fronts false rest := by
  induction before with
  | nil => rfl
  | cons c before ih =>
    rw [List.mem_cons, not_or] at plain
    have other : (c == '\n') = false := by simpa using Ne.symm plain.1
    rw [List.cons_append, fronts, other]
    exact ih plain.2

/-- Before a line break or a quote no front reaches further. -/
theorem fronts_append_stop (stop : isStop c = true) (before : List Char) (lineStart : Bool) :
    fronts lineStart (before ++ c :: rest)
      = fronts lineStart before ++ fronts (c == '\n') rest := by
  induction before generalizing lineStart with
  | nil => simp [fronts, front_cons, stop]
  | cons d before ih =>
    have same : front (d :: (before ++ c :: rest)) = front (d :: before) :=
      front_append_stop stop (d :: before)
    rw [List.cons_append, fronts, fronts, same, ih, List.append_assoc]

theorem fronts_append_lineFeed (before rest : List Char) :
    fronts true (before ++ '\n' :: rest) = fronts true before ++ fronts true rest :=
  fronts_append_stop rfl before true

/-- Behind a quote and characters of its line. -/
theorem fronts_append_quote (stop : isStop c = true) (inLine : c ≠ '\n') (plain : '\n' ∉ after)
    (before rest : List Char) :
    fronts true (before ++ c :: (after ++ rest)) = fronts true before ++ fronts false rest := by
  have other : (c == '\n') = false := by simpa using inLine
  rw [fronts_append_stop stop, other, fronts_false_append plain]

/-- A text that is empty or ends a line. -/
def StartsLine (before : List Char) : Prop :=
  before = [] ∨ before.getLast? = some '\n'

instance (before : List Char) : Decidable (StartsLine before) :=
  inferInstanceAs (Decidable (_ ∨ _))

theorem StartsLine.append (starts : StartsLine before) (starts' : StartsLine after) :
    StartsLine (before ++ after) := by
  rcases starts' with rfl | ends
  · rwa [List.append_nil]
  · exact .inr (by rw [List.getLast?_append, ends]; rfl)

/-- The fronts of complete lines do not depend on what follows, so a text may be continued without a
look at its lines. -/
theorem StartsLine.exists_fronts (starts : StartsLine before) :
    ∃ earlier, ∀ rest, fronts true (before ++ rest) = earlier ++ fronts true rest := by
  rcases starts with rfl | ends
  · exact ⟨[], fun _ => rfl⟩
  · obtain ⟨lines, rfl⟩ := List.getLast?_eq_some_iff.mp ends
    exact ⟨fronts true lines, fun rest => by simpa using fronts_append_lineFeed lines rest⟩

end Fronts

/-! ## Lines -/

section Lines

variable {lines middle rest before line : List Char}

/-- Characters that are followed by the start of a line end one. -/
theorem exists_of_startsLine_append (starts : StartsLine (lines ++ middle))
    (nonempty : middle ≠ []) :
    ∃ passed, middle = passed ++ ['\n'] := by
  rcases List.eq_nil_or_concat middle with none | ⟨passed, c, rfl⟩
  · exact absurd none nonempty
  · obtain rfl : c = '\n' := by simpa [StartsLine] using starts
    exact ⟨passed, List.concat_eq_append⟩

/-- Characters without line feeds in front of a text are in front of its first line feed. -/
theorem exists_of_append_eq (plainMiddle : '\n' ∉ middle)
    (split : middle ++ rest = before ++ '\n' :: line) :
    ∃ passed, before = middle ++ passed ∧ rest = passed ++ '\n' :: line := by
  rcases List.append_eq_append_iff.mp split with ⟨passed, rfl, isRest⟩ | ⟨passed, rfl, isLine⟩
  · exact ⟨passed, rfl, isRest⟩
  · cases passed with
    | nil => exact ⟨[], by simp, by simpa using isLine.symm⟩
    | cons c passed =>
      rw [List.cons_append, List.cons.injEq] at isLine
      exact absurd (by simp [← isLine.1]) plainMiddle

end Lines

/-! ## Searching -/

section Searching

variable {α : Type} {recognise : List Char → Option α} {text before : List Char} {found : α}

/-- What a search finds stands at a line start. -/
theorem searchLinesFrom_eq_some {lineStart : Bool} {passed : List Char}
    (starts : lineStart = true → StartsLine passed.reverse)
    (searched : searchLinesFrom recognise lineStart passed text = some (before, found)) :
    ∃ rest, passed.reverse ++ text = before ++ rest ∧ StartsLine before
      ∧ recognise rest = some found := by
  induction text generalizing lineStart passed with
  | nil =>
    rw [searchLinesFrom] at searched
    split at searched
    · next isStart =>
      obtain ⟨_, recognised, same⟩ := Option.map_eq_some_iff.mp searched
      cases same
      exact ⟨[], rfl, starts isStart, recognised⟩
    · cases searched
  | cons c rest ih =>
    rw [searchLinesFrom] at searched
    split at searched
    · next recognised =>
      cases searched
      split at recognised
      · next isStart => exact ⟨c :: rest, rfl, starts isStart, recognised⟩
      · cases recognised
    · obtain ⟨rest', split', starts', recognised⟩ := ih (by
        intro isFeed
        obtain rfl : c = '\n' := by simpa using isFeed
        exact .inr (by simp)) searched
      exact ⟨rest', by simpa using split', starts', recognised⟩

theorem searchLines_eq_some (searched : searchLines recognise text = some (before, found)) :
    ∃ rest, text = before ++ rest ∧ StartsLine before ∧ recognise rest = some found :=
  searchLinesFrom_eq_some (fun _ => .inl rfl) searched

/-- What is found at the line starts of a text stands at a line start. -/
theorem exists_of_mem_atLineStarts {lineStart : Bool} {passed : List Char}
    (starts : lineStart = true → StartsLine passed)
    (isFound : found ∈ atLineStarts recognise lineStart text) :
    ∃ before rest, passed ++ text = before ++ rest ∧ StartsLine before
      ∧ recognise rest = some found := by
  induction text generalizing lineStart passed with
  | nil =>
    rw [atLineStarts] at isFound
    split at isFound
    · next isStart => exact ⟨passed, [], rfl, starts isStart, by simpa using isFound⟩
    · cases isFound
  | cons c rest ih =>
    have next : (c == '\n') = true → StartsLine (passed ++ [c]) := by
      intro isFeed
      obtain rfl : c = '\n' := by simpa using isFeed
      exact .inr (by simp)
    rw [List.append_cons]
    rw [atLineStarts] at isFound
    split at isFound
    · next first recognised =>
      rcases List.mem_cons.mp isFound with rfl | later
      · obtain ⟨isStart, recognised⟩ := Option.ite_none_right_eq_some.mp recognised
        exact ⟨passed, c :: rest, (List.append_cons ..).symm, starts isStart, recognised⟩
      · exact ih next later
    · exact ih next isFound

/-- A recogniser that decides by the front of a line. -/
def Shallow (recognise : List Char → Option α) : Prop :=
  ∀ text, (recognise (front text)).isSome = (recognise text).isSome

theorem searchLinesFrom_isSome_iff (shallow : Shallow recognise) {lineStart : Bool}
    {passed : List Char} : (searchLinesFrom recognise lineStart passed text).isSome = true ↔
      ∃ line ∈ fronts lineStart text, (recognise line).isSome = true := by
  induction text generalizing lineStart passed with
  | nil => cases lineStart <;> simp [searchLinesFrom, fronts]
  | cons c rest ih =>
    rw [searchLinesFrom, fronts]
    cases lineStart with
    | false => simpa using ih
    | true =>
      simp only [if_true, List.singleton_append, List.mem_cons, exists_eq_or_imp]
      rw [shallow]
      cases recognised : recognise (c :: rest) with
      | none => simpa using ih
      | some found => simp

/-- A search succeeds exactly if the front of some line is accepted. What stands behind the fronts,
such as an import that is put in, says nothing to it. -/
theorem searchLines_isSome_iff (shallow : Shallow recognise) :
    (searchLines recognise text).isSome = true ↔
      ∃ line ∈ fronts true text, (recognise line).isSome = true :=
  searchLinesFrom_isSome_iff shallow

theorem searchLines_eq_none_iff (shallow : Shallow recognise) :
    searchLines recognise text = none ↔ ∀ line ∈ fronts true text, recognise line = none := by
  rw [← Option.not_isSome_iff_eq_none, searchLines_isSome_iff shallow]
  simp

end Searching

/-! ## Recognisers -/

section Recognisers

variable {wanted text rest gap : List Char} {word : String}

theorem literal?_eq_some : literal? wanted text = some rest ↔ text = wanted ++ rest := by
  induction wanted generalizing text with
  | nil => simp [literal?]
  | cons c wanted ih =>
    cases text with
    | nil => simp [literal?]
    | cons d text =>
      by_cases same : c = d
      · simp [literal?, same, ih]
      · simp [literal?, same, Ne.symm same]

theorem literal?_append : literal? wanted (wanted ++ rest) = some rest :=
  literal?_eq_some.mpr rfl

/-- The text does not start with a space or tab. -/
def Unindented (text : List Char) : Prop :=
  text.head?.any isIndent = false

theorem skipIndent_of_unindented (unindented : Unindented text) : skipIndent text = text := by
  cases text with
  | nil => rfl
  | cons c text =>
    have other : isIndent c = false := by simpa [Unindented] using unindented
    simp [skipIndent, other]

theorem skipIndent_append (blank : ∀ c ∈ gap, isIndent c = true) (unindented : Unindented rest) :
    skipIndent (gap ++ rest) = rest := by
  rw [skipIndent, List.dropWhile_append_of_pos blank]
  exact skipIndent_of_unindented unindented

theorem unindented_skipIndent (text : List Char) : Unindented (skipIndent text) := by
  induction text with
  | nil => rfl
  | cons c text ih =>
    rw [skipIndent, List.dropWhile_cons]
    split
    · exact ih
    · next other => simpa [Unindented] using other

/-- A text is its indentation and the rest. -/
theorem exists_indent (text : List Char) :
    ∃ gap, (∀ c ∈ gap, isIndent c = true) ∧ text = gap ++ skipIndent text :=
  ⟨text.takeWhile isIndent, fun _ member => List.mem_takeWhile_imp member,
    List.takeWhile_append_dropWhile.symm⟩

/-- A word and what follows its blanks. -/
theorem wordThenIndent?_eq_some : wordThenIndent? word text = some rest ↔
    ∃ gap, gap ≠ [] ∧ (∀ c ∈ gap, isIndent c = true) ∧ Unindented rest
      ∧ text = word.toList ++ gap ++ rest := by
  simp only [wordThenIndent?, Option.bind_eq_some_iff, literal?_eq_some]
  constructor
  · rintro ⟨following, rfl, blank⟩
    cases following with
    | nil => cases blank
    | cons c following =>
      simp only [indent?, Option.ite_none_right_eq_some, Option.some.injEq] at blank
      obtain ⟨isBlank, rfl⟩ := blank
      obtain ⟨gap, blanks, split⟩ := exists_indent following
      refine ⟨c :: gap, by simp, ?_, unindented_skipIndent following, ?_⟩
      · intro d member
        rcases List.mem_cons.mp member with rfl | later
        · exact isBlank
        · exact blanks d later
      · rw [List.append_assoc, List.cons_append, ← split]
  · rintro ⟨gap, nonempty, blanks, unindented, rfl⟩
    refine ⟨gap ++ rest, by rw [List.append_assoc], ?_⟩
    cases gap with
    | nil => exact absurd rfl nonempty
    | cons c gap =>
      rw [List.cons_append, indent?, if_pos (blanks c List.mem_cons_self)]
      rw [skipIndent_append (fun d later => blanks d (List.mem_cons_of_mem _ later)) unindented]

/-! ### Fronts -/

theorem isIndent_stop {c : Char} (stop : isStop c = true) : isIndent c = false := by
  simp only [isStop, Bool.or_eq_true, beq_iff_eq] at stop
  rcases stop with ((rfl | rfl) | rfl) | rfl <;> rfl

theorem isWordChar_stop {c : Char} (stop : isStop c = true) : isWordChar c = false := by
  simp only [isStop, Bool.or_eq_true, beq_iff_eq] at stop
  rcases stop with ((rfl | rfl) | rfl) | rfl <;> decide

theorem smooth_of_indent (blank : ∀ c ∈ gap, isIndent c = true) : Smooth gap := by
  intro c member
  cases stop : isStop c with
  | false => rfl
  | true => simpa [isIndent_stop stop] using blank c member

theorem skipIndent_front (text : List Char) :
    skipIndent (front text) = front (skipIndent text) := by
  induction text with
  | nil => rfl
  | cons c text ih =>
    rw [front_cons]
    cases stop : isStop c with
    | true =>
      have other := isIndent_stop stop
      simp [skipIndent, other, front_cons, stop]
    | false =>
      cases blank : isIndent c with
      | true => simpa [skipIndent, blank] using ih
      | false => simp [skipIndent, blank, front_cons, stop]

theorem literal?_front (smooth : Smooth wanted) (text : List Char) :
    literal? wanted (front text) = (literal? wanted text).map front := by
  induction wanted generalizing text with
  | nil => rfl
  | cons c wanted ih =>
    have ih := ih fun d later => smooth d (List.mem_cons_of_mem _ later)
    cases text with
    | nil => rfl
    | cons d text =>
      rw [front_cons]
      cases stop : isStop d with
      | true =>
        have other : c ≠ d := by
          rintro rfl
          simp [smooth c List.mem_cons_self] at stop
        simp [literal?, other]
      | false => by_cases same : c = d <;> simp [literal?, same, ih]

theorem indent?_front (text : List Char) : indent? (front text) = (indent? text).map front := by
  cases text with
  | nil => rfl
  | cons c text =>
    rw [front_cons]
    cases stop : isStop c with
    | true => simp [indent?, isIndent_stop stop]
    | false => cases blank : isIndent c <;> simp [indent?, blank, skipIndent_front]

theorem wordThenIndent?_front (smooth : Smooth word.toList) (text : List Char) :
    wordThenIndent? word (front text) = (wordThenIndent? word text).map front := by
  rw [wordThenIndent?, literal?_front smooth, wordThenIndent?]
  cases literal? word.toList text <;> simp [indent?_front]

/-- A stop is no character of a word, so it ends a word like the end of the text. -/
theorem isWordBoundary_front (before : Option Char) (text : List Char) :
    isWordBoundary before (front text).head? = isWordBoundary before text.head? := by
  cases text with
  | nil => rfl
  | cons c text =>
    rw [front_cons]
    cases stop : isStop c with
    | true => simp [isWordBoundary, isWordChar_stop stop]
    | false => rfl

theorem literalThenBoundary?_front (smooth : Smooth wanted) (before : Option Char)
    (text : List Char) : literalThenBoundary? before wanted (front text) =
      (literalThenBoundary? before wanted text).map front := by
  rw [literalThenBoundary?, literal?_front smooth, literalThenBoundary?]
  cases literal? wanted text with
  | none => rfl
  | some rest =>
    simp only [Option.map_some, isWordBoundary_front]
    split <;> rfl

end Recognisers

end RenderProbe.Text
