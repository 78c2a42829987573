import Mathlib.Data.List.Basic
import RenderProbe.Source.Snippet

/-!
# Line styles

A text whose line breaks are all of one style, and what keeps it so. Texts of one style may be put
one behind the other, and a text may be taken apart anywhere but inside a line break.

* `LineStyle.Keeps`: carriage returns and line feeds come in pairs, or there are no carriage
  returns.
* `LineStyle.Keeps.append` and `LineStyle.Keeps.of_append`: joining and taking apart.
* `LineStyle.keeps_newlineFor`: generated lines break in the style of their source.
-/

namespace RenderProbe.Text

/-- A line break is taken apart between the two texts. -/
def Parts (before after : List Char) : Prop :=
  before.getLast? = some '\r' ∧ after.head? = some '\n'

/-- Carriage returns and line feeds occur in pairs only. -/
structure Paired (text : List Char) : Prop where
  /-- Every line feed is preceded by a carriage return. -/
  feed : ∀ before after, text = before ++ '\n' :: after → before.getLast? = some '\r'
  /-- Every carriage return is followed by a line feed. -/
  carriage : ∀ before after, text = before ++ '\r' :: after → after.head? = some '\n'

/-- The styles a text may keep to. -/
inductive LineStyle where
  /-- Lines end with a carriage return and a line feed. -/
  | carriage
  /-- Lines end with a line feed. -/
  | feed

namespace LineStyle

/-- The text keeps to the style. -/
def Keeps : LineStyle → List Char → Prop
  | carriage, text => Paired text
  | feed, text => '\r' ∉ text

end LineStyle

/-- The text holds no character of a line break. -/
def Plain (text : List Char) : Prop :=
  '\r' ∉ text ∧ '\n' ∉ text

instance (text : List Char) : Decidable (Plain text) :=
  inferInstanceAs (Decidable (_ ∧ _))

theorem Plain.append {first second : List Char} (left : Plain first) (right : Plain second) :
    Plain (first ++ second) :=
  ⟨fun member => (List.mem_append.mp member).elim left.1 right.1,
    fun member => (List.mem_append.mp member).elim left.2 right.2⟩

section Parts

variable {before front after : List Char}

theorem not_parts_nil (after : List Char) : ¬ Parts [] after :=
  fun parts => nomatch parts.1

theorem not_parts_of_head? (other : after.head? ≠ some '\n') : ¬ Parts before after :=
  fun parts => other parts.2

theorem not_parts_of_notMem (plain : '\r' ∉ before) : ¬ Parts before after :=
  fun parts => plain (List.mem_of_getLast? parts.1)

/-- What stands farther in front does not matter. -/
theorem parts_append (nonempty : front ≠ []) :
    Parts (before ++ front) after ↔ Parts front after := by
  rw [Parts, Parts, List.getLast?_append_of_ne_nil _ nonempty]

theorem Parts.append_left (parts : Parts front after) (before : List Char) :
    Parts (before ++ front) after := by
  have nonempty : front ≠ [] := by
    rintro rfl
    exact not_parts_nil _ parts
  exact (parts_append nonempty).mpr parts

theorem Parts.append_right (parts : Parts before after) (back : List Char) :
    Parts before (after ++ back) := by
  obtain ⟨rest, rfl⟩ := List.head?_eq_some_iff.mp parts.2
  exact ⟨parts.1, rfl⟩

end Parts

/-! ## Joining and taking apart -/

section Keeps

variable {style : LineStyle} {first second text : List Char}

theorem Paired.append (left : Paired first) (right : Paired second) : Paired (first ++ second) where
  feed before after split := by
    rcases List.append_eq_append_iff.mp split with
      ⟨further, rfl, inSecond⟩ | ⟨further, rfl, inFirst⟩
    · have ends := right.feed further after inSecond
      exact (Parts.append_left ⟨ends, rfl⟩ first : Parts _ ['\n']).1
    · cases further with
      | nil => exact absurd (right.feed [] after inFirst.symm) (by simp)
      | cons c further =>
        obtain ⟨rfl, rfl⟩ := List.cons.inj inFirst
        exact left.feed before further rfl
  carriage before after split := by
    rcases List.append_eq_append_iff.mp split with
      ⟨further, rfl, inSecond⟩ | ⟨further, rfl, inFirst⟩
    · exact right.carriage further after inSecond
    · cases further with
      | nil => exact right.carriage [] after inFirst.symm
      | cons c further =>
        obtain ⟨rfl, rfl⟩ := List.cons.inj inFirst
        have starts := left.carriage before further rfl
        exact (Parts.append_right ⟨rfl, starts⟩ second : Parts ['\r'] _).2

theorem Paired.of_append (paired : Paired (first ++ second)) (whole : ¬ Parts first second) :
    Paired first ∧ Paired second := by
  refine ⟨⟨?_, ?_⟩, ⟨?_, ?_⟩⟩
  · rintro before after rfl
    exact paired.feed before (after ++ second) (by simp)
  · rintro before after rfl
    have starts := paired.carriage before (after ++ second) (by simp)
    cases after with
    | nil => exact absurd ⟨by simp, starts⟩ whole
    | cons c after => exact starts
  · rintro before after rfl
    have ends := paired.feed (first ++ before) after (by simp)
    cases before with
    | nil => exact absurd ⟨by simpa using ends, rfl⟩ whole
    | cons c before => rwa [List.getLast?_append_of_ne_nil _ (List.cons_ne_nil _ _)] at ends
  · rintro before after rfl
    exact paired.carriage (first ++ before) after (by simp)

namespace LineStyle

theorem keeps_of_plain (plain : Plain text) : style.Keeps text := by
  cases style with
  | carriage =>
    exact {
      feed := fun before after split => absurd (by simp [split]) plain.2
      carriage := fun before after split => absurd (by simp [split]) plain.1 }
  | feed => exact plain.1

theorem keeps_nil : style.Keeps [] :=
  keeps_of_plain ⟨List.not_mem_nil, List.not_mem_nil⟩

theorem Keeps.append (left : style.Keeps first) (right : style.Keeps second) :
    style.Keeps (first ++ second) := by
  cases style with
  | carriage => exact Paired.append left right
  | feed => exact fun member => (List.mem_append.mp member).elim left right

/-- A text that is taken apart at no line break leaves two texts of its style. -/
theorem Keeps.of_append (keeps : style.Keeps (first ++ second)) (whole : ¬ Parts first second) :
    style.Keeps first ∧ style.Keeps second := by
  cases style with
  | carriage => exact Paired.of_append keeps whole
  | feed =>
    exact ⟨fun member => keeps (List.mem_append_left _ member),
      fun member => keeps (List.mem_append_right _ member)⟩

/-- Without its first character, or its first line break, a text is of the same style. -/
theorem Keeps.cons_cases {c : Char} (keeps : style.Keeps (c :: text)) :
    (∃ rest, c :: text = '\r' :: '\n' :: rest ∧ style.Keeps ['\r', '\n'] ∧ style.Keeps rest)
      ∨ style.Keeps [c] ∧ style.Keeps text := by
  by_cases parts : Parts [c] text
  · obtain ⟨isCarriage, isFeed⟩ := parts
    obtain ⟨rest, rfl⟩ := List.head?_eq_some_iff.mp isFeed
    obtain rfl : c = '\r' := by simpa using isCarriage
    have whole : ¬ Parts ['\r', '\n'] rest := fun parts => by simp [Parts] at parts
    have joined : style.Keeps (['\r', '\n'] ++ rest) := keeps
    exact .inl ⟨rest, rfl, joined.of_append whole⟩
  · have joined : style.Keeps ([c] ++ text) := keeps
    exact .inr (joined.of_append parts)

/-- What stands between two places of a text outside its line breaks is of the text's style. A cut
through a line break would leave half of one. -/
theorem Keeps.middle {before after : List Char} (keeps : style.Keeps (before ++ text ++ after))
    (starts : ¬ Parts before (text ++ after)) (ends : ¬ Parts (before ++ text) after) :
    style.Keeps text := by
  by_cases empty : text = []
  · rw [empty]
    exact keeps_nil
  · rw [List.append_assoc] at keeps
    rw [parts_append empty] at ends
    exact ((keeps.of_append starts).2.of_append ends).1

/-- A stretch without line breaks may be swapped for any text of the style. -/
theorem Keeps.swap {front removed added back : List Char}
    (keeps : style.Keeps (front ++ removed ++ back)) (plain : Plain removed)
    (nonempty : removed ≠ []) (keeps' : style.Keeps added) :
    style.Keeps (front ++ added ++ back) := by
  have whole : ¬ Parts removed back := not_parts_of_notMem plain.1
  have whole' : ¬ Parts front (removed ++ back) := by
    refine not_parts_of_head? ?_
    rw [List.head?_append_of_ne_nil _ nonempty]
    exact fun first => plain.2 (List.mem_of_head? first)
  rw [List.append_assoc] at keeps
  obtain ⟨left, rest⟩ := keeps.of_append whole'
  exact (left.append keeps').append (rest.of_append whole).2

theorem keeps_flatMap {α : Type} {items : List α} {spell : α → List Char}
    (each : ∀ item ∈ items, style.Keeps (spell item)) : style.Keeps (items.flatMap spell) := by
  induction items with
  | nil => exact keeps_nil
  | cons item items ih =>
    rw [List.flatMap_cons]
    exact (each item List.mem_cons_self).append
      (ih fun other member => each other (List.mem_cons_of_mem _ member))

end LineStyle

end Keeps

theorem paired_break : Paired ['\r', '\n'] where
  feed before after split := by
    rcases before with _ | ⟨c, _ | ⟨d, before⟩⟩
    · simp at split
    · simp [← (List.cons.inj split).1]
    · simp at split
  carriage before after split := by
    rcases before with _ | ⟨c, before⟩
    · simp [← (List.cons.inj split).2]
    · have later : '\r' ∈ ['\n'] := by
        rw [(List.cons.inj split).2]
        simp
      simp at later

/-- Whether carriage returns and line feeds occur in pairs only. -/
def isPaired : List Char → Bool
  | [] => true
  | '\r' :: '\n' :: rest => isPaired rest
  | c :: rest => c != '\r' && c != '\n' && isPaired rest

theorem isPaired_iff (text : List Char) : isPaired text = true ↔ Paired text := by
  fun_induction isPaired text with
  | case1 =>
    have empty : Paired [] := (LineStyle.keeps_nil : LineStyle.carriage.Keeps [])
    simp only [empty]
  | case2 rest ih =>
    rw [ih]
    have whole : ¬ Parts ['\r', '\n'] rest := fun parts => by simp [Parts] at parts
    have joined : ['\r', '\n'] ++ rest = '\r' :: '\n' :: rest := rfl
    rw [← joined]
    exact ⟨paired_break.append, fun paired => (paired.of_append whole).2⟩
  | case3 c rest alone ih =>
    rw [Bool.and_eq_true, Bool.and_eq_true, bne_iff_ne, bne_iff_ne, ih]
    constructor
    · rintro ⟨⟨notCarriage, notFeed⟩, paired⟩
      have plain : Plain [c] := by simp [Plain, Ne.symm notCarriage, Ne.symm notFeed]
      have here : LineStyle.carriage.Keeps [c] := LineStyle.keeps_of_plain plain
      exact Paired.append here paired
    · intro paired
      have notFeed : c ≠ '\n' := by
        rintro rfl
        simpa using paired.feed [] rest rfl
      have notCarriage : c ≠ '\r' := by
        rintro rfl
        obtain ⟨further, rfl⟩ := List.head?_eq_some_iff.mp (paired.carriage [] rest rfl)
        exact alone further rfl rfl
      have whole : ¬ Parts [c] rest := fun parts => notCarriage (by simpa using parts.1)
      exact ⟨⟨notCarriage, notFeed⟩, (Paired.of_append paired whole).2⟩

instance (text : List Char) : Decidable (Paired text) :=
  decidable_of_iff _ (isPaired_iff text)

/-- A text with the style it keeps to. -/
structure StyledText where
  style : LineStyle
  text : List Char
  keeps : style.Keeps text

/-! ## Generated text -/

namespace LineStyle

variable {style : LineStyle} {quotes : QuoteStyle} {text symbol expression name target : String}

/-- The text keeps to the style, and it shows which one that is. -/
structure Shown (style : LineStyle) (text : List Char) : Prop where
  keeps : style.Keeps text
  /-- A text without line breaks is of both styles, and its generated lines end with a line feed. -/
  broken : style = .carriage → '\n' ∈ text

/-- The text with the style it shows. -/
def Shown.source {text : List Char} (shown : style.Shown text) : StyledText :=
  ⟨style, text, shown.keeps⟩

theorem hasCarriageBreak_of_append (before after : List Char) :
    Snippet.hasCarriageBreak (before ++ '\r' :: '\n' :: after) = true := by
  induction before with
  | nil => rfl
  | cons c before ih =>
    rw [List.cons_append]
    unfold Snippet.hasCarriageBreak
    split
    · rfl
    · next same =>
      obtain ⟨-, rfl⟩ := List.cons.inj same
      exact ih
    · next same => cases same

theorem mem_of_hasCarriageBreak {text : List Char} (found : Snippet.hasCarriageBreak text = true) :
    '\r' ∈ text := by
  induction text with
  | nil => cases found
  | cons c text ih =>
    unfold Snippet.hasCarriageBreak at found
    split at found
    · next same => simp [same]
    · next same =>
      obtain ⟨-, rfl⟩ := List.cons.inj same
      exact List.mem_cons_of_mem _ (ih found)
    · cases found

/-- Generated lines break in the style of their source. A text without any line break keeps to both
styles, and takes the shorter one. -/
theorem keeps_newlineFor (shown : style.Shown text.toList) :
    style.Keeps (Snippet.newlineFor text).toList := by
  unfold Snippet.newlineFor
  cases style with
  | carriage =>
    obtain ⟨before, after, split⟩ := List.append_of_mem (shown.broken rfl)
    obtain ⟨front, rfl⟩ := List.getLast?_eq_some_iff.mp (shown.keeps.feed before after split)
    rw [List.append_assoc] at split
    have found : Snippet.hasCarriageBreak text.toList = true := by
      rw [split]
      exact hasCarriageBreak_of_append front after
    rw [if_pos found]
    have pair := shown.keeps
    rw [split, show front ++ (['\r'] ++ '\n' :: after)
      = front ++ ['\r', '\n'] ++ after by simp] at pair
    exact pair.middle (not_parts_of_head? (by simp)) fun parts => by simp [Parts] at parts
  | feed =>
    split
    · next found => exact absurd (mem_of_hasCarriageBreak found) shown.keeps
    · exact fun member => by simp at member

/-- Backslashes are put before backslashes and quotes, never into a line break. -/
theorem keeps_escape (quotes : QuoteStyle) :
    ∀ value : List Char, style.Keeps value → style.Keeps (Snippet.escape quotes.char value)
  | [], _ => keeps_nil
  | c :: text, keeps => by
    rcases keeps.cons_cases with ⟨rest, split, pair, keeps'⟩ | ⟨here, keeps'⟩
    · have shorter : rest.length < (c :: text).length := by
        rw [split, List.length_cons, List.length_cons]
        omega
      have spelled : Snippet.escape quotes.char (c :: text)
          = ['\r', '\n'] ++ Snippet.escape quotes.char rest := by
        rw [split]
        cases quotes <;> rfl
      rw [spelled]
      exact pair.append (keeps_escape quotes rest keeps')
    · refine Keeps.append ?_ (keeps_escape quotes text keeps')
      dsimp only
      split
      · have slash : style.Keeps ['\\'] := keeps_of_plain (by decide)
        exact slash.append here
      · exact here
termination_by value => value.length
decreasing_by
  · exact shorter
  · exact Nat.lt_succ_self _

theorem keeps_stringLiteral (quotes : QuoteStyle) (keeps : style.Keeps text.toList) :
    style.Keeps (Snippet.stringLiteral quotes text).toList := by
  have quote : Plain [quotes.char] := by cases quotes <;> decide
  rw [Snippet.stringLiteral, String.toList_ofList, ← List.singleton_append]
  exact ((keeps_of_plain quote).append (keeps_escape quotes _ keeps)).append (keeps_of_plain quote)

theorem keeps_wrapCall (quotes : QuoteStyle) (keepsSymbol : style.Keeps symbol.toList)
    (keeps : style.Keeps expression.toList) (keepsName : style.Keeps name.toList) :
    style.Keeps (Snippet.wrapCall quotes symbol expression name).toList := by
  have literal := keeps_stringLiteral quotes keepsName
  have spelled : Snippet.wrapCall quotes symbol expression name =
      symbol ++ "(" ++ expression ++ ", " ++ Snippet.stringLiteral quotes name ++ ")" := rfl
  rw [spelled]
  simp only [String.toList_append]
  refine ((((keepsSymbol.append ?_).append keeps).append ?_).append literal).append ?_ <;>
    exact keeps_of_plain (by decide)

theorem keeps_defaultExport (quotes : QuoteStyle) (keepsSymbol : style.Keeps symbol.toList)
    (keepsName : style.Keeps name.toList) :
    style.Keeps (Snippet.defaultExport quotes symbol name).toList := by
  have spelled : Snippet.defaultExport quotes symbol name =
      "export default " ++ Snippet.wrapCall quotes symbol name name ++ ";" := rfl
  rw [spelled, String.toList_append, String.toList_append]
  refine (Keeps.append ?_ (keeps_wrapCall quotes keepsSymbol keepsName keepsName)).append ?_ <;>
    exact keeps_of_plain (by decide)

theorem keeps_namedExport (quotes : QuoteStyle) (keepsSymbol : style.Keeps symbol.toList)
    (keepsName : style.Keeps name.toList) :
    style.Keeps (Snippet.namedExport quotes symbol name).toList := by
  have spelled : Snippet.namedExport quotes symbol name =
      "export const " ++ name ++ " = " ++ Snippet.wrapCall quotes symbol name name ++ ";" := rfl
  rw [spelled, String.toList_append, String.toList_append, String.toList_append,
    String.toList_append]
  refine (((Keeps.append ?_ keepsName).append ?_).append
    (keeps_wrapCall quotes keepsSymbol keepsName keepsName)).append ?_ <;>
    exact keeps_of_plain (by decide)

theorem keeps_importStatement (quotes : QuoteStyle) (keepsSymbol : style.Keeps symbol.toList)
    (keepsTarget : style.Keeps target.toList) :
    style.Keeps (Snippet.importStatement quotes symbol target).toList := by
  have literal := keeps_stringLiteral quotes keepsTarget
  simp only [Snippet.importStatement, String.toList_append]
  refine (((Keeps.append ?_ keepsSymbol).append ?_).append literal).append ?_ <;>
    exact keeps_of_plain (by decide)

end LineStyle

end RenderProbe.Text
