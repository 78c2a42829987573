import RenderProbe.Proofs.Fallback.Shape
import RenderProbe.Proofs.Text.LineStyle

/-!
# What the fallback takes for an import

The fallback takes for an import what starts a line with the word, up to the next quotes with a name
in them. The text in front of the quotes is its clause, whatever it is. So an import that is not
finished runs on into the statements behind it.

* `importAt?_eq_some_iff`: what an import is, as a text.
* `exists_of_mem_imports`: the imports of a text, with the places where they start and end.
* `exists_take_import`: a text that is cut where an import ends is cut behind a quote, on its line.
-/

namespace RenderProbe.Fallback

open Text

/-- A line feed or a carriage return. -/
def IsBreak (c : Char) : Prop :=
  c = '\n' ∨ c = '\r'

/-- A line that starts with the word of an import, but for blanks. -/
def StartsImport (line : List Char) : Prop :=
  (literalThenBoundary? none "import".toList (skipIndent line)).isSome = true

instance (line : List Char) : Decidable (StartsImport line) :=
  inferInstanceAs (Decidable (_ = true))

/-- An import with its clause, from the blanks before it to the quote that closes its module. -/
structure ImportText (clause statement : List Char) : Prop where
  split : ∃ gap quote module, Blank gap ∧ isQuote quote = true ∧ module ≠ []
    ∧ (∀ c ∈ module, isQuote c = false ∧ c ≠ '\n')
    ∧ statement = gap ++ ("import".toList ++ (clause ++ (quote :: (module ++ [quote]))))
  unquoted : ∀ c ∈ clause, isQuote c = false
  apart : clause.head?.any isWordChar = false

section Shape

variable {text rest clause statement : List Char}

theorem plain_of_smooth (smooth : Smooth text) : Plain text := by
  constructor <;> intro member <;> cases smooth _ member

/-- The blanks, semicolon and comment that end a statement stand on one line. -/
theorem exists_statementEnd (text : List Char) :
    ∃ tail, Plain tail ∧ text = tail ++ skipStatementEnd text := by
  have indented : ∀ text, ∃ gap, Plain gap ∧ text = gap ++ skipIndent text := by
    intro text
    obtain ⟨gap, blank, split⟩ := exists_indent text
    exact ⟨gap, plain_of_smooth (smooth_of_indent blank), split⟩
  obtain ⟨gap, plain, split⟩ := indented text
  obtain ⟨mark, plain', split'⟩ : ∃ mark, Plain mark
      ∧ skipIndent text = mark ++ (literal? [';'] (skipIndent text)).getD (skipIndent text) := by
    cases marked : literal? [';'] (skipIndent text) with
    | none => exact ⟨[], by decide, rfl⟩
    | some rest => exact ⟨[';'], by decide, literal?_eq_some.mp marked⟩
  unfold skipStatementEnd
  dsimp only
  split
  · next comment found =>
    obtain ⟨gap', plain'', split''⟩ :=
      indented ((literal? [';'] (skipIndent text)).getD (skipIndent text))
    rw [literal?_eq_some.mp found] at split''
    refine ⟨gap ++ mark ++ gap' ++ ['/', '/'] ++ comment.takeWhile fun c => c != '\r' && c != '\n',
      ?_, ?_⟩
    · have inComment : Plain (comment.takeWhile fun c => c != '\r' && c != '\n') := by
        constructor <;> intro member <;> simpa using List.mem_takeWhile_imp member
      exact (((plain.append plain').append plain'').append (by decide)).append inComment
    · calc
        text = gap ++ skipIndent text := split
        _ = gap ++ (mark ++ (literal? [';'] (skipIndent text)).getD (skipIndent text)) := by
          rw [← split']
        _ = gap ++ (mark ++ (gap' ++ (['/', '/'] ++ comment))) := by rw [split'']
        _ = _ := by simp only [List.append_assoc, List.takeWhile_append_dropWhile]
  · refine ⟨gap ++ mark, plain.append plain', ?_⟩
    rw [List.append_assoc, ← split', ← split]

theorem quotedModule?_eq_some_iff : quotedModule? text = some rest ↔
    ∃ quote module, isQuote quote = true ∧ module ≠ []
      ∧ (∀ c ∈ module, isQuote c = false ∧ c ≠ '\n')
      ∧ text = quote :: (module ++ quote :: rest) := by
  cases text with
  | nil => simp [quotedModule?]
  | cons quote following =>
    have isEnd : ∀ c, (!isQuote c && c != '\n') = true ↔ isQuote c = false ∧ c ≠ '\n' := by simp
    simp only [quotedModule?, Bool.or_eq_true, Bool.not_eq_true', beq_iff_eq]
    constructor
    · intro found
      split at found
      · cases found
      · next allowed =>
        rw [not_or, Bool.not_eq_false] at allowed
        have closed := literal?_eq_some.mp found
        have inside : ∀ c ∈ following.takeWhile (fun c => !isQuote c && c != '\n'),
            (!isQuote c && c != '\n') = true := fun c member =>
          List.mem_takeWhile_imp (p := fun c => !isQuote c && c != '\n') member
        refine ⟨quote, _, allowed.1, ?_, fun c member => (isEnd c).mp (inside c member), ?_⟩
        · intro none
          have whole := List.takeWhile_append_dropWhile (p := fun c => !isQuote c && c != '\n')
            (l := following)
          rw [none, List.nil_append] at whole
          exact allowed.2 (congrArg List.length whole)
        · rw [← List.singleton_append (l := rest), ← closed, List.takeWhile_append_dropWhile]
    · rintro ⟨quote', module, isQuoted, nonempty, inside, split⟩
      obtain ⟨rfl, rfl⟩ := List.cons.inj split
      have stops : (module ++ quote :: rest).dropWhile (fun c => !isQuote c && c != '\n')
          = quote :: rest := by
        rw [List.dropWhile_append_of_pos fun c member => (isEnd c).mpr (inside c member)]
        simp [isQuoted]
      have shorter : (quote :: rest).length ≠ (module ++ quote :: rest).length := by
        have positive := List.length_pos_iff.mpr nonempty
        rw [List.length_append]
        omega
      rw [stops, if_neg (by simpa [isQuoted] using shorter)]
      exact literal?_eq_some.mpr rfl

theorem ne_of_isQuote {c d : Char} (isQuoted : isQuote c = true) (other : isQuote d = false) :
    d ≠ c := by
  rintro rfl
  exact Bool.false_ne_true (other.symm.trans isQuoted)

theorem isStop_of_isQuote {c : Char} (isQuoted : isQuote c = true) : isStop c = true := by
  simp only [isQuote, Bool.or_eq_true, beq_iff_eq] at isQuoted
  rcases isQuoted with rfl | rfl <;> rfl

theorem isWordBoundary_import (after : Option Char) :
    isWordBoundary ("import".toList.getLast? <|> none) after = true ↔
      after.any isWordChar = false := by
  have inWord :
      (("import".toList.getLast? <|> none : Option Char)).any isWordChar = true := by decide
  rw [isWordBoundary, inWord]
  cases after.any isWordChar <;> simp

/-- The word of an import, and what follows it. -/
theorem importWord_eq_some_iff :
    literalThenBoundary? none "import".toList (skipIndent text) = some rest ↔
      ∃ gap, Blank gap ∧ rest.head?.any isWordChar = false
        ∧ text = gap ++ ("import".toList ++ rest) := by
  unfold literalThenBoundary?
  constructor
  · intro found
    split at found
    · cases found
    · next following literal =>
      split at found
      · next bounded =>
        obtain rfl := Option.some.inj found
        refine ⟨_, blank_takeWhile text, (isWordBoundary_import _).mp bounded, ?_⟩
        rw [← literal?_eq_some.mp literal, takeWhile_append_skipIndent]
      · cases found
  · rintro ⟨gap, blank, apart, rfl⟩
    have read : skipIndent (gap ++ ("import".toList ++ rest)) = "import".toList ++ rest :=
      skipIndent_append blank rfl
    have bounded := (isWordBoundary_import rest.head?).mpr apart
    rw [read, literal?_append]
    simp only [bounded, if_true]

/-- What an import is read from: the statement, and the text behind it. -/
theorem importAt?_eq_some_iff {found : ImportMatch} : importAt? text = some found ↔
    ∃ statement rest, text = statement ++ rest ∧ ImportText found.clause statement
      ∧ found.length = text.length - (skipStatementEnd rest).length := by
  unfold importAt?
  constructor
  · intro imported
    split at imported
    · cases imported
    · next afterWord word =>
      split at imported
      · cases imported
      · next rest quoted =>
        obtain rfl := Option.some.inj imported
        obtain ⟨gap, blank, apart, rfl⟩ := importWord_eq_some_iff.mp word
        obtain ⟨quote, module, isQuoted, nonempty, inside, split⟩ :=
          quotedModule?_eq_some_iff.mp quoted
        have clause := List.takeWhile_append_dropWhile (p := fun c => !isQuote c) (l := afterWord)
        rw [split] at clause
        refine ⟨_, rest, ?_, ⟨⟨gap, quote, module, blank, isQuoted, nonempty, inside, rfl⟩, ?_, ?_⟩,
          rfl⟩
        · conv_lhs => rw [← clause]
          simp only [List.append_assoc, List.cons_append, List.nil_append]
        · intro c member
          simpa using List.mem_takeWhile_imp member
        · cases afterWord with
          | nil => rfl
          | cons c following =>
            rw [List.takeWhile_cons]
            split
            · exact apart
            · rfl
  · rintro ⟨statement, rest, rfl, ⟨⟨gap, quote, module, blank, isQuoted, nonempty, inside, rfl⟩,
      unquoted, apart⟩, length⟩
    have stops : ∀ c ∈ found.clause, (!isQuote c) = true :=
      fun c member => by simp [unquoted c member]
    have word : literalThenBoundary? none "import".toList (skipIndent (gap ++ ("import".toList
        ++ (found.clause ++ (quote :: (module ++ [quote])))) ++ rest))
        = some (found.clause ++ quote :: (module ++ quote :: rest)) := by
      refine importWord_eq_some_iff.mpr ⟨gap, blank, ?_, by simp⟩
      cases clause : found.clause with
      | nil => simpa using isWordChar_stop (isStop_of_isQuote isQuoted)
      | cons c following => simpa [clause] using apart
    have quoted : quotedModule? (quote :: (module ++ quote :: rest)) = some rest :=
      quotedModule?_eq_some_iff.mpr ⟨quote, module, isQuoted, nonempty, inside, rfl⟩
    have ends : (quote :: (module ++ quote :: rest)).dropWhile (fun c => !isQuote c)
        = quote :: (module ++ quote :: rest) := by simp [isQuoted]
    have reads : (quote :: (module ++ quote :: rest)).takeWhile (fun c => !isQuote c) = [] := by
      simp [isQuoted]
    rw [word]
    simp only [List.dropWhile_append_of_pos stops, List.takeWhile_append_of_pos stops, ends, reads,
      quoted, List.append_nil]
    rw [← length]

theorem startsImport_iff : StartsImport text ↔
    ∃ gap rest, Blank gap ∧ rest.head?.any isWordChar = false
      ∧ text = gap ++ ("import".toList ++ rest) := by
  rw [StartsImport, Option.isSome_iff_exists, exists_comm]
  exact exists_congr fun rest => importWord_eq_some_iff

theorem ImportText.exists_importAt? (isImport : ImportText clause statement) (rest : List Char) :
    ∃ length, importAt? (statement ++ rest) = some ⟨clause, length⟩ :=
  ⟨_, importAt?_eq_some_iff.mpr ⟨statement, rest, rfl, isImport, rfl⟩⟩

theorem startsImport_of_importText (isImport : ImportText clause statement) :
    StartsImport (statement ++ rest) := by
  obtain ⟨length, imported⟩ := isImport.exists_importAt? rest
  unfold importAt? at imported
  split at imported
  · cases imported
  · next word =>
    rw [StartsImport, word]
    rfl

theorem startsImport_of_importAt? {found : ImportMatch} (imported : importAt? text = some found) :
    StartsImport text := by
  obtain ⟨statement, rest, rfl, isImport, -⟩ := importAt?_eq_some_iff.mp imported
  exact startsImport_of_importText isImport

theorem importAt?_eq_none (other : ¬StartsImport text) : importAt? text = none := by
  cases imported : importAt? text with
  | none => rfl
  | some found => exact absurd (startsImport_of_importAt? imported) other

end Shape

/-! ## The imports of a text -/

section Imports

variable {text passed clause : List Char} {lineStart : Bool} {skip : Nat}

/-- An import that is found starts a line, behind characters passed already. -/
theorem exists_of_mem_importsFrom {offset stop : Nat}
    (starts : lineStart = true → StartsLine passed)
    (member : (clause, stop) ∈ importsFrom lineStart skip offset text) :
    ∃ before statement rest, text = before ++ (statement ++ rest) ∧ StartsLine (passed ++ before)
      ∧ ImportText clause statement ∧ stop + (skipStatementEnd rest).length
        = offset + text.length := by
  induction text generalizing passed lineStart skip offset with
  | nil => cases member
  | cons c following ih =>
    have later : ∀ {lineStart skip}, (lineStart = true → StartsLine (passed ++ [c])) →
        (clause, stop) ∈ importsFrom lineStart skip (offset + 1) following →
        ∃ before statement rest, c :: following = before ++ (statement ++ rest)
          ∧ StartsLine (passed ++ before) ∧ ImportText clause statement
          ∧ stop + (skipStatementEnd rest).length = offset + (c :: following).length := by
      intro lineStart skip starts member
      obtain ⟨before, statement, rest, rfl, starts', isText, ends⟩ := ih starts member
      refine ⟨c :: before, statement, rest, rfl, by simpa using starts', isText, ?_⟩
      rw [ends, List.length_cons]
      omega
    have never : false = true → StartsLine (passed ++ [c]) := by simp
    unfold importsFrom at member
    split at member
    · exact later never member
    · split at member
      · next found imported =>
        rcases List.mem_cons.mp member with here | after
        · obtain ⟨rfl, rfl⟩ := Prod.mk.inj here
          split at imported
          · next isStart =>
            obtain ⟨statement, rest, split, isText, length⟩ := importAt?_eq_some_iff.mp imported
            refine ⟨[], statement, rest, split, by simpa using starts isStart, isText, ?_⟩
            obtain ⟨tail, -, ends⟩ := exists_statementEnd rest
            have le : (skipStatementEnd rest).length ≤ (c :: following).length := by
              conv_rhs => rw [split, ends]
              simp only [List.length_append]
              omega
            omega
          · cases imported
        · exact later never after
      · exact later (fun isFeed => .inr (by simpa using isFeed)) member

/-- The imports that are found in a text, with where they end. -/
theorem exists_of_mem_imports {stop : Nat} (member : (clause, stop) ∈ imports text) :
    ∃ before statement rest, text = before ++ (statement ++ rest) ∧ StartsLine before
      ∧ ImportText clause statement ∧ stop + (skipStatementEnd rest).length = text.length := by
  have found := exists_of_mem_importsFrom (fun _ => (.inl rfl : StartsLine [])) member
  simpa only [List.nil_append, Nat.zero_add] using found

/-- An import that is found cuts a text behind a quote and characters of the quote's line. -/
theorem exists_take_import {stop : Nat} {clause : List Char}
    (member : (clause, stop) ∈ imports text) :
    ∃ before quote after, isQuote quote = true ∧ Plain after
      ∧ text.take stop = before ++ quote :: after := by
  obtain ⟨before, statement, rest, rfl, -, isText, ends⟩ := exists_of_mem_imports member
  obtain ⟨gap, quote, module, -, isQuoted, -, -, rfl⟩ := isText.split
  obtain ⟨tail, plain, split⟩ := exists_statementEnd rest
  generalize skipStatementEnd rest = behind at split ends
  subst split
  refine ⟨before ++ (gap ++ ("import".toList ++ (clause ++ quote :: module))), quote, tail,
    isQuoted, plain, ?_⟩
  have whole : before ++ (gap ++ ("import".toList ++ (clause ++ quote :: (module ++ [quote])))
      ++ (tail ++ behind)) = (before ++ (gap ++ ("import".toList ++ (clause ++ quote :: module)))
        ++ quote :: tail) ++ behind := by
    simp only [List.append_assoc, List.cons_append, List.nil_append]
  rw [whole] at ends ⊢
  rw [List.length_append] at ends
  rw [Nat.add_right_cancel ends, List.take_left]

end Imports

end RenderProbe.Fallback
