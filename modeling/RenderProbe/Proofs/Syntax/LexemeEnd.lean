import Mathlib.Data.List.TakeWhile
import RenderProbe.Proofs.Syntax.LineBoundary
import RenderProbe.Syntax.Program

/-!
# Where lexemes end

No lexeme ends inside a line break: the last character of a lexeme is no carriage return, or no line
feed comes behind it. Only the line that names an interpreter is another matter.

* `Crisp`: a scanner whose lexemes end at no line break.
* `Ends` and its step `Ends.cons`: how the scanners that count up to a closing quote or slash are
  followed.
-/

namespace RenderProbe.Syntax

open Text (Parts not_parts_of_head? not_parts_of_notMem)

/-- The lexemes of the scanner end at no line break. -/
def Crisp (scan : List Char → Nat) : Prop :=
  ∀ rest, 0 < scan rest → ¬ Parts (rest.take (scan rest)) (rest.drop (scan rest))

/-- The first characters of a text end with another one than a carriage return. -/
def Ends (rest : List Char) (count : Nat) : Prop :=
  ∃ last, (rest.take count).getLast? = some last ∧ last ≠ '\r'

section Crisp

variable {scan : List Char → Nat} {rest : List Char} {count : Nat} {c : Char}

theorem Crisp.of_notMem (plain : ∀ rest : List Char, '\r' ∉ rest.take (scan rest)) : Crisp scan :=
  fun rest _ => not_parts_of_notMem (plain rest)

theorem Crisp.of_head? (next : ∀ rest : List Char, (rest.drop (scan rest)).head? ≠ some '\n') :
    Crisp scan :=
  fun rest _ => not_parts_of_head? (next rest)

theorem Crisp.of_ends (ends : ∀ rest, scan rest = 0 ∨ Ends rest (scan rest)) : Crisp scan := by
  intro rest positive parts
  rcases ends rest with zero | ⟨last, isLast, other⟩
  · omega
  · rw [Parts, isLast, Option.some.injEq] at parts
    exact other parts.1

theorem Ends.here (other : c ≠ '\r') (rest : List Char) : Ends (c :: rest) 1 :=
  ⟨c, rfl, other⟩

/-- One more character in front. -/
theorem Ends.cons (ends : Ends rest count) (c : Char) : Ends (c :: rest) (count + 1) := by
  obtain ⟨last, isLast, other⟩ := ends
  refine ⟨last, ?_, other⟩
  rw [List.take_succ_cons, List.getLast?_cons, isLast]
  rfl

end Crisp

/-! ## Words and marks -/

section Words

variable {test : Char → Bool} {rest : List Char} {count further : Nat}

theorem take_countWhile (test : Char → Bool) (rest : List Char) :
    rest.take (countWhile test rest) = rest.takeWhile test :=
  (List.prefix_iff_eq_take.mp (List.takeWhile_prefix test)).symm

theorem drop_countWhile (test : Char → Bool) (rest : List Char) :
    rest.drop (countWhile test rest) = rest.dropWhile test := by
  have whole := List.take_append_drop (countWhile test rest) rest
  rw [take_countWhile] at whole
  exact List.append_cancel_left (whole.trans List.takeWhile_append_dropWhile.symm)

theorem notMem_take_countWhile (rest : List Char) (fails : test '\r' = false) :
    '\r' ∉ rest.take (countWhile test rest) := by
  rw [take_countWhile]
  intro member
  rw [List.mem_takeWhile_imp member] at fails
  cases fails

theorem notMem_take_add (first : '\r' ∉ rest.take count)
    (second : '\r' ∉ (rest.drop count).take further) : '\r' ∉ rest.take (count + further) := by
  rw [List.take_add]
  exact fun member => (List.mem_append.mp member).elim first second

theorem notMem_take_of_isPrefixOf {text : List Char} (plain : text.contains '\r' = false)
    (isPrefix : text.isPrefixOf rest = true) : '\r' ∉ rest.take text.length := by
  obtain ⟨others, rfl⟩ := List.isPrefixOf_iff_prefix.mp isPrefix
  simpa using plain

variable {text : String}

theorem markNotBefore_eq {following : List Char}
    (positive : 0 < markNotBefore text following rest) :
    markNotBefore text following rest = text.length := by
  unfold markNotBefore at positive ⊢
  split at positive
  · next front => rw [if_pos front]
  · cases positive

variable (plain : text.toList.contains '\r' = false)

include plain

theorem notMem_markLength (rest : List Char) : '\r' ∉ rest.take (markLength text rest) := by
  unfold markLength
  split
  · next found => exact notMem_take_of_isPrefixOf plain found
  · simp

theorem notMem_markNotBefore (following rest : List Char) :
    '\r' ∉ rest.take (markNotBefore text following rest) := by
  unfold markNotBefore
  split
  · next found => exact notMem_take_of_isPrefixOf plain (Bool.and_eq_true_iff.mp found).1
  · simp

theorem notMem_keywordLength (rest : List Char) : '\r' ∉ rest.take (keywordLength text rest) := by
  unfold keywordLength
  split
  · next found => exact notMem_take_of_isPrefixOf plain (Bool.and_eq_true_iff.mp found).1
  · simp

end Words

theorem crisp_markLength {text : String} (plain : text.toList.contains '\r' = false) :
    Crisp (markLength text) :=
  .of_notMem (notMem_markLength plain)

theorem isNamePart_carriage : isNamePart '\r' = false := by decide

theorem notMem_wordLength (rest : List Char) : '\r' ∉ rest.take (wordLength rest) := by
  unfold wordLength
  split
  · simp
  · next c rest =>
    split
    · next starts =>
      rw [Nat.add_comm, List.take_succ_cons, List.mem_cons, not_or]
      refine ⟨?_, notMem_take_countWhile rest isNamePart_carriage⟩
      rintro rfl
      cases starts
    · simp

theorem notMem_markupNameLength (rest : List Char) : '\r' ∉ rest.take (markupNameLength rest) := by
  unfold markupNameLength
  split
  · simp
  · next c rest =>
    split
    · next starts =>
      rw [Nat.add_comm, List.take_succ_cons, List.mem_cons, not_or]
      refine ⟨?_, notMem_take_countWhile rest (by decide)⟩
      rintro rfl
      cases starts
    · simp

theorem crisp_wordLength : Crisp wordLength :=
  .of_notMem notMem_wordLength

theorem crisp_nameLength : Crisp nameLength := by
  refine .of_notMem fun rest => ?_
  unfold nameLength
  dsimp only
  split
  · exact notMem_wordLength rest
  · simp

theorem crisp_privateNameLength : Crisp privateNameLength := by
  refine .of_notMem fun rest => ?_
  unfold privateNameLength
  split
  · next rest =>
    split
    · simp
    · rw [List.take_succ_cons, List.mem_cons, not_or]
      exact ⟨by decide, notMem_wordLength rest⟩
  · simp

theorem crisp_markupNameLength : Crisp markupNameLength :=
  .of_notMem notMem_markupNameLength

/-! ## Numbers -/

theorem notMem_exponentLength (rest : List Char) : '\r' ∉ rest.take (exponentLength rest) := by
  have digits : ∀ rest : List Char, '\r' ∉ rest.take (countWhile isDigitOrSeparator rest) :=
    fun rest => notMem_take_countWhile rest (by decide)
  unfold exponentLength
  split
  · next e sign rest =>
    split
    · next isMark =>
      have mark : e ≠ '\r' := by
        rintro rfl
        cases isMark
      split
      · next isSign =>
        have sign : sign ≠ '\r' := by
          rintro rfl
          cases isSign
        split
        · simp
        · simpa [mark.symm, sign.symm] using digits rest
      · split
        · simp
        · simpa [mark.symm] using digits (sign :: rest)
    · simp
  · simp

theorem notMem_decimal (rest : List Char) : '\r' ∉ rest.take (numeralLength.decimal rest) := by
  have digits : ∀ rest : List Char, '\r' ∉ rest.take (countWhile isDigitOrSeparator rest) :=
    fun rest => notMem_take_countWhile rest (by decide)
  -- the number from its fraction on, which may be missing
  have number : ∀ count, '\r' ∉ (rest.drop (countWhile isDigitOrSeparator rest)).take count →
      '\r' ∉ rest.take
        (if (decide (countWhile isDigitOrSeparator rest + count ≤ 1)
            && countWhile isDigitOrSeparator rest == 0) = true then 0
        else
          let n := countWhile isDigitOrSeparator rest + count
            + exponentLength ((rest.drop (countWhile isDigitOrSeparator rest)).drop count)
          if ((rest.drop n).head? == some 'n') = true then n + 1 else n) := by
    intro count fraction
    rw [List.drop_drop]
    have number := notMem_take_add (notMem_take_add (digits rest) fraction)
      (notMem_exponentLength (rest.drop (countWhile isDigitOrSeparator rest + count)))
    split
    · simp
    · dsimp only
      split
      · next big =>
        refine notMem_take_add number ?_
        rw [List.take_one, eq_of_beq big]
        simp
      · exact number
  unfold numeralLength.decimal
  dsimp only
  split
  · next after isAfter =>
    refine number _ ?_
    rw [isAfter, Nat.add_comm, List.take_succ_cons, List.mem_cons, not_or]
    exact ⟨by decide, digits after⟩
  · exact number 0 (by simp)

theorem notMem_numeralLength (rest : List Char) : '\r' ∉ rest.take (numeralLength rest) := by
  unfold numeralLength
  split
  · next base digits =>
    split
    · next isBase =>
      have other : base ≠ '\r' := by
        rintro rfl
        revert isBase
        decide
      have letters : '\r' ∉ digits.take (countWhile (fun c => c.isAlphanum || c == '_') digits) :=
        notMem_take_countWhile digits (by decide)
      rw [Nat.add_comm]
      simpa [other.symm] using letters
    · exact notMem_decimal _
  · exact notMem_decimal _

theorem crisp_numberLength : Crisp numberLength := by
  refine .of_notMem fun rest => ?_
  unfold numberLength
  dsimp only
  split
  · simp
  · exact notMem_numeralLength rest

/-! ## Strings and patterns -/

theorem ends_stringTail {quote : Char} (other : quote ≠ '\r') (count : Nat) (rest : List Char) :
    stringTail quote count rest = 0
      ∨ ∃ further, stringTail quote count rest = count + further ∧ Ends rest further := by
  fun_induction stringTail quote count rest with
  | case1 => exact .inl rfl
  | case2 count c rest ih =>
    rcases ih with zero | ⟨further, read, ends⟩
    · exact .inl zero
    · exact .inr ⟨further + 2, by omega, (ends.cons _).cons _⟩
  | case3 count c rest _ isQuote =>
    obtain rfl := eq_of_beq isQuote
    exact .inr ⟨1, rfl, .here other rest⟩
  | case4 => exact .inl rfl
  | case5 count c rest _ _ _ ih =>
    rcases ih with zero | ⟨further, read, ends⟩
    · exact .inl zero
    · exact .inr ⟨further + 1, by omega, ends.cons _⟩

theorem ends_attributeTail {quote : Char} (other : quote ≠ '\r') (count : Nat) (rest : List Char) :
    attributeTail quote count rest = 0
      ∨ ∃ further, attributeTail quote count rest = count + further ∧ Ends rest further := by
  fun_induction attributeTail quote count rest with
  | case1 => exact .inl rfl
  | case2 count c rest isQuote =>
    obtain rfl := eq_of_beq isQuote
    exact .inr ⟨1, rfl, .here other rest⟩
  | case3 => exact .inl rfl
  | case4 count c rest _ _ ih =>
    rcases ih with zero | ⟨further, read, ends⟩
    · exact .inl zero
    · exact .inr ⟨further + 1, by omega, ends.cons _⟩

theorem ends_patternTail (inClass : Bool) (count : Nat) (rest : List Char) :
    patternTail inClass count rest = 0
      ∨ ∃ further, patternTail inClass count rest = count + further ∧ Ends rest further := by
  fun_induction patternTail inClass count rest with
  | case1 => exact .inl rfl
  | case2 => exact .inl rfl
  | case3 inClass count c rest _ ih =>
    rcases ih with zero | ⟨further, read, ends⟩
    · exact .inl zero
    · exact .inr ⟨further + 2, by omega, (ends.cons _).cons _⟩
  | case4 => exact .inl rfl
  | case5 inClass count c rest _ _ _ ih | case6 inClass count c rest _ _ _ _ ih
  | case8 inClass count c rest _ _ _ _ _ ih =>
    rcases ih with zero | ⟨further, read, ends⟩
    · exact .inl zero
    · exact .inr ⟨further + 1, by omega, ends.cons _⟩
  | case7 inClass count c rest _ _ _ _ closes =>
    simp only [Bool.and_eq_true, beq_iff_eq] at closes
    obtain ⟨rfl, -⟩ := closes
    refine .inr ⟨countWhile isNamePart rest + 1, by omega, ?_⟩
    have flags := notMem_take_countWhile rest isNamePart_carriage
    refine ⟨_, by rw [List.take_succ_cons, List.getLast?_cons], ?_⟩
    cases last : (rest.take (countWhile isNamePart rest)).getLast? with
    | none => decide
    | some flag =>
      rintro rfl
      exact flags (List.mem_of_getLast? last)

theorem crisp_stringLength : Crisp stringLength := by
  refine .of_ends fun rest => ?_
  unfold stringLength
  split
  · next c rest =>
    split
    · next isQuote =>
      have other : c ≠ '\r' := by
        rintro rfl
        cases isQuote
      rcases ends_stringTail other 1 rest with zero | ⟨further, read, ends⟩
      · exact .inl zero
      · rw [read, Nat.add_comm]
        exact .inr (ends.cons c)
    · exact .inl rfl
  · exact .inl rfl

theorem crisp_attributeStringLength : Crisp attributeStringLength := by
  refine .of_ends fun rest => ?_
  unfold attributeStringLength
  split
  · next c rest =>
    split
    · next isQuote =>
      have other : c ≠ '\r' := by
        rintro rfl
        cases isQuote
      rcases ends_attributeTail other 1 rest with zero | ⟨further, read, ends⟩
      · exact .inl zero
      · rw [read, Nat.add_comm]
        exact .inr (ends.cons c)
    · exact .inl rfl
  · exact .inl rfl

theorem crisp_patternLength : Crisp patternLength := by
  refine .of_ends fun rest => ?_
  unfold patternLength
  split
  · next c rest =>
    split
    · exact .inl rfl
    · rcases ends_patternTail false 1 (c :: rest) with zero | ⟨further, read, ends⟩
      · exact .inl zero
      · rw [read, Nat.add_comm]
        exact .inr (ends.cons '/')
  · exact .inl rfl

theorem head?_templateChunk (count : Nat) (rest : List Char) :
    ∃ further, templateChunk count rest = count + further
      ∧ (rest.drop further).head? ≠ some '\n' := by
  fun_induction templateChunk count rest with
  | case1 => exact ⟨0, rfl, by simp⟩
  | case2 count c rest ih =>
    obtain ⟨further, read, next⟩ := ih
    exact ⟨further + 2, by omega, next⟩
  | case3 => exact ⟨0, rfl, by simp⟩
  | case4 count c rest _ _ isQuote =>
    obtain rfl := eq_of_beq isQuote
    exact ⟨0, rfl, by simp⟩
  | case5 count c rest _ _ _ ih =>
    obtain ⟨further, read, next⟩ := ih
    exact ⟨further + 1, by omega, next⟩

theorem crisp_templateChunk : Crisp (templateChunk 0) := by
  refine .of_head? fun rest => ?_
  obtain ⟨further, read, next⟩ := head?_templateChunk 0 rest
  rw [read, Nat.zero_add]
  exact next

/-! ## Markup -/

theorem ends_closed (before count most : Nat) (rest : List Char) :
    referenceLength.closed before count most rest = 0
      ∨ referenceLength.closed before count most rest = before + (count + 1)
        ∧ Ends rest (count + 1) := by
  unfold referenceLength.closed
  split
  · next closes =>
    simp only [Bool.and_eq_true, beq_iff_eq] at closes
    refine .inr ⟨rfl, ';', ?_, by decide⟩
    rw [List.take_add, List.take_one, closes.2]
    simp
  · exact .inl rfl

theorem crisp_referenceLength : Crisp referenceLength := by
  refine .of_ends fun rest => ?_
  unfold referenceLength
  split
  · next x rest =>
    split
    · rcases ends_closed 3 (countWhile referenceLength.isHexDigit rest) 6 rest with
        zero | ⟨read, ends⟩
      · exact .inl zero
      · rw [read, Nat.add_comm]
        exact .inr (((ends.cons x).cons '#').cons '&')
    · rcases ends_closed 2 (countWhile Char.isDigit (x :: rest)) 5 (x :: rest) with
        zero | ⟨read, ends⟩
      · exact .inl zero
      · rw [read, Nat.add_comm]
        exact .inr ((ends.cons '#').cons '&')
  · next rest _ =>
    rcases ends_closed 1 (countWhile Char.isAlpha rest) 30 rest with zero | ⟨read, ends⟩
    · exact .inl zero
    · rw [read, Nat.add_comm]
      exact .inr (ends.cons '&')
  · exact .inl rfl

theorem crisp_markupTextLength : Crisp markupTextLength := by
  refine .of_head? fun rest feed => ?_
  rw [markupTextLength, drop_countWhile] at feed
  have stops := List.head?_dropWhile_not
    (fun c => !(c == '<' || c == '>' || c == '{' || c == '}' || c == '&')) rest
  rw [feed] at stops
  revert stops
  decide

/-! ## Operators -/

theorem crisp_operatorLength {operator : BinaryOperator} (listed : operator ∈ binaryOperators) :
    Crisp operator.length := by
  have plain : ∀ operator ∈ binaryOperators, operator.text.toList.contains '\r' = false := by decide
  refine .of_notMem fun rest => ?_
  unfold BinaryOperator.length
  split
  · exact notMem_keywordLength (plain operator listed) rest
  · exact notMem_markNotBefore (plain operator listed) _ rest

theorem crisp_assignmentLength : Crisp assignmentLength := by
  have plain : ∀ operator ∈ assignmentOperators, operator.toList.contains '\r' = false := by decide
  refine .of_notMem fun rest => ?_
  unfold assignmentLength
  split
  · next operator found =>
    have positive := List.find?_some found
    rw [decide_eq_true_eq] at positive
    rw [← markNotBefore_eq positive]
    exact notMem_markNotBefore (plain operator (List.mem_of_find?_eq_some found)) _ rest
  · simp

end RenderProbe.Syntax
