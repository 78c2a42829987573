import RenderProbe.Yaml.Token

/-!
# Words in flow collections

Letters and digits in front of a mark of a flow collection are a plain scalar of their own. It is
read whole, however long it is, and the place behind it is as many columns further on.

* `plain_word`: the reader of plain scalars.
* `Lexer.plain_word`: the token that a word becomes.
-/

namespace RenderProbe.Yaml

variable {c mark : Char} {word tail rest : List Char}

/-! ## Letters and digits -/

theorem ne_of_isAlphanum {d : Char} (isWord : c.isAlphanum = true) (other : d.isAlphanum = false) :
    c ≠ d := by
  rintro rfl
  rw [isWord] at other
  cases other

theorem toNat_le_of_isAlphanum (isWord : c.isAlphanum = true) : c.toNat ≤ 122 := by
  delta Char.isAlphanum Char.isAlpha Char.isUpper Char.isLower Char.isDigit at isWord
  simp only [Bool.or_eq_true, Bool.and_eq_true, decide_eq_true_eq, ge_iff_le,
    UInt32.le_iff_toNat_le] at isWord
  have upperZ : 'Z'.val.toNat = 90 := rfl
  have lowerZ : 'z'.val.toNat = 122 := rfl
  have nine : '9'.val.toNat = 57 := rfl
  have isCode : c.toNat = c.val.toNat := rfl
  omega

theorem isBreak_of_isAlphanum (isWord : c.isAlphanum = true) : isBreak c = false := by
  have small := toNat_le_of_isAlphanum isWord
  have notFeed : c ≠ '\n' := ne_of_isAlphanum isWord rfl
  have notReturn : c ≠ '\r' := ne_of_isAlphanum isWord rfl
  simp only [isBreak, Bool.or_eq_false_iff, beq_eq_false_iff_ne]
  exact ⟨⟨⟨⟨notFeed, notReturn⟩, by omega⟩, by omega⟩, by omega⟩

theorem plainStops_of_isAlphanum (isWord : c.isAlphanum = true) (following : Option Char) :
    plainStops true c following = false := by
  have isNot {d : Char} (other : d.isAlphanum = false) : (c == d) = false :=
    beq_eq_false_iff_ne.mpr (ne_of_isAlphanum isWord other)
  simp [plainStops, isBlankEnd, isFlowMark, isBreak_of_isAlphanum isWord, isNot]

/-! ## The reader -/

/-- Letters and digits take a column each. -/
theorem Cursor.advance_word (isWord : ∀ c ∈ word, c.isAlphanum = true) (index line column : Nat) :
    (⟨word ++ rest, index, line, column⟩ : Cursor).advance word.length
      = ⟨rest, index + word.length, line, column + word.length⟩ := by
  induction word generalizing index column with
  | nil => rfl
  | cons c word ih =>
    rw [List.forall_mem_cons] at isWord
    have isNoMark : (c.toNat == 0xFEFF) = false :=
      beq_eq_false_iff_ne.mpr (by have := toNat_le_of_isAlphanum isWord.1; omega)
    have isNext : (⟨c :: word ++ rest, index, line, column⟩ : Cursor).next
        = ⟨word ++ rest, index + 1, line, column + 1⟩ := by
      simp [Cursor.next, isBreak_of_isAlphanum isWord.1, isNoMark]
    rw [List.length_cons, Cursor.advance, isNext, ih isWord.2, Nat.add_comm word.length,
      Nat.add_assoc, Nat.add_assoc]

theorem plainRun_word (isWord : ∀ c ∈ word, c.isAlphanum = true) (isMark : isFlowMark mark = true) :
    plainRun true (word ++ mark :: tail) = word := by
  induction word with
  | nil => simp [plainRun, plainStops, isMark]
  | cons c word ih =>
    rw [List.forall_mem_cons] at isWord
    rw [List.cons_append, plainRun, plainStops_of_isAlphanum isWord.1, ih isWord.2]
    rfl

theorem plainGap_of_isFlowMark (isMark : isFlowMark mark = true) (index line column : Nat) :
    plainGap ⟨mark :: tail, index, line, column⟩
      = ⟨[], ⟨mark :: tail, index, line, column⟩, false⟩ := by
  simp only [isFlowMark, Bool.or_eq_true, beq_iff_eq] at isMark
  rcases isMark with (((rfl | rfl) | rfl) | rfl) | rfl <;> rfl

/-- A word in front of a mark is read whole. -/
theorem plain_word (nonempty : word ≠ []) (isWord : ∀ c ∈ word, c.isAlphanum = true)
    (isMark : isFlowMark mark = true) (indent : Int) (index line column : Nat) :
    plain true indent ⟨word ++ mark :: tail, index, line, column⟩
      = ⟨word, ⟨mark :: tail, index + word.length, line, column + word.length⟩, false⟩ := by
  have isNoRemark :
      (⟨word ++ mark :: tail, index, line, column⟩ : Cursor).isAt '#' = false := by
    obtain ⟨c, others, rfl⟩ := List.exists_cons_of_ne_nil nonempty
    simpa [Cursor.isAt, Cursor.peek] using ne_of_isAlphanum (isWord c List.mem_cons_self) rfl
  rw [plain, plainFrom]
  simp only [plainRun_word isWord isMark, Cursor.advance_word isWord, plainGap_of_isFlowMark isMark,
    isNoRemark]
  simp [nonempty]

/-! ## Tokens -/

namespace Lexer

variable {lexer lexer' : Lexer}

/-- Read a number of tokens, which the text has to hold. -/
def after : Nat → Lexer → Except Error Lexer
  | 0, lexer => .ok lexer
  | n + 1, lexer => do
    let ready ← (skipBlanks (lexer.cursor.rest.length + 1) lexer).dropStaleKeys
    let ready := ready.unwind ready.cursor.column
    let c ← orMalformed ready.cursor.peek
    after n (← ready.token c)

/-- Reading goes on behind the tokens that are read. So a long text is read in parts, of which each
is run or passed by a lemma. -/
theorem run_of_after {n : Nat} (reached : lexer.after n = .ok lexer') (rounds : Nat) :
    run (n + rounds) lexer = run rounds lexer' := by
  induction n generalizing lexer with
  | zero =>
    cases reached
    rw [Nat.zero_add]
  | succ n ih =>
    rw [Nat.add_right_comm, run]
    rw [after] at reached
    cases isReady : (skipBlanks (lexer.cursor.rest.length + 1) lexer).dropStaleKeys with
    | error e =>
      rw [isReady] at reached
      cases reached
    | ok ready =>
      rw [isReady] at reached
      cases isNext : (ready.unwind ready.cursor.column).cursor.peek with
      | none => simp [isNext, orMalformed, bind, Except.bind] at reached
      | some c =>
        cases isToken : (ready.unwind ready.cursor.column).token c with
        | error e => simp [isNext, isToken, orMalformed, bind, Except.bind] at reached
        | ok next =>
          simp only [isNext, isToken, orMalformed, bind, Except.bind] at reached
          simp only [isNext, isToken]
          exact ih reached

/-- A word in a flow collection, where no key may start, becomes a token. -/
theorem plain_word (nonempty : word ≠ []) (isWord : ∀ c ∈ word, c.isAlphanum = true)
    (isMark : isFlowMark mark = true) {index line column : Nat}
    (isAt : lexer.cursor = ⟨word ++ mark :: tail, index, line, column⟩) (inFlow : lexer.flow ≠ 0)
    (noKey : lexer.keyAllowed = false) :
    lexer.plain = .ok { lexer.push (.scalar word true) with
      cursor := ⟨mark :: tail, index + word.length, line, column + word.length⟩ } := by
  have isFlow : (lexer.flow != 0) = true := bne_iff_ne.mpr inFlow
  simp only [plain, saveKey, noKey, Bool.not_false, if_true, isAt, isFlow,
    Yaml.plain_word nonempty isWord isMark, push]

end Lexer

end RenderProbe.Yaml
