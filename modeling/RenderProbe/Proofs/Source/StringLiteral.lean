import Mathlib.Logic.Function.Basic
import RenderProbe.Source.Snippet

/-!
# Generated string literals

A string literal is read one character at a time. It starts with a quote, a backslash makes the
character after it literal, and the first quote that is not literal closes it.

* `Reading.step` and `Reading.of`: the rule, as a machine, and how far it gets in a text.
* `after_escape`: an escaped value is read as the value, and the literal is still open behind it.
* `escapes_in_escape`: which backslashes stand in an escaped value.
* `stringLiteral_reads_back`: a generated literal closes at its last character and gives its value,
  so generated calls and imports tell their names and modules apart.
-/

namespace RenderProbe.Snippet

/-! ## Escaping in two passes -/

/-- A text with every occurrence of a character replaced. -/
def replaceAll (target : Char) (replacement text : List Char) : List Char :=
  text.flatMap fun c => if c = target then replacement else [c]

/-- Escaping doubles the backslashes first and then puts one before each quote. -/
theorem escape_eq_replaceAll {quote : Char} (plain : quote ≠ '\\') (value : List Char) :
    escape quote value =
      replaceAll quote ['\\', quote] (replaceAll '\\' ['\\', '\\'] value) := by
  have differ : '\\' ≠ quote := plain.symm
  rw [escape, replaceAll, replaceAll, List.flatMap_assoc]
  congr 1
  funext c
  by_cases backslash : c = '\\'
  · simp [backslash, differ]
  · by_cases isQuote : c = quote <;> simp [backslash, isQuote, plain]

theorem escape_cons_special {quote c : Char} (special : c = '\\' ∨ c = quote) (rest : List Char) :
    escape quote (c :: rest) = '\\' :: c :: escape quote rest := by
  simp [escape, special]

theorem escape_cons_plain {quote c : Char} (plain : ¬(c = '\\' ∨ c = quote)) (rest : List Char) :
    escape quote (c :: rest) = c :: escape quote rest := by
  simp [escape, plain]

/-! ## The reader -/

/-- How far a string literal has been read: inside it, behind a backslash, or behind the closing
quote, with the value so far. -/
inductive Reading where
  | start
  /-- Between the quotes, with the value so far. -/
  | inside (quote : Char) (value : List Char)
  /-- Right behind a backslash that makes the next character literal. -/
  | escaping (quote : Char) (value : List Char)
  | closed (value : List Char)
  /-- No literal: it does not start with a quote, or goes on behind the closing one. -/
  | broken
  deriving DecidableEq

namespace Reading

/-- Read one more character. -/
def step : Reading → Char → Reading
  | start, c => if c = '\'' ∨ c = '"' then inside c [] else broken
  | inside quote value, c =>
    if c = quote then closed value
    else if c = '\\' then escaping quote value
    else inside quote (value ++ [c])
  | escaping quote value, c => inside quote (value ++ [c])
  | closed _, _ => broken
  | broken, _ => broken

/-- Read a text. -/
def after (reading : Reading) (text : List Char) : Reading :=
  text.foldl step reading

/-- Read a text from its start. -/
def of (text : List Char) : Reading :=
  start.after text

variable {reading : Reading} {quote c : Char} {value read text front back : List Char}

theorem after_append : reading.after (front ++ back) = (reading.after front).after back :=
  List.foldl_append

theorem after_cons : reading.after (c :: text) = (reading.step c).after text :=
  rfl

theorem broken_after (text : List Char) : broken.after text = broken := by
  induction text with
  | nil => rfl
  | cons c text ih => exact ih

/-- A literal that has closed before the end of a text is none. -/
theorem closed_after (more : text ≠ []) : (closed value).after text = broken := by
  obtain ⟨c, rest, rfl⟩ := List.exists_cons_of_ne_nil more
  exact broken_after rest

theorem step_backslash (plain : quote ≠ '\\') :
    (inside quote read).step '\\' = escaping quote read := by
  simp [step, plain.symm]

theorem step_plain (other : ¬(c = '\\' ∨ c = quote)) :
    (inside quote read).step c = inside quote (read ++ [c]) := by
  rw [not_or] at other
  simp [step, other]

theorem step_quote : (inside quote read).step quote = closed read := by
  simp [step]

end Reading

open Reading

/-! ## Escaped values -/

section Escapes

variable {quote : Char} {value read front back : List Char}

/-- Escaped, a value is read as it is, and no quote in it closes the literal. By induction on the
value, with one or two characters of the literal for each of its own. -/
theorem after_escape (plain : quote ≠ '\\') (value read : List Char) :
    (inside quote read).after (escape quote value) = inside quote (read ++ value) := by
  induction value generalizing read with
  | nil => simp [escape, after]
  | cons c rest ih =>
    have step : (inside quote read).after (escape quote (c :: rest)) =
        (inside quote (read ++ [c])).after (escape quote rest) := by
      by_cases special : c = '\\' ∨ c = quote
      · rw [escape_cons_special special, after_cons, step_backslash plain, after_cons, Reading.step]
      · rw [escape_cons_plain special, after_cons, step_plain special]
    rw [step, ih, List.append_assoc, List.singleton_append]

/-- A backslash in an escaped value is literal, or makes a backslash or the quote literal. -/
theorem escapes_in_escape (plain : quote ≠ '\\')
    (split : escape quote value ++ [quote] = front ++ '\\' :: back) :
    (∃ known, (inside quote read).after front = escaping quote known)
      ∨ (∃ known, (inside quote read).after front = inside quote known)
        ∧ back.head? ∈ [some '\\', some quote] := by
  induction value generalizing read front with
  | nil =>
    have length := congrArg List.length split
    have only : front = [] := List.eq_nil_of_length_eq_zero (by simp [escape] at length; omega)
    rw [only] at split
    exact absurd (List.cons.inj split).1 plain
  | cons c rest ih =>
    by_cases special : c = '\\' ∨ c = quote
    · rw [escape_cons_special special] at split
      match front with
      | [] =>
        simp only [List.cons_append, List.nil_append, List.cons.injEq, true_and] at split
        exact .inr ⟨⟨read, rfl⟩, by simpa [← split] using special⟩
      | [first] =>
        simp only [List.cons_append, List.cons.injEq] at split
        exact .inl ⟨read, by rw [← split.1]; exact step_backslash plain⟩
      | first :: second :: front =>
        simp only [List.cons_append, List.cons.injEq] at split
        obtain ⟨rfl, rfl, split⟩ := split
        rw [after_cons, step_backslash plain, after_cons, Reading.step]
        exact ih split
    · rw [escape_cons_plain special] at split
      match front with
      | [] =>
        simp only [List.cons_append, List.nil_append, List.cons.injEq] at split
        exact absurd (.inl split.1) special
      | first :: front =>
        simp only [List.cons_append, List.cons.injEq] at split
        obtain ⟨rfl, split⟩ := split
        rw [after_cons, step_plain special]
        exact ih split

end Escapes

/-! ## Literals -/

section Literals

variable (style : QuoteStyle) (value : String)

theorem char_ne_backslash : style.char ≠ '\\' := by
  cases style <;> decide

theorem step_start_char : Reading.start.step style.char = .inside style.char [] := by
  cases style <;> rfl

theorem toList_stringLiteral : (stringLiteral style value).toList =
    style.char :: (escape style.char value.toList ++ [style.char]) :=
  String.toList_ofList

theorem of_stringLiteral :
    Reading.of (stringLiteral style value).toList = .closed value.toList := by
  rw [toList_stringLiteral, Reading.of, after_cons, step_start_char, after_append,
    after_escape (char_ne_backslash style), after_cons, step_quote, List.nil_append]
  rfl

/-- No front of a literal is a literal. -/
theorem of_front_ne_closed {front back : List Char} {read : List Char}
    (split : (stringLiteral style value).toList = front ++ back) (more : back ≠ []) :
    Reading.of front ≠ .closed read := by
  intro closed
  have whole := of_stringLiteral style value
  rw [split, Reading.of, after_append, ← Reading.of, closed, closed_after more] at whole
  cases whole

theorem escapes_in_stringLiteral {front back : List Char}
    (split : (stringLiteral style value).toList = front ++ '\\' :: back) :
    (∃ read, Reading.of front = .escaping style.char read)
      ∨ (∃ read, Reading.of front = .inside style.char read)
        ∧ back.head? ∈ [some '\\', some style.char] := by
  rw [toList_stringLiteral] at split
  cases front with
  | nil => exact absurd (List.cons.inj split).1 (char_ne_backslash style)
  | cons first front =>
    simp only [List.cons_append, List.cons.injEq] at split
    obtain ⟨rfl, split⟩ := split
    rw [Reading.of, after_cons, step_start_char]
    exact escapes_in_escape (char_ne_backslash style) split

theorem stringLiteral_injective : Function.Injective (stringLiteral style) := by
  intro first second same
  have read := of_stringLiteral style first
  rw [same, of_stringLiteral style second] at read
  exact (String.toList_inj.mp (Reading.closed.inj read)).symm

theorem wrapCall_injective (symbol expression : String) :
    Function.Injective (wrapCall style symbol expression) := by
  intro first second same
  have literals : symbol ++ "(" ++ expression ++ ", " ++ stringLiteral style first ++ ")" =
      symbol ++ "(" ++ expression ++ ", " ++ stringLiteral style second ++ ")" := same
  rw [String.append_left_inj, String.append_right_inj] at literals
  exact stringLiteral_injective style literals

theorem importStatement_injective (symbol : String) :
    Function.Injective (importStatement style symbol) := by
  intro first second same
  rw [importStatement, importStatement, String.append_left_inj, String.append_right_inj] at same
  exact stringLiteral_injective style same

end Literals

/-- A generated literal is the value between quotes, with the backslashes doubled and then a
backslash put before each quote. Read by the rule of string literals, it closes at its last
character, not before, and gives the value. A backslash in it is either literal itself or makes a
backslash or the quote literal. Hence calls that differ in the name alone and imports that differ in
the module alone are different texts. -/
theorem stringLiteral_reads_back (style : QuoteStyle) :
    (∀ value : String,
      (stringLiteral style value).toList = style.char ::
          (replaceAll style.char ['\\', style.char] (replaceAll '\\' ['\\', '\\'] value.toList)
            ++ [style.char])
        ∧ Reading.of (stringLiteral style value).toList = .closed value.toList
        ∧ (∀ front back read, (stringLiteral style value).toList = front ++ back → back ≠ [] →
            Reading.of front ≠ .closed read)
        ∧ ∀ front back, (stringLiteral style value).toList = front ++ '\\' :: back →
            (∃ read, Reading.of front = .escaping style.char read)
              ∨ (∃ read, Reading.of front = .inside style.char read)
                ∧ back.head? ∈ [some '\\', some style.char])
      ∧ (∀ symbol expression, Function.Injective (wrapCall style symbol expression))
      ∧ ∀ symbol, Function.Injective (importStatement style symbol) := by
  refine ⟨fun value => ⟨?_, of_stringLiteral style value, ?_, ?_⟩, wrapCall_injective style,
    importStatement_injective style⟩
  · rw [toList_stringLiteral, escape_eq_replaceAll (char_ne_backslash style)]
  · exact fun front back read => of_front_ne_closed style value
  · exact fun front back => escapes_in_stringLiteral style value

/-- Backslashes at the end of a value do not keep the literal open. -/
example : Reading.of (stringLiteral .single "it's \\").toList = .closed "it's \\".toList := by
  decide

end RenderProbe.Snippet
