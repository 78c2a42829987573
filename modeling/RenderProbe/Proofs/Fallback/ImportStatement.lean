import RenderProbe.Proofs.Fallback.Conservation

/-!
# The imports that an edit keeps

An import that is finished before the next export is the same one after a wrap: the edits start
at export lines, and the lines that they add are exports. Then the import of the wrapper is put in,
unless one of the imports names it.

* `clausesFrom_append`: imports that end in a text stay what they are when the text is continued.
* `Respelled.clauses`: an edit keeps the imports of a text in which every import is finished before
  the next export.
* `clauses_edit` and `clauses_edited`: so all edits together keep them.
* `ensureImport_of_named` and `ensureImport_of_unnamed`: when and where an import is put in.
-/

namespace RenderProbe.Fallback

open Text

/-! ## Seams -/

/-- Where a text is continued a line ends: the text ends with a line break, or what follows starts
with one. -/
def Seam (text extra : List Char) : Prop :=
  (∃ c more, IsBreak c ∧ extra = c :: more) ∨ ∀ c, text.getLast? = some c → IsBreak c

section Seams

variable {text extra before rest clause statement : List Char} {c : Char}

theorem IsBreak.isStop (isBreak : IsBreak c) : isStop c = true := by
  rcases isBreak with rfl | rfl <;> rfl

theorem Seam.suffix (seam : Seam (before ++ rest) extra) : Seam rest extra := by
  refine seam.imp_right fun ends c last => ends c ?_
  rw [List.getLast?_append, last]
  rfl

/-- Characters in front of a seam are in front of a line break. -/
theorem Seam.cases (seam : Seam text extra) (nonempty : text ≠ []) :
    (∃ c more, IsBreak c ∧ extra = c :: more) ∨ ∃ before c, IsBreak c ∧ text = before ++ [c] := by
  refine seam.imp_right fun ends => ?_
  cases last : text.getLast? with
  | none => exact absurd (List.getLast?_eq_none_iff.mp last) nonempty
  | some c =>
    obtain ⟨before, rfl⟩ := List.getLast?_eq_some_iff.mp last
    exact ⟨before, c, ends c last, rfl⟩

theorem Seam.front_append (seam : Seam text extra) (nonempty : text ≠ []) :
    front (text ++ extra) = front text := by
  rcases seam.cases nonempty with ⟨c, more, isBreak, rfl⟩ | ⟨before, c, isBreak, rfl⟩
  · exact front_append_stop isBreak.isStop text
  · rw [List.append_assoc, List.singleton_append, front_append_stop isBreak.isStop,
      front_append_stop isBreak.isStop]

theorem startsImport_front : StartsImport (front text) ↔ StartsImport text := by
  rw [StartsImport, skipIndent_front, literalThenBoundary?_front (by decide), Option.isSome_map]
  exact Iff.rfl

theorem skipIndent_append_stop (stop : isStop c = true) (before : List Char) :
    skipIndent (before ++ c :: rest) = skipIndent before ++ c :: rest := by
  induction before with
  | nil => simp [skipIndent, isIndent_stop stop]
  | cons d before ih =>
    rw [List.cons_append]
    cases blank : isIndent d with
    | true => simpa [skipIndent, blank] using ih
    | false => simp [skipIndent, blank]

theorem literal?_append_of_notMem {wanted : List Char} (absent : c ∉ wanted) (before : List Char) :
    literal? wanted (before ++ c :: rest) = (literal? wanted before).map (· ++ c :: rest) := by
  induction wanted generalizing before with
  | nil => rfl
  | cons d wanted ih =>
    rw [List.mem_cons, not_or] at absent
    cases before with
    | nil => simp [literal?, Ne.symm absent.1]
    | cons e before => by_cases same : d = e <;> simp [literal?, same, ih absent.2]

/-- The end of a statement is on the line of the statement. -/
theorem skipStatementEnd_append_break (isBreak : IsBreak c) (before : List Char) :
    skipStatementEnd (before ++ c :: rest) = skipStatementEnd before ++ c :: rest := by
  have noMark : c ∉ [';'] ∧ c ∉ ['/', '/'] := by
    rcases isBreak with rfl | rfl <;> decide
  have mark :
      (literal? [';'] (skipIndent before ++ c :: rest)).getD (skipIndent before ++ c :: rest)
      = (literal? [';'] (skipIndent before)).getD (skipIndent before) ++ c :: rest := by
    rw [literal?_append_of_notMem noMark.1]
    cases literal? [';'] (skipIndent before) <;> rfl
  unfold skipStatementEnd
  simp only [skipIndent_append_stop isBreak.isStop, mark, literal?_append_of_notMem noMark.2]
  cases literal? ['/', '/'] (skipIndent ((literal? [';'] (skipIndent before)).getD
    (skipIndent before))) with
  | none => rfl
  | some comment =>
    have ends : (c != '\r' && c != '\n') = false := by rcases isBreak with rfl | rfl <;> rfl
    simp only [Option.map_some]
    induction comment with
    | nil => simp [ends]
    | cons d comment ih =>
      rw [List.cons_append, List.dropWhile_cons, List.dropWhile_cons]
      split
      · exact ih
      · rfl

theorem skipStatementEnd_append (seam : Seam text extra) (continued : text = [] → ∃ c more,
    IsBreak c ∧ extra = c :: more) :
      skipStatementEnd (text ++ extra) = skipStatementEnd text ++ extra := by
  have cases :
      (∃ c more, IsBreak c ∧ extra = c :: more) ∨ ∃ before c, IsBreak c ∧ text = before ++ [c] := by
    by_cases none : text = []
    · exact .inl (continued none)
    · exact seam.cases none
  rcases cases with ⟨c, more, isBreak, rfl⟩ | ⟨before, c, isBreak, rfl⟩
  · exact skipStatementEnd_append_break isBreak text
  · rw [skipStatementEnd_append_break isBreak, List.append_assoc, List.singleton_append,
      skipStatementEnd_append_break isBreak, List.append_assoc, List.singleton_append]

/-- An import that ends in a text stays what it is when the text is continued. -/
theorem ImportText.importAt?_append (isImport : ImportText clause statement)
    (seam : Seam (statement ++ rest) extra) :
    ∃ length, length ≤ (statement ++ rest).length
      ∧ importAt? (statement ++ rest) = some ⟨clause, length⟩
      ∧ importAt? (statement ++ rest ++ extra) = some ⟨clause, length⟩ := by
  have continued : rest = [] → ∃ c more, IsBreak c ∧ extra = c :: more := by
    rintro rfl
    refine seam.resolve_right fun ends => ?_
    obtain ⟨gap, quote, module, -, isQuoted, -, -, rfl⟩ := isImport.split
    have isBreak := ends quote (List.getLast?_eq_some_iff.mpr
      ⟨gap ++ ("import".toList ++ (clause ++ quote :: module)), by simp⟩)
    rcases isBreak with rfl | rfl <;> cases isQuoted
  refine ⟨(statement ++ rest).length - (skipStatementEnd rest).length, Nat.sub_le .., ?_, ?_⟩
  · exact importAt?_eq_some_iff.mpr ⟨statement, rest, rfl, isImport, rfl⟩
  · refine importAt?_eq_some_iff.mpr ⟨statement, rest ++ extra, List.append_assoc .., isImport, ?_⟩
    rw [skipStatementEnd_append seam.suffix continued]
    simp only [List.length_append]
    omega

end Seams

/-! ## The clauses of a text -/

/-- The clauses of the imports that are found from a place on; `skip` counts the characters that
still belong to the last one found. -/
def clausesFrom (lineStart : Bool) (skip : Nat) (text : List Char) : List (List Char) :=
  (importsFrom lineStart skip 0 text).map Prod.fst

/-- The clauses of the imports of a text. -/
def clauses (text : List Char) : List (List Char) :=
  clausesFrom true 0 text

section Clauses

variable {text rest passed extra clause : List Char} {lineStart : Bool} {skip : Nat} {c : Char}

theorem map_fst_importsFrom (lineStart : Bool) (skip offset : Nat) (text : List Char) :
    (importsFrom lineStart skip offset text).map Prod.fst = clausesFrom lineStart skip text := by
  unfold clausesFrom
  generalize 0 = other
  induction text generalizing lineStart skip offset other with
  | nil => rfl
  | cons c rest ih =>
    cases skip with
    | succ n => exact ih _ _ _ _
    | zero =>
      simp only [importsFrom]
      split
      · rw [List.map_cons, List.map_cons, ih _ _ _ (other + 1)]
      · exact ih _ _ _ _

@[simp] theorem clausesFrom_nil : clausesFrom lineStart skip [] = [] := rfl

theorem clausesFrom_skip (c : Char) (rest : List Char) :
    clausesFrom lineStart (skip + 1) (c :: rest) = clausesFrom false skip rest :=
  map_fst_importsFrom _ _ 1 _

theorem clausesFrom_found {found : ImportMatch} (imported : importAt? (c :: rest) = some found) :
    clausesFrom true 0 (c :: rest) = found.clause :: clausesFrom false (found.length - 1) rest := by
  rw [clausesFrom, importsFrom]
  simp only [if_true, imported, List.map_cons, map_fst_importsFrom]

theorem clausesFrom_pass (none : lineStart = true → importAt? (c :: rest) = none) :
    clausesFrom lineStart 0 (c :: rest) = clausesFrom (c == '\n') 0 rest := by
  rw [clausesFrom, importsFrom]
  cases lineStart with
  | false => exact map_fst_importsFrom ..
  | true => simp only [if_true, none rfl, map_fst_importsFrom]

/-- Where no import starts it does not matter whether a line does. -/
theorem clausesFrom_of_not_startsImport (other : ¬StartsImport text) :
    clausesFrom lineStart 0 text = clausesFrom false 0 text := by
  cases text with
  | nil => rfl
  | cons c rest =>
    rw [clausesFrom_pass fun _ => importAt?_eq_none other, clausesFrom_pass (by simp)]

/-- A line that is under way has no import in it. -/
theorem clausesFrom_append_plain (plain : '\n' ∉ passed) :
    clausesFrom false 0 (passed ++ rest) = clausesFrom false 0 rest := by
  induction passed with
  | nil => rfl
  | cons c passed ih =>
    rw [List.mem_cons, not_or] at plain
    have other : (c == '\n') = false := by simpa using Ne.symm plain.1
    rw [List.cons_append, clausesFrom_pass (by simp), other, ih plain.2]

/-- Lines that start no import have no clauses. -/
theorem clausesFrom_eq_nil (none : ∀ line ∈ fronts lineStart text, ¬StartsImport line) :
    clausesFrom lineStart 0 text = [] := by
  induction text generalizing lineStart with
  | nil => rfl
  | cons c rest ih =>
    have here : lineStart = true → importAt? (c :: rest) = .none := by
      rintro rfl
      exact importAt?_eq_none fun starts => none (front (c :: rest)) (by simp [fronts])
        (startsImport_front.mpr starts)
    rw [clausesFrom_pass here]
    exact ih fun line member => none line (List.mem_append_right _ member)

/-- Every import that starts in a text, behind characters passed already, is finished in it. -/
def ClosedBehind (passed text : List Char) : Prop :=
  ∀ before rest, text = before ++ rest → StartsLine (passed ++ before) → StartsImport rest →
    ∃ clause statement after, ImportText clause statement ∧ rest = statement ++ after

theorem ClosedBehind.tail (closed : ClosedBehind passed (c :: text)) :
    ClosedBehind (passed ++ [c]) text := by
  intro before rest split starts isImport
  refine closed (c :: before) rest (by rw [split, List.cons_append]) ?_ isImport
  simpa using starts

/-- The imports that are finished in a text are those of the text, also where it is continued. By
induction on the text, past each import as a whole. -/
theorem clausesFrom_append (seam : Seam text extra) (other : ¬StartsImport extra)
    (closed : ClosedBehind passed text) (starts : lineStart = true → StartsLine passed)
    (fits : skip ≤ text.length) :
    clausesFrom lineStart skip (text ++ extra)
      = clausesFrom lineStart skip text ++ clausesFrom false 0 extra := by
  induction text generalizing passed lineStart skip with
  | nil =>
    obtain rfl : skip = 0 := Nat.le_zero.mp fits
    exact clausesFrom_of_not_startsImport other
  | cons c text ih =>
    have seam' : Seam text extra := by
      rw [← List.singleton_append] at seam
      exact seam.suffix
    cases skip with
    | succ n =>
      rw [List.cons_append, clausesFrom_skip, clausesFrom_skip]
      exact ih seam' closed.tail (by simp) (Nat.le_of_succ_le_succ fits)
    | zero =>
      have starts' : (c == '\n') = true → StartsLine (passed ++ [c]) := by
        intro isFeed
        exact .inr (by simpa using isFeed)
      by_cases found : lineStart = true ∧ StartsImport (c :: text)
      · obtain ⟨rfl, isImport⟩ := found
        obtain ⟨clause, statement, after, isText, split⟩ :=
          closed [] (c :: text) rfl (by simpa using starts rfl) isImport
        rw [split] at seam
        obtain ⟨length, le, here, continued⟩ := isText.importAt?_append seam
        rw [← split] at here le continued
        have within : length - 1 ≤ text.length := by
          rw [List.length_cons] at le
          omega
        rw [List.cons_append] at continued ⊢
        rw [clausesFrom_found here, clausesFrom_found continued, List.cons_append,
          ih seam' closed.tail (by simp) within]
      · have here : lineStart = true → importAt? (c :: text) = none := fun isStart =>
          importAt?_eq_none fun isImport => found ⟨isStart, isImport⟩
        have continued : lineStart = true → importAt? (c :: (text ++ extra)) = none := by
          intro isStart
          refine importAt?_eq_none fun isImport => found ⟨isStart, ?_⟩
          rw [← List.cons_append, ← startsImport_front, seam.front_append (by simp)] at isImport
          exact startsImport_front.mp isImport
        rw [List.cons_append, clausesFrom_pass here, clausesFrom_pass continued]
        exact ih seam' closed.tail starts' (Nat.zero_le _)

end Clauses

/-! ## Edits -/

/-- Every import of a text is finished before the next line that exports. One that is still open
there takes in the line, and an edit of the line would change the import. -/
def Finished (text : List Char) : Prop :=
  ∀ before rest, text = before ++ rest → StartsLine before → StartsImport rest →
    ∃ clause statement after, ImportText clause statement ∧ rest = statement ++ after
      ∧ ∀ line ∈ fronts false clause, Inert line

/-- In a text with imports at its start only, an import that is found starts there. -/
theorem eq_nil_of_startsImport {text before rest : List Char}
    (only : ∀ n ≤ text.length, StartsLine (text.take n) → StartsImport (text.drop n) → n = 0)
    (split : text = before ++ rest) (starts : StartsLine before) (isImport : StartsImport rest) :
    before = [] := by
  refine List.length_eq_zero_iff.mp (only before.length ?_ ?_ ?_)
  · simp [split]
  · rwa [split, List.take_left]
  · rwa [split, List.drop_left]

/-- Two texts that differ in the start of one line, an export in the first of them and no import in
the second. -/
inductive Respelled : List Char → List Char → Prop
  | mk {lines old new rest : List Char} : StartsLine lines → '\n' ∉ old → '\n' ∉ new →
    ¬Inert (old ++ rest) → ¬StartsImport (new ++ rest) →
    Respelled (lines ++ (old ++ rest)) (lines ++ (new ++ rest))

section Edits

variable {text text' lines old new rest line : List Char}

theorem not_startsImport_of_not_inert (exported : ¬Inert line) : ¬StartsImport line := by
  intro isImport
  obtain ⟨gap, rest, blank, -, rfl⟩ := startsImport_iff.mp isImport
  exact exported (inert_of_head gap blank rfl (by decide : 'i' ≠ 'e'))

/-- A line whose first letter is not that of the word is no import. -/
theorem not_startsImport_of_head {gap : List Char} {c : Char} (blank : Blank gap)
    (solid : isIndent c = false) (other : c ≠ 'i') : ¬StartsImport (gap ++ c :: rest) := by
  intro isImport
  obtain ⟨gap', rest', blank', -, split⟩ := startsImport_iff.mp isImport
  have solid' : Unindented (c :: rest) := by simpa [Unindented] using solid
  have word : Unindented ("import".toList ++ rest') := rfl
  have read := congrArg skipIndent split
  rw [skipIndent_append blank solid', skipIndent_append blank' word] at read
  exact other (List.cons.inj read).1

theorem Finished.closed (finished : Finished text) : ClosedBehind [] text := by
  intro before rest split starts isImport
  obtain ⟨clause, statement, after, isText, split', -⟩ := finished before rest split starts isImport
  exact ⟨clause, statement, after, isText, split'⟩

/-- Lines that start in an import start in its clause. -/
theorem ImportText.exists_line {clause statement between further : List Char}
    (isText : ImportText clause statement) (split : statement = between ++ '\n' :: further) :
    ∃ line quote tail, isQuote quote = true ∧ further = line ++ quote :: tail
      ∧ front line ∈ fronts false clause := by
  obtain ⟨gap, quote, module, blank, isQuoted, -, inside, isStatement⟩ := isText.split
  have inModule : '\n' ∉ quote :: (module ++ [quote]) := by
    have other : '\n' ≠ quote := ne_of_isQuote isQuoted rfl
    have inName : '\n' ∉ module := fun member => (inside _ member).2 rfl
    simp [other, inName]
  have inWord : '\n' ∉ gap ++ "import".toList := by
    have inGap : '\n' ∉ gap := lineFeed_notMem_of_smooth (smooth_of_indent blank)
    simp [inGap]
  rw [isStatement, ← List.append_assoc] at split
  obtain ⟨passed, -, inText⟩ := exists_of_append_eq inWord split
  rcases List.append_eq_append_iff.mp inText with ⟨beyond, -, isModule⟩ | ⟨line, isClause, isLine⟩
  · rw [isModule] at inModule
    simp at inModule
  · cases line with
    | nil =>
      rw [List.nil_append] at isLine
      rw [← isLine] at inModule
      simp at inModule
    | cons c line =>
      rw [List.cons_append, List.cons.injEq] at isLine
      obtain ⟨rfl, rfl⟩ := isLine
      refine ⟨line, quote, module ++ [quote], isQuoted, rfl, ?_⟩
      have starts : fronts false clause = fronts false passed ++ fronts true line := by
        rw [isClause]
        exact fronts_append_stop rfl passed false
      rw [starts, fronts_true]
      exact List.mem_append_right _ List.mem_cons_self

/-- An import is finished in the lines before an export. -/
theorem ImportText.prefix_of_export {clause statement between after : List Char}
    (isText : ImportText clause statement) (inert : ∀ line ∈ fronts false clause, Inert line)
    (exported : ¬Inert rest) (split : between ++ '\n' :: rest = statement ++ after) :
    ∃ more, between = statement ++ more := by
  rcases List.append_eq_append_iff.mp split with
    ⟨further, isStatement, isRest⟩ | ⟨more, isBetween, -⟩
  · cases further with
    | nil => exact ⟨[], by simpa using isStatement.symm⟩
    | cons c further =>
      -- Else the export would start a line of the clause.
      rw [List.cons_append, List.cons.injEq] at isRest
      obtain ⟨rfl, rfl⟩ := isRest
      obtain ⟨line, quote, tail, isQuoted, rfl, listed⟩ := isText.exists_line isStatement
      have same : front (line ++ quote :: tail ++ after) = front line := by
        rw [List.append_assoc, List.cons_append, front_append_stop (isStop_of_isQuote isQuoted)]
      exact absurd (inert_front.mp (same ▸ inert _ listed)) exported
  · exact ⟨more, isBetween⟩

/-- Whether an import starts a line does not depend on the lines behind it. -/
theorem startsImport_lineFeed (between other : List Char) :
    StartsImport (between ++ '\n' :: rest) ↔ StartsImport (between ++ '\n' :: other) := by
  rw [← startsImport_front, front_append_stop rfl]
  conv_rhs => rw [← startsImport_front, front_append_stop rfl]

/-- An import that starts in front of an export is finished there. -/
theorem Finished.within {before between other : List Char}
    (finished : Finished (before ++ (between ++ '\n' :: rest))) (exported : ¬Inert rest)
    (starts : StartsLine before) (isImport : StartsImport (between ++ '\n' :: other)) :
    ∃ clause statement more, ImportText clause statement ∧ between = statement ++ more
      ∧ ∀ line ∈ fronts false clause, Inert line := by
  obtain ⟨clause, statement, after, isText, split, inert⟩ :=
    finished before _ rfl starts ((startsImport_lineFeed between rest).mp isImport)
  obtain ⟨more, isBetween⟩ := isText.prefix_of_export inert exported split
  exact ⟨clause, statement, more, isText, isBetween, inert⟩

theorem Respelled.finished (respelled : Respelled text text') (finished : Finished text) :
    Finished text' := by
  obtain @⟨lines, old, new, rest, starts, plain, plain', exported, other⟩ := respelled
  intro before rest' split starts' isImport
  rcases line_cases starts starts' plain' split with
    ⟨rfl, rfl⟩ | ⟨between, rfl, rfl⟩ | ⟨passed, rfl, rfl⟩
  · exact absurd isImport other
  · simp only [List.append_assoc, List.singleton_append] at finished
    obtain ⟨clause, statement, more, isText, rfl, inert⟩ :=
      finished.within exported starts' isImport
    exact ⟨clause, statement, more ++ '\n' :: (new ++ rest), isText, List.append_assoc .., inert⟩
  · exact finished (lines ++ (old ++ (passed ++ ['\n']))) rest' (by simp) (.inr (by simp)) isImport

theorem seam_of_startsLine (starts : StartsLine lines) (extra : List Char) : Seam lines extra := by
  refine .inr fun c last => ?_
  rcases starts with rfl | ends
  · cases last
  · rw [ends] at last
    exact .inl (Option.some.inj last).symm

/-- Another spelling of an export leaves the imports what they are. -/
theorem Respelled.clauses_eq (respelled : Respelled text text') (finished : Finished text) :
    clauses text' = clauses text := by
  obtain @⟨lines, old, new, rest, starts, plain, plain', exported, other⟩ := respelled
  have closed : ClosedBehind [] lines := by
    rintro before between rfl starts' isImport
    have nonempty : between ≠ [] := by
      rintro rfl
      cases isImport
    obtain ⟨line, rfl⟩ := exists_of_startsLine_append starts nonempty
    simp only [List.append_assoc, List.singleton_append] at finished
    obtain ⟨clause, statement, more, isText, rfl, -⟩ := finished.within exported starts' isImport
    exact ⟨clause, statement, more ++ ['\n'], isText, List.append_assoc ..⟩
  have kept : ∀ {start}, '\n' ∉ start → ¬StartsImport (start ++ rest) →
      clauses (lines ++ (start ++ rest)) = clauses lines ++ clausesFrom false 0 rest := by
    intro start plain other
    rw [clauses, clausesFrom_append (seam_of_startsLine starts _) other closed (fun _ => .inl rfl)
      (Nat.zero_le _), clausesFrom_append_plain plain, clauses]
  rw [kept plain' other, kept plain (not_startsImport_of_not_inert exported)]

end Edits

/-! ## All edits -/

section Run

variable {style : QuoteStyle} {symbol name : String} {text : List Char} {edited : Edited}

/-- A declaration is no import. -/
theorem not_startsImport_of_declares {name indentation declaration : List Char}
    (blank : Blank indentation) (declares : declaresFunction name declaration = true
      ∨ declaresBy ["class", "const", "let", "var"] name declaration = true) :
    ¬StartsImport (indentation ++ declaration) := by
  obtain ⟨c, rest, rfl, solid, other⟩ :
      ∃ c rest, declaration = c :: rest ∧ isIndent c = false ∧ c ≠ 'i' := by
    rcases declares with isFunction | isOther
    · obtain ⟨async, spacing, rest, isAsync, -, -, rfl, -⟩ :=
        declaresFunction_of_eq_true List.infix_rfl isFunction
      rcases isAsync with rfl | ⟨gap, -, -, rfl⟩
      · exact ⟨'f', _, rfl, rfl, by decide⟩
      · exact ⟨'a', _, rfl, rfl, by decide⟩
    · obtain ⟨keyword, listed, words, rest, ⟨gap, -, -, rfl⟩, rfl, -⟩ :=
        declaresOther_of_eq_true isOther
      simp only [List.mem_cons, List.not_mem_nil, or_false] at listed
      rcases listed with rfl | rfl | rfl | rfl <;> exact ⟨_, _, rfl, rfl, by decide⟩
  exact not_startsImport_of_head blank solid other

theorem not_inert_of_export {indentation words : List Char} (blank : Blank indentation)
    (isWord : WordAndGap "export" words) (rest : List Char) :
    ¬Inert (indentation ++ (words ++ rest)) := by
  obtain ⟨gap, wide, blank', rfl⟩ := isWord
  have word : Unindented ("export".toList ++ gap ++ rest) := rfl
  cases gap with
  | nil => exact absurd rfl wide
  | cons c gap =>
    have isGap : isIndent c = true := blank' c List.mem_cons_self
    rw [Inert, skipIndent_append blank word, wordThenIndent?, List.append_assoc, literal?_append]
    simp [indent?, isGap]

theorem respelled_editReference (style : QuoteStyle) (plain : '\n' ∉ symbol.toList)
    (isName : isComponentName name.toList = true) (edited : Edited) :
    (editReference style symbol name edited).text = edited.text
      ∨ Respelled edited.text (editReference style symbol name edited).text := by
  unfold editReference
  split
  · exact .inl rfl
  · next before keywords after found =>
    obtain ⟨line, isText, starts, recognised⟩ := searchLines_eq_some found
    obtain ⟨indentation, words, blank, isWords, rfl, -, rfl⟩ := defaultReference?_eq_some recognised
    have inKeywords : '\n' ∉ indentation ++ words := lineFeed_notMem_of_smooth
      (smooth_append (smooth_of_indent blank) (smooth_of_defaultKeywords isWords))
    have inName := lineFeed_notMem_of_smooth (smooth_of_isComponentName isName)
    have exported : ∀ rest, ¬Inert (indentation ++ words ++ rest) := by
      obtain ⟨first, second, isFirst, -, rfl⟩ := isWords
      intro rest
      simpa using not_inert_of_export blank isFirst (second ++ rest)
    have respelled : Respelled (before ++ (indentation ++ words ++ name.toList ++ after))
        (before ++ (indentation ++ words ++ (Snippet.wrapCall style symbol name name).toList
          ++ after)) := by
      refine .mk starts (fun member => (List.mem_append.mp member).elim inKeywords inName)
        (fun member => (List.mem_append.mp member).elim inKeywords
          (lineFeed_notMem_call style plain inName)) ?_ ?_
      · rw [List.append_assoc]
        exact exported _
      · rw [List.append_assoc]
        exact not_startsImport_of_not_inert (exported _)
    refine .inr ?_
    rw [isText]
    simpa only [List.append_assoc] using respelled

/-- Taking the keywords off a line makes no import of it. -/
theorem respelled_demoted {lines indentation keywords declaration name : List Char}
    (starts : StartsLine lines) (blank : Blank indentation)
    (isWord : ∃ first second, WordAndGap "export" first ∧ Smooth second
      ∧ keywords = first ++ second)
    (declares : declaresFunction name declaration = true
      ∨ declaresBy ["class", "const", "let", "var"] name declaration = true) :
    Respelled (lines ++ (indentation ++ keywords ++ declaration))
      (lines ++ indentation ++ declaration) := by
  obtain ⟨first, second, isFirst, smooth, rfl⟩ := isWord
  have inIndentation : '\n' ∉ indentation := lineFeed_notMem_of_smooth (smooth_of_indent blank)
  have inKeywords : '\n' ∉ first ++ second := lineFeed_notMem_of_smooth
    (smooth_append (smooth_of_wordAndGap smooth_export isFirst) smooth)
  have exported : ¬Inert (indentation ++ (first ++ second) ++ declaration) := by
    simpa using not_inert_of_export blank isFirst (second ++ declaration)
  rw [List.append_assoc lines]
  exact .mk starts (fun member => (List.mem_append.mp member).elim inIndentation inKeywords)
    inIndentation exported (not_startsImport_of_declares blank declares)

theorem respelled_editDefault (style : QuoteStyle) (symbol name : String) (edited : Edited) :
    (editDefault style symbol name edited).text = edited.text
      ∨ Respelled edited.text (editDefault style symbol name edited).text := by
  unfold editDefault
  split
  · exact .inl rfl
  · split
    · exact .inl rfl
    · next before indentation declaration found =>
      obtain ⟨line, isText, starts, recognised⟩ := searchLines_eq_some found
      obtain ⟨keywords, blank, ⟨first, second, isFirst, isSecond, rfl⟩, declares, rfl⟩ :=
        defaultDeclaration?_eq_some recognised
      rw [isText]
      exact .inr (respelled_demoted starts blank
        ⟨first, second, isFirst, smooth_of_wordAndGap smooth_default isSecond, rfl⟩ declares)

theorem respelled_editFunction (style : QuoteStyle) (symbol name : String) (edited : Edited) :
    (editFunction style symbol name edited).text = edited.text
      ∨ Respelled edited.text (editFunction style symbol name edited).text := by
  unfold editFunction
  split
  · exact .inl rfl
  · split
    · exact .inl rfl
    · next before indentation declaration found =>
      obtain ⟨line, isText, starts, recognised⟩ := searchLines_eq_some found
      obtain ⟨keywords, blank, isKeywords, declares, rfl⟩ := namedFunction?_eq_some recognised
      rw [isText]
      exact .inr
        (respelled_demoted starts blank ⟨keywords, [], isKeywords, by simp [Smooth], by simp⟩
          (.inl declares))

/-- What one edit keeps of a text whose imports are finished. -/
theorem keeps_of_respelled {text text' : List Char} (same : text' = text ∨ Respelled text text')
    (finished : Finished text) : Finished text' ∧ clauses text' = clauses text := by
  rcases same with rfl | respelled
  · exact ⟨finished, rfl⟩
  · exact ⟨respelled.finished finished, respelled.clauses_eq finished⟩

/-- The edits of a text keep its imports, if each is finished before the next export. By one lemma
for each of the three edits, every one of which respells an export. -/
theorem clauses_edit (style : QuoteStyle) (plain : '\n' ∉ symbol.toList)
    (isName : isComponentName name.toList = true) (finished : Finished text) :
    Finished (edit style symbol name text).text
      ∧ clauses (edit style symbol name text).text = clauses text := by
  unfold edit
  obtain ⟨first, same⟩ :=
    keeps_of_respelled (respelled_editReference style plain isName ⟨text, [], []⟩) finished
  obtain ⟨second, same'⟩ := keeps_of_respelled (respelled_editDefault style symbol name _) first
  obtain ⟨third, same''⟩ := keeps_of_respelled (respelled_editFunction style symbol name _) second
  exact ⟨third, same''.trans (same'.trans same)⟩

/-- The lines that wraps append export something. -/
theorem exports_of_mem_appended (style : QuoteStyle) (plain : '\n' ∉ symbol.toList)
    (isName : isComponentName name.toList = true) (text : List Char) :
    ∀ line ∈ (edit style symbol name text).appended, '\n' ∉ line ∧ ¬StartsImport line := by
  intro line member
  obtain ⟨_, _, follows⟩ := follows_edit style plain isName text
  rw [follows.appended] at member
  obtain ⟨rule, -, isLine⟩ := List.mem_filterMap.mp member
  have inName := lineFeed_notMem_of_smooth (smooth_of_isComponentName isName)
  have inCall := lineFeed_notMem_call style plain inName
  have exported : ∀ rest, ¬StartsImport ([] ++ ("export".toList ++ [' '] ++ rest)) := fun rest =>
    not_startsImport_of_not_inert
      (not_inert_of_export (by simp [Blank]) ⟨[' '], by simp, by simp [Blank, isIndent], rfl⟩ rest)
  cases rule with
  | defaultDeclaration =>
    obtain rfl := Option.some.inj isLine
    rw [toList_defaultExport]
    exact ⟨by simp [inCall], exported _⟩
  | namedFunction =>
    obtain rfl := Option.some.inj isLine
    rw [toList_namedExport]
    exact ⟨by simp [inCall, inName], exported _⟩
  | _ => cases isLine

/-- Lines that are added at the end of a text leave its imports what they are. -/
theorem clauses_withAppended {newline : List Char} (isNewline : IsNewline newline)
    (finished : Finished edited.text)
    (exports : ∀ line ∈ edited.appended, '\n' ∉ line ∧ ¬StartsImport line) :
    clauses (withAppended newline edited) = clauses edited.text := by
  have quiet :
      ∀ line ∈ fronts true (edited.appended.flatMap (· ++ newline)), ¬StartsImport line := by
    intro line member
    rw [fronts_flatMap isNewline fun line member => (exports line member).1] at member
    rcases List.mem_append.mp member with isLine | isLast
    · obtain ⟨other, inLines, rfl⟩ := List.mem_map.mp isLine
      exact fun starts => (exports other inLines).2 (startsImport_front.mp starts)
    · rw [List.mem_singleton.mp isLast]
      decide
  unfold withAppended
  split
  · rfl
  · dsimp only
    rw [List.append_assoc]
    have kept : ∀ {extra}, Seam edited.text extra → ¬StartsImport extra →
        (∀ line ∈ fronts false extra, ¬StartsImport line) →
        clauses (edited.text ++ extra) = clauses edited.text := by
      intro extra seam other none
      rw [clauses,
        clausesFrom_append seam other finished.closed (fun _ => .inl rfl) (Nat.zero_le _),
        clausesFrom_eq_nil none, List.append_nil, clauses]
    split
    · -- The last line is open.
      obtain ⟨c, more, isBreak, split⟩ : ∃ c more, IsBreak c ∧ newline = c :: more := by
        rcases isNewline with rfl | rfl
        · exact ⟨_, _, .inl rfl, rfl⟩
        · exact ⟨_, _, .inr rfl, rfl⟩
      refine kept (.inl ⟨c, more ++ _, isBreak, by rw [split, List.cons_append]⟩) ?_ ?_
      · rw [← startsImport_front, split, List.cons_append, front_cons, if_pos isBreak.isStop]
        decide
      · rwa [isNewline.fronts_false]
    · next closed =>
      rw [List.nil_append]
      rw [fronts_true] at quiet
      refine kept (.inr fun c last => ?_) ?_ fun line member =>
        quiet line (List.mem_cons_of_mem _ member)
      · rw [last] at closed
        by_contra other
        simp_all [IsBreak]
      · exact fun starts => quiet _ List.mem_cons_self (startsImport_front.mpr starts)

/-- Wrapping a text leaves its imports what they are, if each is finished before the next export. -/
theorem clauses_edited (style : QuoteStyle) {newline : List Char} (isNewline : IsNewline newline)
    (plain : '\n' ∉ symbol.toList) (isName : isComponentName name.toList = true)
    (finished : Finished text) :
    clauses (withAppended newline (edit style symbol name text)) = clauses text := by
  obtain ⟨finished', same⟩ := clauses_edit style plain isName finished
  exact (clauses_withAppended isNewline finished'
    (exports_of_mem_appended style plain isName text)).trans same

end Run

/-! ## Putting the import in -/

/-- The edited text of a source, without the import. -/
def editedText (style : QuoteStyle) (text name symbol : String) : List Char :=
  withAppended (Snippet.newlineFor text).toList (edit style symbol name text.toList)

/-- An output is a text with a statement put in between a front and a back, and a line break before
or behind it. -/
inductive PutIn (newline statement front back : List Char) : List Char → Prop
  | behindBreak : PutIn newline statement front back (front ++ newline ++ statement ++ back)
  | beforeBreak : PutIn newline statement front back (front ++ statement ++ newline ++ back)

/-- An output is a text with a statement put in somewhere. -/
def Inserts (newline statement text output : List Char) : Prop :=
  ∃ front back, text = front ++ back ∧ PutIn newline statement front back output

section Ensure

variable {text symbol statement newline output : List Char}

/-- A text that something is put into is not left as it is. -/
theorem Inserts.ne (inserts : Inserts newline statement text output) (some : statement ≠ []) :
    output ≠ text := by
  obtain ⟨front, back, rfl, isPutIn⟩ := inserts
  have positive := List.length_pos_iff.mpr some
  intro same
  have size := congrArg List.length same
  cases isPutIn <;> simp only [List.length_append] at size <;> omega

theorem mem_clauses {clause : List Char} :
    clause ∈ clauses text ↔ ∃ stop, (clause, stop) ∈ imports text := by
  rw [clauses, clausesFrom, ← imports, List.mem_map]
  constructor
  · rintro ⟨⟨clause, stop⟩, member, rfl⟩
    exact ⟨stop, member⟩
  · rintro ⟨stop, member⟩
    exact ⟨_, member, rfl⟩

/-- An import that names the wrapper keeps another one out. -/
theorem ensureImport_of_named {clause : List Char} (member : clause ∈ clauses text)
    (named : clauseBinds symbol clause = true) :
    ensureImport text symbol statement newline = text := by
  obtain ⟨stop, member⟩ := mem_clauses.mp member
  have found : (imports text).any (fun found => clauseBinds symbol found.1) = true :=
    List.any_eq_true.mpr ⟨_, member, named⟩
  unfold ensureImport
  dsimp only
  rw [if_pos found]

/-- Else the import is put behind the last one, or behind the prologue. -/
theorem ensureImport_of_unnamed (statement newline : List Char)
    (unnamed : ∀ clause ∈ clauses text, clauseBinds symbol clause = false) :
    (∃ clause stop, (imports text).getLast? = some (clause, stop)
        ∧ ensureImport text symbol statement newline
          = text.take stop ++ newline ++ statement ++ text.drop stop)
      ∨ imports text = [] ∧ ensureImport text symbol statement newline
        = text.take (prologueLength text) ++ statement ++ newline
          ++ text.drop (prologueLength text) := by
  have notFound : ¬(imports text).any (fun found => clauseBinds symbol found.1) = true := by
    intro found
    obtain ⟨⟨clause, stop⟩, member, named⟩ := List.any_eq_true.mp found
    simp [unnamed clause (mem_clauses.mpr ⟨stop, member⟩)] at named
  unfold ensureImport
  dsimp only
  rw [if_neg notFound]
  split
  · next clause stop last => exact .inl ⟨clause, stop, last, rfl⟩
  · next none => exact .inr ⟨List.getLast?_eq_none_iff.mp none, rfl⟩

theorem inserts_of_unnamed (unnamed : ∀ clause ∈ clauses text, clauseBinds symbol clause = false) :
    Inserts newline statement text (ensureImport text symbol statement newline) := by
  rcases ensureImport_of_unnamed statement newline unnamed with
    ⟨clause, stop, -, output⟩ | ⟨-, output⟩
  · rw [output]
    exact ⟨_, _, (List.take_append_drop ..).symm, .behindBreak⟩
  · rw [output]
    exact ⟨_, _, (List.take_append_drop ..).symm, .beforeBreak⟩

end Ensure

end RenderProbe.Fallback
