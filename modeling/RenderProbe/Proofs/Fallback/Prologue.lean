import RenderProbe.Proofs.Fallback.ImportText

/-!
# The prologue that the fallback passes over

Where no import is found, the import of the wrapper goes behind a hash-bang line and the `use`
directives at the start. The directives are bare: a comment, a blank line or another string ends the
prologue.

* `directive?_eq_some_iff`: what a directive is, as a text.
* `prefix_prologue_iff`: the lines that the prologue holds are those that are one.
* `startsLine_prologue`: it is made of whole lines.
-/

namespace RenderProbe.Fallback

open Text

/-! ## Lines -/

/-- A line break: a line feed, with a carriage return in front or without. -/
def IsNewline (newline : List Char) : Prop :=
  newline = ['\n'] ∨ newline = ['\r', '\n']

/-- A line with a hash and a bang in front. -/
def HashBang (line : List Char) : Prop :=
  ∃ words, '\n' ∉ words ∧ line = '#' :: '!' :: (words ++ ['\n'])

/-- A string that starts with the word `use` and goes on in small letters, on a line of its own
without comment. -/
def UseDirective (line : List Char) : Prop :=
  ∃ gap quote words gap' mark gap'' ending, Blank gap ∧ isQuote quote = true ∧ words ≠ []
    ∧ (∀ c ∈ words, c.isLower = true ∨ c = ' ') ∧ Blank gap'
      ∧ (mark = [] ∨ mark = [';']) ∧ Blank gap''
    ∧ IsNewline ending
    ∧ line = gap
      ++ (quote :: ("use ".toList ++ (words ++ (quote :: (gap' ++ (mark ++ (gap'' ++ ending)))))))

/-- A hash-bang line, or none, and `use` directives. -/
def Prologue (text : List Char) : Prop :=
  ∃ (first : List Char) (lines : List (List Char)), (first = [] ∨ HashBang first)
    ∧ (∀ line ∈ lines, UseDirective line) ∧ text = first ++ lines.flatten

section Prologue

variable {text lead line gap rest before : List Char} {c : Char}

theorem IsNewline.exists_line {ending : List Char} (ends : IsNewline ending) :
    ∃ carriage, '\n' ∉ carriage ∧ ending = carriage ++ ['\n'] := by
  rcases ends with rfl | rfl
  · exact ⟨[], by simp, rfl⟩
  · exact ⟨['\r'], by simp, rfl⟩

theorem lineFeed_notMem_of_blank (blank : Blank gap) : '\n' ∉ gap :=
  lineFeed_notMem_of_smooth (smooth_of_indent blank)

theorem isIndent_of_isQuote {c : Char} (isQuoted : isQuote c = true) : isIndent c = false :=
  isIndent_stop (isStop_of_isQuote isQuoted)

theorem letters_of_all {words : List Char}
    (isWord : words.all (fun c => c.isLower || c == ' ') = true) :
    ∀ c ∈ words, c.isLower = true ∨ c = ' ' := by
  simpa using isWord

/-- A quote is no character of a bare directive. -/
theorem isLetter_of_isQuote {c : Char} (isQuoted : isQuote c = true) :
    (c.isLower || c == ' ') = false := by
  simp only [isQuote, Bool.or_eq_true, beq_iff_eq] at isQuoted
  rcases isQuoted with rfl | rfl <;> rfl

theorem isNewline_iff_exists_mark : IsNewline line ↔
    ∃ carriage, (carriage = [] ∨ carriage = ['\r']) ∧ line = carriage ++ ['\n'] := by
  constructor
  · rintro (rfl | rfl)
    · exact ⟨[], .inl rfl, rfl⟩
    · exact ⟨['\r'], .inr rfl, rfl⟩
  · rintro ⟨carriage, rfl | rfl, rfl⟩
    · exact .inl rfl
    · exact .inr rfl

/-- A mark that may be there is taken off. -/
theorem getD_literal?_append {mark : List Char} (isMark : mark = [] ∨ mark = [c])
    (other : rest.head? ≠ some c) : (literal? [c] (mark ++ rest)).getD (mark ++ rest) = rest := by
  rcases isMark with rfl | rfl
  · cases rest with
    | nil => rfl
    | cons d rest =>
      have differs : c ≠ d := by
        rintro rfl
        exact other rfl
      simp [literal?, differs]
  · rw [literal?_append, Option.getD_some]

/-- What ends the line of a directive: a semicolon or none, between blanks, and the end of the
line. -/
theorem literal?_newline_iff {closed afterMark : List Char}
    (marked : afterMark
      = skipIndent ((literal? [';'] (skipIndent closed)).getD (skipIndent closed))) :
    literal? ['\n'] ((literal? ['\r'] afterMark).getD afterMark) = some rest ↔
      ∃ gap mark gap' ending, Blank gap ∧ (mark = [] ∨ mark = [';']) ∧ Blank gap' ∧ IsNewline ending
        ∧ closed = gap ++ (mark ++ (gap' ++ (ending ++ rest))) := by
  subst marked
  constructor
  · intro ended
    obtain ⟨mark, isMark, split⟩ := exists_mark ';' (skipIndent closed)
    generalize (literal? [';'] (skipIndent closed)).getD (skipIndent closed) = behind at split ended
    obtain ⟨carriage, isCarriage, split'⟩ := exists_mark '\r' (skipIndent behind)
    rw [literal?_eq_some.mp ended] at split'
    refine ⟨_, mark, _, carriage ++ ['\n'], blank_takeWhile closed, isMark, blank_takeWhile behind,
      isNewline_iff_exists_mark.mpr ⟨carriage, isCarriage, rfl⟩, ?_⟩
    calc
      closed = closed.takeWhile isIndent ++ (mark ++ behind) := by
        rw [← split, takeWhile_append_skipIndent]
      _ = closed.takeWhile isIndent ++ (mark ++ (behind.takeWhile isIndent
          ++ (carriage ++ (['\n'] ++ rest)))) := by rw [← split', takeWhile_append_skipIndent]
      _ = _ := by rw [List.append_assoc carriage]
  · rintro ⟨gap, mark, gap', ending, blank, isMark, blank', ends, rfl⟩
    obtain ⟨carriage, isCarriage, rfl⟩ := isNewline_iff_exists_mark.mp ends
    have solid : Unindented (carriage ++ '\n' :: rest) := by
      rcases isCarriage with rfl | rfl <;> rfl
    have unmarked : (carriage ++ '\n' :: rest).head? ≠ some ';' := by
      rcases isCarriage with rfl | rfl <;> simp
    -- Without a semicolon the blanks before and behind it are one gap.
    have read :
        skipIndent ((literal? [';'] (skipIndent (gap ++ (mark ++ (gap' ++ (carriage ++ ['\n']
        ++ rest)))))).getD (skipIndent (gap ++ (mark ++ (gap' ++ (carriage ++ ['\n'] ++ rest))))))
        = carriage ++ '\n' :: rest := by
      rw [List.append_assoc carriage, List.singleton_append]
      rcases isMark with rfl | rfl
      · have gaps : ∀ c ∈ gap ++ gap', isIndent c = true := fun c member =>
          (List.mem_append.mp member).elim (blank c) (blank' c)
        rw [List.nil_append, ← List.append_assoc gap, skipIndent_append gaps solid]
        have none := getD_literal?_append (.inl rfl) unmarked
        rw [List.nil_append] at none
        rw [none, skipIndent_of_unindented solid]
      · rw [skipIndent_append blank (by rfl), literal?_append, Option.getD_some,
          skipIndent_append blank' solid]
    rw [read, getD_literal?_append isCarriage (by simp)]
    exact literal?_append

theorem exists_useDirective_of_directive? (found : directive? text = some rest) :
    ∃ line, UseDirective line ∧ text = line ++ rest := by
  unfold directive? at found
  split at found
  · cases found
  · next quote following read =>
    split at found
    · cases found
    · next isQuoted =>
      split at found
      · cases found
      · next words isUse =>
        dsimp only at found
        split at found
        · cases found
        · next some =>
          split at found
          · cases found
          · next closed isClosed =>
            obtain ⟨gap', mark, gap'', ending, blank', isMark, blank'', ends, rfl⟩ :=
              (literal?_newline_iff rfl).mp found
            have split := List.takeWhile_append_dropWhile
              (p := fun c : Char => c.isLower || c == ' ') (l := words)
            rw [literal?_eq_some.mp isClosed] at split
            refine ⟨_,
              ⟨text.takeWhile isIndent, quote, words.takeWhile fun c => c.isLower || c == ' ', gap',
              mark, gap'', ending, blank_takeWhile _, by simpa using isQuoted, ?_, ?_, blank',
              isMark, blank'', ends, rfl⟩, ?_⟩
            · intro none
              rw [none, List.nil_append] at split
              exact some (by rw [literal?_eq_some.mp isClosed, split, beq_self_eq_true])
            · intro c member
              simpa using List.mem_takeWhile_imp member
            · calc
                text = text.takeWhile isIndent ++ (quote :: ("use ".toList ++ words)) := by
                  rw [← literal?_eq_some.mp isUse, ← read, takeWhile_append_skipIndent]
                _ = _ := by
                  conv_lhs => rw [← split]
                  simp only [List.append_assoc, List.cons_append, List.nil_append]

theorem directive?_of_useDirective {line : List Char} (isUse : UseDirective line) :
    directive? (line ++ rest) = some rest := by
  obtain ⟨gap, quote, words, gap', mark, gap'', ending, blank, isQuoted, nonempty, isWords, blank',
    isMark, blank'', ends, rfl⟩ := isUse
  obtain ⟨closed, isClosed⟩ : ∃ closed, closed = gap' ++ (mark ++ (gap'' ++ (ending ++ rest))) :=
    ⟨_, rfl⟩
  have ended := (literal?_newline_iff rfl).mpr
    ⟨gap', mark, gap'', ending, blank', isMark, blank'', ends, isClosed⟩
  have letters : ∀ c ∈ words, (c.isLower || c == ' ') = true := fun c member => by
    simpa using isWords c member
  have following : (words ++ quote :: closed).dropWhile (fun c => c.isLower || c == ' ')
      = quote :: closed := by
    rw [List.dropWhile_append_of_pos letters, List.dropWhile_cons, isLetter_of_isQuote isQuoted,
      if_neg (by simp)]
  have longer : (quote :: closed).length ≠ (words ++ quote :: closed).length := by
    have positive := List.length_pos_iff.mpr nonempty
    rw [List.length_append]
    omega
  have read : skipIndent (gap ++ quote :: ("use ".toList ++ (words ++ quote :: closed)))
      = quote :: ("use ".toList ++ (words ++ quote :: closed)) :=
    skipIndent_append blank (by simp [Unindented, isIndent_of_isQuote isQuoted])
  have closes : literal? [quote] (quote :: closed) = some closed := literal?_append
  unfold directive?
  simp only [List.append_assoc, List.cons_append]
  rw [← isClosed, read]
  dsimp only
  rw [if_neg (by simp [isQuoted]), literal?_append]
  dsimp only
  rw [following, if_neg (by simpa using longer), closes]
  exact ended

/-- What a directive is read from: a line, and the text behind it. -/
theorem directive?_eq_some_iff : directive? text = some rest ↔
    ∃ line, UseDirective line ∧ text = line ++ rest := by
  constructor
  · exact exists_useDirective_of_directive?
  · rintro ⟨line, isUse, rfl⟩
    exact directive?_of_useDirective isUse

/-! ### How far the prologue goes -/

theorem HashBang.exists_line (hashBang : HashBang line) :
    ∃ words, '\n' ∉ words ∧ line = words ++ ['\n'] := by
  obtain ⟨words, plain, rfl⟩ := hashBang
  exact ⟨'#' :: '!' :: words, by simp [plain], rfl⟩

theorem UseDirective.exists_line (directive : UseDirective line) :
    ∃ words, '\n' ∉ words ∧ line = words ++ ['\n'] := by
  obtain ⟨gap, quote, words, gap', mark, gap'', ending, blank, isQuoted, -, isWords, blank', isMark,
    blank'', ends, rfl⟩ := directive
  obtain ⟨carriage, plain, rfl⟩ := ends.exists_line
  have inMark : '\n' ∉ mark := by rcases isMark with rfl | rfl <;> decide
  have inWords : '\n' ∉ words := fun member => by
    rcases isWords _ member with lower | space
    · cases lower
    · cases space
  have other : '\n' ≠ quote := ne_of_isQuote isQuoted rfl
  refine ⟨gap ++ (quote :: ("use ".toList ++ (words ++ (quote :: (gap' ++ (mark ++ (gap''
    ++ carriage))))))), ?_, by simp⟩
  simp [inWords, other, lineFeed_notMem_of_blank blank, lineFeed_notMem_of_blank blank', inMark,
    lineFeed_notMem_of_blank blank'', plain]

/-- Directives in front of a text are skipped. -/
theorem skipDirectives_append {lines : List (List Char)}
    (directives : ∀ line ∈ lines, UseDirective line) (rounds : Nat) (rest : List Char) :
    skipDirectives (lines.length + rounds) (lines.flatten ++ rest)
      = skipDirectives rounds rest := by
  induction lines with
  | nil => simp
  | cons line lines ih =>
    rw [List.forall_mem_cons] at directives
    have read : directive? ((line :: lines).flatten ++ rest) = some (lines.flatten ++ rest) :=
      directive?_eq_some_iff.mpr ⟨line, directives.1, by simp⟩
    rw [List.length_cons, Nat.add_right_comm, skipDirectives, read]
    exact ih directives.2

/-- What is skipped are directives. -/
theorem exists_of_skipDirectives (rounds : Nat) (text : List Char) :
    ∃ lines : List (List Char), (∀ line ∈ lines, UseDirective line)
      ∧ text = lines.flatten ++ skipDirectives rounds text := by
  induction rounds generalizing text with
  | zero => exact ⟨[], by simp, rfl⟩
  | succ rounds ih =>
    unfold skipDirectives
    split
    · next rest found =>
      obtain ⟨line, directive, rfl⟩ := directive?_eq_some_iff.mp found
      obtain ⟨lines, directives, split⟩ := ih rest
      refine ⟨line :: lines, List.forall_mem_cons.mpr ⟨directive, directives⟩, ?_⟩
      rw [List.flatten_cons, List.append_assoc, ← split]
    · exact ⟨[], by simp, rfl⟩

theorem skipHashBang_append (hashBang : HashBang line) (rest : List Char) :
    skipHashBang (line ++ rest) = rest := by
  obtain ⟨words, plain, rfl⟩ := hashBang
  have isHashBang : literal? ['#', '!'] ('#' :: '!' :: (words ++ ['\n']) ++ rest)
      = some (words ++ '\n' :: rest) := by simp [literal?]
  have ends : (words ++ '\n' :: rest).dropWhile (· != '\n') = '\n' :: rest := by
    rw [List.dropWhile_append_of_pos fun c member => by
      simpa using ne_of_mem_of_not_mem member plain]
    rfl
  have ended : literal? ['\n'] ('\n' :: rest) = some rest := literal?_append
  unfold skipHashBang
  rw [isHashBang]
  dsimp only
  rw [ends, ended, Option.getD_some]

theorem exists_of_skipHashBang (text : List Char) :
    ∃ first, (first = [] ∨ HashBang first) ∧ text = first ++ skipHashBang text := by
  unfold skipHashBang
  split
  · exact ⟨[], .inl rfl, rfl⟩
  · next line isHashBang =>
    cases ended : literal? ['\n'] (line.dropWhile (· != '\n')) with
    | none => exact ⟨[], .inl rfl, rfl⟩
    | some rest =>
      have split := List.takeWhile_append_dropWhile (p := (· != '\n')) (l := line)
      rw [literal?_eq_some.mp ended] at split
      have plain : '\n' ∉ line.takeWhile (· != '\n') := fun member => by
        simpa using List.mem_takeWhile_imp member
      refine ⟨_, .inr ⟨_, plain, rfl⟩, ?_⟩
      rw [literal?_eq_some.mp isHashBang, Option.getD_some]
      conv_lhs => rw [← split]
      simp

/-- A text that starts with a directive has no hash-bang line. -/
theorem skipHashBang_of_useDirective (directive : UseDirective line) (rest : List Char) :
    skipHashBang (line ++ rest) = line ++ rest := by
  obtain ⟨gap, quote, words, gap', mark, gap'', ending, blank, isQuoted, -, -, -, -, -, -, rfl⟩ :=
    directive
  have other : '#' ≠ quote := ne_of_isQuote isQuoted rfl
  have noHash : ∀ following, literal? ['#', '!'] (gap ++ quote :: following) = none := by
    intro following
    cases gap with
    | nil => simp [literal?, other]
    | cons c gap =>
      have isGap : isIndent c = true := blank c List.mem_cons_self
      have other' : '#' ≠ c := by
        rintro rfl
        cases isGap
      simp [literal?, other']
  unfold skipHashBang
  rw [List.append_assoc, List.cons_append, noHash]

/-- The prologue of a text is one. -/
theorem prologue_take (text : List Char) : Prologue (text.take (prologueLength text)) := by
  obtain ⟨first, isFirst, split⟩ := exists_of_skipHashBang text
  obtain ⟨lines, directives, split'⟩ := exists_of_skipDirectives text.length (skipHashBang text)
  refine ⟨first, lines, isFirst, directives, ?_⟩
  rw [split', ← List.append_assoc] at split
  unfold prologueLength
  generalize skipDirectives text.length (skipHashBang text) = rest at split
  rw [split, List.length_append, Nat.add_sub_cancel, List.take_left]

theorem length_le_length_flatten {lines : List (List Char)}
    (directives : ∀ line ∈ lines, UseDirective line) : lines.length ≤ lines.flatten.length := by
  induction lines with
  | nil => exact Nat.le_refl 0
  | cons line lines ih =>
    rw [List.forall_mem_cons] at directives
    obtain ⟨words, -, rfl⟩ := directives.1.exists_line
    have fewer := ih directives.2
    simp only [List.flatten_cons, List.length_append, List.length_cons, List.length_nil]
    omega

/-- No prologue goes further. -/
theorem Prologue.prefix_take (prologue : Prologue lead) (leads : lead <+: text) :
    lead <+: text.take (prologueLength text) := by
  obtain ⟨first, lines, isFirst, directives, rfl⟩ := prologue
  obtain ⟨rest, rfl⟩ := leads
  by_cases none : first ++ lines.flatten = []
  · rw [none]
    exact List.nil_prefix
  · have read : skipHashBang (first ++ lines.flatten ++ rest) = lines.flatten ++ rest := by
      rw [List.append_assoc]
      rcases isFirst with rfl | hashBang
      · cases lines with
        | nil => exact absurd rfl none
        | cons line lines =>
          rw [List.nil_append, List.flatten_cons, List.append_assoc]
          exact skipHashBang_of_useDirective (directives line List.mem_cons_self) _
      · exact skipHashBang_append hashBang _
    have fits : lines.length ≤ (first ++ lines.flatten ++ rest).length := by
      have some := length_le_length_flatten directives
      simp only [List.length_append]
      omega
    obtain ⟨rounds, size⟩ := Nat.exists_eq_add_of_le fits
    obtain ⟨others, -, split⟩ := exists_of_skipDirectives rounds rest
    have shorter : (skipDirectives rounds rest).length ≤ rest.length := by
      conv_rhs => rw [split, List.length_append]
      exact Nat.le_add_left ..
    have taken : skipDirectives (first ++ lines.flatten ++ rest).length (lines.flatten ++ rest)
        = skipDirectives rounds rest := by
      rw [size, skipDirectives_append directives]
    refine List.prefix_take_iff.mpr ⟨List.prefix_append .., ?_⟩
    rw [prologueLength, read, taken]
    simp only [List.length_append]
    omega

/-- Whole lines in front of a text go up to the front of its first line, or take that line. -/
theorem prefix_line_cases {words : List Char} (starts : StartsLine lead) (plain : '\n' ∉ words)
    (leads : lead <+: words ++ ['\n'] ++ rest) :
    lead = [] ∨ ∃ behind, lead = words ++ ['\n'] ++ behind
      ∧ StartsLine behind ∧ behind <+: rest := by
  by_cases none : lead = []
  · exact .inl none
  · refine .inr ?_
    obtain ⟨passed, rfl⟩ := @exists_of_startsLine_append [] lead starts none
    obtain ⟨more, split⟩ := leads
    simp only [List.append_assoc, List.singleton_append] at split
    obtain ⟨behind, rfl, isRest⟩ := exists_of_append_eq plain split.symm
    cases behind with
    | nil =>
      refine ⟨[], by simp, .inl rfl, List.nil_prefix⟩
    | cons c behind =>
      obtain ⟨rfl, rfl⟩ := List.cons.inj isRest
      exact ⟨behind ++ ['\n'], by simp, .inr (by simp), more, by simp⟩

theorem exists_of_leads_flatten {lines : List (List Char)}
    (directives : ∀ line ∈ lines, UseDirective line) (starts : StartsLine lead)
    (leads : lead <+: lines.flatten) :
    ∃ fewer : List (List Char), (∀ line ∈ fewer, UseDirective line) ∧ lead = fewer.flatten := by
  induction lines generalizing lead with
  | nil => exact ⟨[], by simp, List.prefix_nil.mp leads⟩
  | cons line lines ih =>
    rw [List.forall_mem_cons] at directives
    obtain ⟨words, plain, rfl⟩ := directives.1.exists_line
    rcases prefix_line_cases starts plain leads with rfl | ⟨behind, rfl, starts', leads'⟩
    · exact ⟨[], by simp, rfl⟩
    · obtain ⟨fewer, areDirectives, rfl⟩ := ih directives.2 starts' leads'
      exact ⟨_ :: fewer, List.forall_mem_cons.mpr ⟨directives.1, areDirectives⟩, rfl⟩

/-- A prologue up to the end of a line is a prologue. -/
theorem Prologue.of_leads (prologue : Prologue text) (leads : lead <+: text)
    (starts : StartsLine lead) :
    Prologue lead := by
  obtain ⟨first, lines, rfl | hashBang, directives, rfl⟩ := prologue
  · obtain ⟨fewer, areDirectives, rfl⟩ := exists_of_leads_flatten directives starts leads
    exact ⟨[], fewer, .inl rfl, areDirectives, rfl⟩
  · obtain ⟨words, plain, rfl⟩ := hashBang.exists_line
    rcases prefix_line_cases starts plain leads with rfl | ⟨behind, rfl, starts', leads'⟩
    · exact ⟨[], [], .inl rfl, by simp, rfl⟩
    · obtain ⟨fewer, areDirectives, rfl⟩ := exists_of_leads_flatten directives starts' leads'
      exact ⟨_, fewer, .inr hashBang, areDirectives, rfl⟩

theorem Prologue.startsLine (prologue : Prologue text) : StartsLine text := by
  have ends : ∀ words : List Char, StartsLine (words ++ ['\n']) := fun words => .inr (by simp)
  obtain ⟨first, lines, isFirst, directives, rfl⟩ := prologue
  refine StartsLine.append ?_ ?_
  · rcases isFirst with rfl | hashBang
    · exact .inl rfl
    · obtain ⟨words, -, rfl⟩ := hashBang.exists_line
      exact ends words
  · induction lines with
    | nil => exact .inl rfl
    | cons line lines ih =>
      rw [List.forall_mem_cons] at directives
      obtain ⟨words, -, rfl⟩ := directives.1.exists_line
      exact (ends words).append (ih directives.2)

/-- The prologue of a text is made of whole lines. -/
theorem startsLine_prologue (text : List Char) : StartsLine (text.take (prologueLength text)) :=
  (prologue_take text).startsLine

/-- Whole lines that lead a text are in its prologue if they are one. -/
theorem prefix_prologue_iff (leads : lead <+: text) (starts : StartsLine lead) :
    lead <+: text.take (prologueLength text) ↔ Prologue lead :=
  ⟨fun inside => (prologue_take text).of_leads inside starts,
    fun prologue => prologue.prefix_take leads⟩

end Prologue

end RenderProbe.Fallback
