import RenderProbe.Proofs.Fallback.ImportStatement
import RenderProbe.Proofs.Fallback.Prologue

/-!
# Where the import stands

The import of the wrapper starts a line of its own, behind a hash-bang line. The directives that
lead a text stay in front of it where an import is found, or where nothing but a hash-bang line and
`use` directives without comments leads the text; a comment line is enough to have the import put
above the directives. And what stands behind the last import on its line ends up behind the new one.

* `Leading` and `Directive`: what may lead a text.
* `Leading.quietLines`: it neither exports nor imports.
* `ledBy_editedText`: the lines that lead a text are kept by its edits.
* `transform_places_import`: where the import stands.
-/

namespace RenderProbe.Fallback

open Text

/-! ## Leading lines -/

/-- Characters without line breaks. -/
def Unbroken (text : List Char) : Prop :=
  ∀ c ∈ text, ¬IsBreak c

/-- What may stand between the quotes of a string on one line; a backslash goes with the character
behind it. -/
inductive Quoted (quote : Char) : List Char → Prop
  | nil : Quoted quote []
  | plain {c : Char} {rest : List Char} : c ≠ quote → c ≠ '\\' → ¬IsBreak c → Quoted quote rest →
    Quoted quote (c :: rest)
  | escaped {c : Char} {rest : List Char} : ¬IsBreak c → Quoted quote rest →
    Quoted quote ('\\' :: c :: rest)

/-- A string on a line of its own, with a semicolon and a line comment behind it, or without. -/
def Directive (line : List Char) : Prop :=
  ∃ gap quote inside gap' mark gap'' comment ending, Blank gap ∧ isQuote quote = true
    ∧ Quoted quote inside ∧ Blank gap' ∧ (mark = [] ∨ mark = [';']) ∧ Blank gap''
    ∧ (comment = [] ∨ ∃ words, comment = ['/', '/'] ++ words ∧ Unbroken words)
    ∧ IsNewline ending
    ∧ line
      = gap ++ (quote :: (inside ++ (quote :: (gap' ++ (mark ++ (gap'' ++ (comment ++ ending)))))))

/-- A line that neither exports nor imports. Such lines in front of a text stay in front of it,
whatever is edited or put in. -/
def Quiet (line : List Char) : Prop :=
  Inert line ∧ ¬StartsImport line

/-- A blank line, or comments on lines of their own. -/
inductive Remark : List Char → Prop
  | blank {gap ending : List Char} : Blank gap → IsNewline ending → Remark (gap ++ ending)
  | lineComment {gap words ending : List Char} : Blank gap → Unbroken words → IsNewline ending →
    Remark (gap ++ ('/' :: '/' :: (words ++ ending)))
  | blockComment {gap inside rest : List Char} : Blank gap → ¬['*', '/'] <:+: inside → Remark rest →
    Remark (gap ++ ('/' :: '*' :: (inside ++ '*' :: '/' :: rest)))

/-- What may stand in front of a directive: a hash-bang line, then blank lines, comments on lines of
their own and other directives. No further line of a comment looks like an export or an import. -/
inductive Leading : List Char → Prop
  | nil : Leading []
  | hashBang {line : List Char} : HashBang line → Leading line
  | remark {lead text : List Char} : Leading lead → Remark text →
    (∀ line ∈ fronts false text, Quiet line) → Leading (lead ++ text)
  | directive {lead line : List Char} : Leading lead → Directive line → Leading (lead ++ line)

/-- Whole lines that neither export nor import. -/
def QuietLines (text : List Char) : Prop :=
  StartsLine text ∧ ∀ line ∈ fronts true text, Quiet line

section Leading

variable {text lead line gap rest before : List Char} {c : Char}

theorem quiet_front : Quiet (front line) ↔ Quiet line := by
  rw [Quiet, inert_front, startsImport_front]
  exact Iff.rfl

/-- The first character that is no blank tells that a line neither exports nor imports. -/
theorem quiet_of_head (blank : Blank gap) (solid : isIndent c = false) (notExport : c ≠ 'e')
    (notImport : c ≠ 'i') : Quiet (gap ++ c :: rest) :=
  ⟨inert_of_head gap blank solid notExport, not_startsImport_of_head blank solid notImport⟩

theorem quiet_nil : Quiet [] := ⟨inert_nil, by decide⟩

theorem quietLines_nil : QuietLines [] := by
  refine ⟨.inl rfl, fun line member => ?_⟩
  rw [List.mem_singleton.mp (member : line ∈ [[]])]
  exact quiet_nil

theorem QuietLines.append (first : QuietLines lead) (second : QuietLines text) :
    QuietLines (lead ++ text) := by
  obtain ⟨earlier, settled⟩ := first.1.exists_fronts
  have whole := settled []
  rw [List.append_nil] at whole
  refine ⟨first.1.append second.1, fun line member => ?_⟩
  rw [settled] at member
  rcases List.mem_append.mp member with isEarlier | isLater
  · exact first.2 line (whole ▸ List.mem_append_left _ isEarlier)
  · exact second.2 line isLater

/-- One line that neither exports nor imports. -/
theorem quietLines_of_line (plain : '\n' ∉ line) (quiet : Quiet (line ++ ['\n'])) :
    QuietLines (line ++ ['\n']) := by
  refine ⟨.inr (by simp), fun other member => ?_⟩
  rw [fronts_true, fronts_false_append plain] at member
  rcases List.mem_cons.mp member with rfl | isLast
  · exact quiet_front.mpr quiet
  · rw [List.mem_singleton.mp (isLast : other ∈ [[]])]
    exact quiet_nil

theorem Unbroken.lineFeed_notMem (unbroken : Unbroken text) : '\n' ∉ text :=
  fun member => unbroken _ member (.inl rfl)

theorem Quoted.lineFeed_notMem {quote : Char} {inside : List Char} (quoted : Quoted quote inside) :
    '\n' ∉ inside := by
  induction quoted with
  | nil => simp
  | plain _ _ unbroken _ ih =>
    rw [List.mem_cons, not_or]
    exact ⟨fun same => unbroken (.inl same.symm), ih⟩
  | escaped unbroken _ ih =>
    rw [List.mem_cons, List.mem_cons, not_or, not_or]
    exact ⟨by decide, fun same => unbroken (.inl same.symm), ih⟩

theorem quoted_of_plain {quote : Char} {inside : List Char}
    (plain : ∀ c ∈ inside, c ≠ quote ∧ c ≠ '\\' ∧ ¬IsBreak c) : Quoted quote inside := by
  induction inside with
  | nil => exact .nil
  | cons c inside ih =>
    rw [List.forall_mem_cons] at plain
    exact .plain plain.1.1 plain.1.2.1 plain.1.2.2 (ih plain.2)

/-- The directives of a prologue are directives. -/
theorem UseDirective.directive (isUse : UseDirective line) : Directive line := by
  obtain ⟨gap, quote, words, gap', mark, gap'', ending, blank, isQuoted, -, isWords, blank', isMark,
    blank'', ends, rfl⟩ := isUse
  refine ⟨gap, quote, "use ".toList ++ words, gap', mark, gap'', [], ending, blank, isQuoted,
    quoted_of_plain ?_, blank', isMark, blank'', .inl rfl, ends, by simp⟩
  have isWord :=
    letters_of_all (by decide : "use ".toList.all (fun c => c.isLower || c == ' ') = true)
  have letters : ∀ c ∈ "use ".toList ++ words, c.isLower = true ∨ c = ' ' := fun c member =>
    (List.mem_append.mp member).elim (isWord c) (isWords c)
  intro c member
  have letter := letters c member
  refine ⟨?_, ?_, ?_⟩
  · rintro rfl
    have other := isLetter_of_isQuote isQuoted
    rcases letter with lower | rfl
    · simp [lower] at other
    · cases isQuoted
  · rintro rfl
    revert letter
    decide
  · rintro (rfl | rfl) <;> revert letter <;> decide

/-- A line with a quote in front. -/
theorem Directive.exists_line (directive : Directive line) :
    ∃ gap quote words, Blank gap ∧ isQuote quote = true ∧ '\n' ∉ words
      ∧ line = gap ++ quote :: words ++ ['\n'] := by
  obtain ⟨gap, quote, inside, gap', mark, gap'', comment, ending, blank, isQuoted, quoted, blank',
    isMark, blank'', isComment, ends, rfl⟩ := directive
  obtain ⟨carriage, plain, rfl⟩ := ends.exists_line
  have inMark : '\n' ∉ mark := by rcases isMark with rfl | rfl <;> decide
  have inComment : '\n' ∉ comment := by
    rcases isComment with rfl | ⟨words, rfl, unbroken⟩
    · simp
    · simpa using unbroken.lineFeed_notMem
  have other : '\n' ≠ quote := ne_of_isQuote isQuoted rfl
  refine ⟨gap, quote, inside ++ quote :: (gap' ++ (mark ++ (gap'' ++ (comment ++ carriage)))),
    blank, isQuoted, ?_, by simp⟩
  simp [quoted.lineFeed_notMem, other, lineFeed_notMem_of_blank blank', inMark,
    lineFeed_notMem_of_blank blank'', inComment, plain]

theorem quietLines_of_head {words : List Char} (blank : Blank gap) (plain : '\n' ∉ c :: words)
    (solid : isIndent c = false) (notExport : c ≠ 'e') (notImport : c ≠ 'i') :
    QuietLines (gap ++ c :: words ++ ['\n']) := by
  refine quietLines_of_line ?_ ?_
  · exact fun member => (List.mem_append.mp member).elim (lineFeed_notMem_of_blank blank) plain
  · rw [List.append_assoc, List.cons_append]
    exact quiet_of_head blank solid notExport notImport

theorem Directive.quietLines (directive : Directive line) : QuietLines line := by
  obtain ⟨gap, quote, words, blank, isQuoted, plain, rfl⟩ := directive.exists_line
  have other : '\n' ≠ quote := ne_of_isQuote isQuoted rfl
  exact quietLines_of_head blank (by simp [other, plain]) (isIndent_of_isQuote isQuoted)
    (ne_of_isQuote isQuoted rfl).symm (ne_of_isQuote isQuoted rfl).symm

theorem HashBang.quietLines (hashBang : HashBang line) : QuietLines line := by
  obtain ⟨words, plain, rfl⟩ := hashBang
  have quiet : QuietLines ([] ++ '#' :: ('!' :: words) ++ ['\n']) :=
    quietLines_of_head (by simp [Blank]) (by simp [plain]) rfl (by decide) (by decide)
  simpa using quiet

theorem IsNewline.startsLine_append (isNewline : IsNewline line) (text : List Char) :
    StartsLine (text ++ line) := by
  refine .inr ?_
  rcases isNewline with rfl | rfl <;> simp

theorem Remark.startsLine (remark : Remark text) : StartsLine text := by
  refine .inr ?_
  induction remark with
  | blank _ ends => rcases ends with rfl | rfl <;> simp
  | lineComment _ _ ends => rcases ends with rfl | rfl <;> simp [List.getLast?_cons]
  | blockComment _ _ _ ih => simp [List.getLast?_append, List.getLast?_cons, ih]

/-- A remark starts with a blank, a slash or a line break. -/
theorem Remark.quiet (remark : Remark text) : Quiet text := by
  cases remark with
  | blank blank ends =>
    rcases ends with rfl | rfl
    · exact quiet_of_head blank rfl (by decide) (by decide)
    · exact quiet_of_head blank rfl (by decide) (by decide)
  | lineComment blank _ _ => exact quiet_of_head blank rfl (by decide) (by decide)
  | blockComment blank _ _ => exact quiet_of_head blank rfl (by decide) (by decide)

/-- What leads a text neither exports nor imports. -/
theorem Leading.quietLines (leading : Leading lead) : QuietLines lead := by
  induction leading with
  | nil => exact quietLines_nil
  | hashBang hashBang => exact hashBang.quietLines
  | remark _ remark further ih =>
    refine ih.append ⟨remark.startsLine, ?_⟩
    rw [fronts_true]
    exact List.forall_mem_cons.mpr ⟨quiet_front.mpr remark.quiet, further⟩
  | directive _ directive ih => exact ih.append directive.quietLines

/-! ## Lines that are kept -/

/-- Lines in front that neither export nor import are in front of every line that does. -/
theorem QuietLines.prefix_of_line (quiet : QuietLines lead) (leads : lead <+: before ++ line)
    (starts : StartsLine before) (speaks : ¬Quiet line) : lead <+: before := by
  obtain ⟨more, split⟩ := leads
  rcases List.append_eq_append_iff.mp split with ⟨further, isBefore, -⟩ | ⟨further, isLead, isLine⟩
  · exact ⟨further, isBefore.symm⟩
  · by_cases none : further = []
    · exact ⟨[], by simp [isLead, none]⟩
    · -- Else the line is one of those in front.
      obtain ⟨words, rfl⟩ := exists_of_startsLine_append (isLead ▸ quiet.1) none
      obtain ⟨earlier, settled⟩ := starts.exists_fronts
      have here : front words ∈ fronts true lead := by
        rw [isLead, settled, fronts_true, front_append_stop rfl]
        exact List.mem_append_right _ List.mem_cons_self
      have same : front line = front words := by
        rw [isLine, List.append_assoc, List.singleton_append, front_append_stop rfl]
      exact absurd (quiet_front.mp (same ▸ quiet.2 _ here)) speaks

theorem Respelled.keeps_lead {text' : List Char} (respelled : Respelled text text')
    (quiet : QuietLines lead) (leads : lead <+: text) : lead <+: text' := by
  obtain @⟨lines, old, new, rest, starts, -, -, exported, -⟩ := respelled
  exact (quiet.prefix_of_line leads starts fun isQuiet => exported isQuiet.1).trans
    (List.prefix_append ..)

end Leading

section Kept

variable {style : QuoteStyle} {text name symbol : String} {lead : List Char}

/-- The edits of a text keep the lines in front that neither export nor import. What leads a text is
made of such lines, so the place of an import can be told from the source. -/
theorem ledBy_editedText (style : QuoteStyle) (plain : '\n' ∉ symbol.toList)
    (isName : isComponentName name.toList = true) (quiet : QuietLines lead)
    (leads : lead <+: text.toList) : lead <+: editedText style text name symbol := by
  have step : ∀ {first second : List Char}, second = first ∨ Respelled first second →
      lead <+: first → lead <+: second := by
    rintro first second (rfl | respelled) leads
    · exact leads
    · exact respelled.keeps_lead quiet leads
  have edits : lead <+: (edit style symbol name text.toList).text :=
    step (respelled_editFunction style symbol name _)
      (step (respelled_editDefault style symbol name _)
        (step (respelled_editReference style plain isName ⟨text.toList, [], []⟩) leads))
  unfold editedText withAppended
  split
  · exact edits
  · dsimp only
    rw [List.append_assoc]
    exact edits.trans (List.prefix_append ..)

end Kept

/-! ## The place of the import -/

/-- What may stand behind a line: nothing, or a line break first. -/
def BehindLine (after : List Char) : Prop :=
  ∀ c, after.head? = some c → IsBreak c

/-- A text is parted in two, with a line break put in behind the first part or before the second
one. -/
def PartsAt (newline text before after : List Char) : Prop :=
  (∃ front, before = front ++ newline ∧ text = front ++ after)
    ∨ ∃ back, after = newline ++ back ∧ text = before ++ back

section Place

variable {style : QuoteStyle} {text newline lead clause : List Char} {symbol module : String}
  {stop : Nat}

theorem IsNewline.behindLine_append (isNewline : IsNewline newline) (text : List Char) :
    BehindLine (newline ++ text) := by
  rintro c head
  rcases isNewline with rfl | rfl
  · exact .inl (Option.some.inj head).symm
  · exact .inr (Option.some.inj head).symm

theorem unbroken_importStatement (style : QuoteStyle) (unbroken : Unbroken symbol.toList)
    (unbroken' : Unbroken module.toList) :
    Unbroken (Snippet.importStatement style symbol module).toList := by
  rintro c member isBreak
  have other : c ∉ ['\\', '\'', '"'] ∧ c ∉ "import \x7b ".toList ∧ c ∉ " \x7d from ".toList
      ∧ c ∉ [';'] := by
    rcases isBreak with rfl | rfl <;> decide
  have inSymbol : c ∉ symbol.toList := fun member => unbroken c member isBreak
  have inModule : c ∉ (Snippet.stringLiteral style module).toList :=
    notMem_stringLiteral other.1 fun member => unbroken' c member isBreak
  rw [toList_importStatement] at member
  simp only [List.mem_append, other.2.1, inSymbol, other.2.2.1, inModule,
    other.2.2.2, or_self] at member

/-- Lines in front that neither export nor import are in front of every import. -/
theorem QuietLines.prefix_take (quiet : QuietLines lead) (leads : lead <+: text)
    (member : (clause, stop) ∈ imports text) : lead <+: text.take stop := by
  obtain ⟨before, statement, rest, rfl, starts, isText, ends⟩ := exists_of_mem_imports member
  have inFront : lead <+: before := quiet.prefix_of_line leads starts fun isQuiet =>
    isQuiet.2 (startsImport_of_importText isText)
  obtain ⟨tail, -, split⟩ := exists_statementEnd rest
  have size := congrArg List.length split
  refine List.prefix_take_iff.mpr ⟨leads, ?_⟩
  have within := inFront.length_le
  simp only [List.length_append] at ends size
  omega

end Place

section Transform

/-- An import that is put in is one line. It starts behind the end of a line, and the line ends
behind it unless something stands behind the last import of the text on its line. A hash-bang line
comes before it, and so do directives if the text has an import, or if they are part of its
prologue. -/
theorem transform_places_import (style : QuoteStyle) (text name : String) (target : ImportTarget)
    (unbroken : Unbroken target.symbol.toList) (unbroken' : Unbroken target.module.toList)
    {output : String} {rules : List Wrap.Rule}
    (answer : transform style text name target = .wrapped output rules)
    (inserted : output.toList ≠ editedText style text name target.symbol) :
    Unbroken (Snippet.importStatement style target.symbol target.module).toList
    ∧ ∃ before after,
      output.toList = before
          ++ ((Snippet.importStatement style target.symbol target.module).toList ++ after)
      ∧ PartsAt (Snippet.newlineFor text).toList (editedText style text name target.symbol) before
        after
      ∧ StartsLine before
      ∧ (BehindLine after ↔ ∀ clause stop,
        (imports (editedText style text name target.symbol)).getLast? = some (clause, stop) →
          BehindLine ((editedText style text name target.symbol).drop stop))
      ∧ (∀ line, HashBang line → line <+: text.toList → line <+: before)
      ∧ ∀ lead line, Leading lead → Directive line → lead ++ line <+: text.toList →
        (lead ++ line <+: before ↔
          imports (editedText style text name target.symbol) ≠ [] ∨ Prologue (lead ++ line)) := by
  refine ⟨unbroken_importStatement style unbroken unbroken', ?_⟩
  obtain ⟨isName, isOutput⟩ := transform_eq_wrapped answer
  have isNewline := isNewline_newlineFor text
  have kept : ∀ {lead}, QuietLines lead → lead <+: text.toList →
      lead <+: editedText style text name target.symbol := fun quiet leads =>
    ledBy_editedText style unbroken.lineFeed_notMem isName quiet leads
  change output.toList = ensureImport (editedText style text name target.symbol) _ _ _ at isOutput
  generalize editedText style text name target.symbol = edited at *
  have unnamed : ∀ clause ∈ clauses edited, clauseBinds target.symbol.toList clause = false := by
    intro clause member
    by_contra named
    rw [Bool.not_eq_false] at named
    exact inserted (isOutput.trans (ensureImport_of_named member named))
  rcases ensureImport_of_unnamed (Snippet.importStatement style target.symbol target.module).toList
    (Snippet.newlineFor text).toList unnamed with ⟨clause, stop, last, placed⟩ | ⟨none, placed⟩
  · have member := List.mem_of_getLast? last
    have inFront : ∀ {lead}, QuietLines lead → lead <+: text.toList →
        lead <+: edited.take stop ++ (Snippet.newlineFor text).toList := fun quiet leads =>
      (quiet.prefix_take (kept quiet leads) member).trans (List.prefix_append ..)
    refine ⟨edited.take stop ++ (Snippet.newlineFor text).toList, edited.drop stop, ?_,
      .inl ⟨_, rfl, (List.take_append_drop ..).symm⟩, isNewline.startsLine_append _, ?_, ?_, ?_⟩
    · rw [isOutput, placed]
      simp only [List.append_assoc]
    · rw [last]
      simp
    · exact fun line hashBang leads => inFront hashBang.quietLines leads
    · intro lead line leading directive leads
      have some : imports edited ≠ [] := List.ne_nil_of_mem member
      exact iff_of_true (inFront (leading.quietLines.append directive.quietLines) leads) (.inl some)
  · have inFront : ∀ {lead}, QuietLines lead → lead <+: text.toList →
        (lead <+: edited.take (prologueLength edited) ↔ Prologue lead) := fun quiet leads =>
      prefix_prologue_iff (kept quiet leads) quiet.1
    refine ⟨edited.take (prologueLength edited), (Snippet.newlineFor text).toList
      ++ edited.drop (prologueLength edited), ?_, .inr ⟨_, rfl, (List.take_append_drop ..).symm⟩,
      startsLine_prologue edited, ?_, ?_, ?_⟩
    · rw [isOutput, placed]
      simp only [List.append_assoc]
    · rw [none]
      exact iff_of_true (isNewline.behindLine_append _) (by simp)
    · exact fun line hashBang leads => (inFront hashBang.quietLines leads).mpr
        ⟨line, [], .inr hashBang, by simp, by simp⟩
    · intro lead line leading directive leads
      rw [inFront (leading.quietLines.append directive.quietLines) leads, none]
      simp

theorem useDirective_client : UseDirective "'use client';\n".toList :=
  ⟨[], '\'', "client".toList, [], [';'], [], ['\n'], by simp [Blank], rfl, by decide,
    letters_of_all (by decide), by simp [Blank], .inr rfl, by simp [Blank], .inl rfl, rfl⟩

/-- A default export behind a hash-bang line and a directive. -/
def ledText : String :=
  "#!/bin/sh\n'use client';\nexport default A\n"

/-- What a wrap makes of it. -/
def ledOutput : String :=
  "#!/bin/sh\n'use client';\nimport \x7b w \x7d from 'm';\nexport default w(A, 'A')\n"

/-- The import stands behind a hash-bang line and a directive. -/
theorem transform_places_import_prologue :
    Unbroken "w".toList ∧ Unbroken "m".toList ∧ ∃ output rules,
      transform .single ledText "A" ⟨"w", "m"⟩ = .wrapped output rules
        ∧ output.toList ≠ editedText .single ledText "A" "w"
        ∧ ∃ before after,
          output.toList = before ++ ((Snippet.importStatement .single "w" "m").toList ++ after)
          ∧ StartsLine before ∧ BehindLine after
          ∧ "#!/bin/sh\n'use client';\n".toList <+: before := by
  have unbroken : Unbroken "w".toList ∧ Unbroken "m".toList := by
    constructor <;> simp [Unbroken, IsBreak]
  have answer :
      transform .single ledText "A" ⟨"w", "m"⟩ = .wrapped ledOutput [.defaultIdentifier] := by
    decide +kernel
  have inserted : ledOutput.toList ≠ editedText .single ledText "A" "w" := by decide +kernel
  have none : imports (editedText .single ledText "A" "w") = [] := by decide +kernel
  obtain ⟨-, before, after, split, -, starts, behind, -, directives⟩ :=
    transform_places_import .single _ "A" ⟨"w", "m"⟩ unbroken.1 unbroken.2 answer inserted
  have hashBang : HashBang "#!/bin/sh\n".toList := ⟨"/bin/sh".toList, by decide, rfl⟩
  refine ⟨unbroken.1, unbroken.2, _, _, answer, inserted, before, after, split, starts,
    behind.mpr (by simp [none]), ?_⟩
  exact (directives _ _ (.hashBang hashBang) useDirective_client.directive (by decide +kernel)).mpr
    (.inr ⟨_, [_], .inr hashBang, by simpa using useDirective_client, by simp⟩)

/-- A comment is enough to have the import put above a directive. -/
theorem transform_passes_over_directive :
    ¬ ∀ (style : QuoteStyle) (text name : String) (target : ImportTarget) (output : String)
        (rules : List Wrap.Rule),
      Unbroken target.symbol.toList → Unbroken target.module.toList →
      transform style text name target = .wrapped output rules →
      output.toList ≠ editedText style text name target.symbol →
      ∃ before after,
        output.toList = before
            ++ ((Snippet.importStatement style target.symbol target.module).toList ++ after)
        ∧ StartsLine before ∧ BehindLine after
        ∧ (∀ line, HashBang line → line <+: text.toList → line <+: before)
        ∧ ∀ lead line, Leading lead → Directive line → lead ++ line <+: text.toList →
          lead ++ line <+: before := by
  intro places
  have answer :
      transform .single "// c\n'use client';\nexport default A\n" "A" ⟨"w", "m"⟩
        = .wrapped
          "import \x7b w \x7d from 'm';\n// c\n'use client';\nexport default w(A, 'A')\n"
          [.defaultIdentifier] := by decide +kernel
  obtain ⟨before, after, split, -, -, -, directives⟩ := places .single _ "A" ⟨"w", "m"⟩ _ _
    (by simp [Unbroken, IsBreak]) (by simp [Unbroken, IsBreak]) answer (by decide +kernel)
  have remark : Remark "// c\n".toList :=
    @Remark.lineComment [] " c".toList ['\n'] (by simp [Blank]) (by simp [Unbroken, IsBreak])
      (.inl rfl)
  have further : ∀ line ∈ fronts false "// c\n".toList, Quiet line := by
    rw [show fronts false "// c\n".toList = [[]] by decide]
    simpa using quiet_nil
  have leading : Leading ([] ++ "// c\n".toList) := .remark .nil remark further
  have inFront := (directives _ _ leading useDirective_client.directive (by decide +kernel)).trans
    ⟨_, split.symm⟩
  exact absurd inFront (by decide +kernel)

end Transform

end RenderProbe.Fallback
