import RenderProbe.Proofs.Engine.Naming
import RenderProbe.Proofs.Fallback.ImportBinding

/-!
# Whole names

The fallback tells where a name ends in three ways. Detection reads the characters of a component
name as far as they go, a declaration needs a word boundary behind the name, and a default export of
the name has to end its line. The dollar and the characters of other scripts fall differently under
each of them, so a longer name may be taken for a shorter one that it begins with.

* `isNamePart_of_ascii`: up to the characters of other scripts, detection reads names to their end.
* `standsIn_iff_tellsWhole`: a swap is made for a name of its own exactly if the name does not end
  with a dollar, stands apart from the keyword and goes on with no character that ends a word.
* `names_whole_iff`: which names that are detected, demoted or replaced are whole.
-/

namespace RenderProbe.Fallback

open Text

/-! ## Characters of names -/

/-- A character of a name that is not among the first 128 characters. -/
def isForeignPart (c : Char) : Bool :=
  isNamePart c && 128 ≤ c.toNat

/-- A character of a name that is none of a word: a dollar, or a mark of another script. Word
boundaries do not see that a name goes on with it. -/
def isSilentPart (c : Char) : Bool :=
  isNamePart c && !isWordChar c

section Characters

variable {c : Char}

/-- Among the first 128 characters, those of names are those of component names. -/
theorem isNamePart_of_ascii (ascii : c.toNat < 128) : isNamePart c = isNameChar c := by
  simp only [isNamePart, isWordChar, isIdentifierPart, isNameChar, if_pos ascii, Bool.or_self]

theorem isNamePart_of_isIndent (blank : isIndent c = true) : isNamePart c = false := by
  simp only [isIndent, Bool.or_eq_true, beq_iff_eq] at blank
  rcases blank with rfl | rfl <;> decide

/-- Blanks end no name, whatever they stand behind. -/
theorem getLast?_append_gap {word : String} {words : List Char} (isWords : WordAndGap word words)
    (before : List Char) : (before ++ words).getLast?.any isNamePart = false := by
  obtain ⟨gap, wide, blank, rfl⟩ := isWords
  rw [← List.append_assoc, List.getLast?_append_of_ne_nil _ wide,
    List.getLast?_eq_some_getLast wide]
  exact isNamePart_of_isIndent (blank _ (List.getLast_mem wide))

end Characters

/-! ## Detected names -/

/-- The spellings of a keyword. -/
def Keyword.spellings : Keyword → List String
  | .function => ["function", "function*"]
  | .constant => ["const"]
  | .classKeyword => ["class"]

/-- An exported declaration by the keyword leads up to its name. -/
def LeadsExport (keyword : Keyword) (before : List Char) : Prop :=
  ∃ lines indentation exported async words,
    before = lines ++ indentation ++ exported ++ async ++ words
      ∧ StartsLine lines ∧ Blank indentation ∧ WordAndGap "export" exported
      ∧ (async = [] ∨ WordAndGap "async" async)
      ∧ ∃ word ∈ keyword.spellings, WordAndGap word words

section Detected

variable {text line name rest : List Char} {keyword : Keyword}

theorem keyword?_eq_some (found : keyword? text = some (keyword, rest)) :
    ∃ word ∈ keyword.spellings, wordThenIndent? word text = some rest := by
  unfold keyword? at found
  split at found
  · next following isFunction =>
    obtain ⟨after, spaced, same⟩ := Option.map_eq_some_iff.mp found
    obtain ⟨rfl, rfl⟩ := Prod.mk.inj same
    have split := literal?_eq_some.mp isFunction
    cases starred : literal? ['*'] following with
    | none =>
      rw [starred, Option.getD_none] at spaced
      refine ⟨"function", by simp [Keyword.spellings], ?_⟩
      rw [wordThenIndent?, isFunction, Option.bind_some, spaced]
    | some behind =>
      rw [starred, Option.getD_some] at spaced
      have isLiteral : literal? "function*".toList text = some behind := by
        rw [literal?_eq_some, split, literal?_eq_some.mp starred, ← List.append_assoc]
        rfl
      refine ⟨"function*", by simp [Keyword.spellings], ?_⟩
      rw [wordThenIndent?, isLiteral, Option.bind_some, spaced]
  · split at found
    · next after isConstant =>
      cases found
      exact ⟨"const", by simp [Keyword.spellings], isConstant⟩
    · obtain ⟨after, isClass, same⟩ := Option.map_eq_some_iff.mp found
      obtain ⟨rfl, rfl⟩ := Prod.mk.inj same
      exact ⟨"class", by simp [Keyword.spellings], isClass⟩

/-- A name is read as far as the characters of component names go. -/
theorem capitalName?_eq_some (found : capitalName? text = some name) :
    ∃ after, text = name ++ after ∧ after.head?.any isNameChar = false := by
  unfold capitalName? at found
  split at found
  · next c rest =>
    split at found
    · cases found
      refine ⟨rest.dropWhile isNameChar, ?_, ?_⟩
      · rw [List.cons_append, List.takeWhile_append_dropWhile]
      · have first := List.head?_dropWhile_not isNameChar rest
        cases next : (rest.dropWhile isNameChar).head? with
        | none => rfl
        | some d => simpa [next] using first
    · cases found
  · cases found

theorem exportedDeclaration?_eq_some {lines : List Char} (starts : StartsLine lines)
    (found : exportedDeclaration? line = some (keyword, name)) :
    ∃ before after, LeadsExport keyword before ∧ lines ++ line = before ++ (name ++ after)
      ∧ after.head?.any isNameChar = false := by
  unfold exportedDeclaration? at found
  split at found
  · cases found
  · next rest isExport =>
    obtain ⟨exported, isExported, split⟩ := wordAndGap_of_wordThenIndent? isExport
    obtain ⟨async, isAsync, split'⟩ := exists_async rest
    dsimp only at found
    split at found
    · cases found
    · next keyword' afterKeyword isKeyword =>
      obtain ⟨name', isName, same⟩ := Option.map_eq_some_iff.mp found
      obtain ⟨rfl, rfl⟩ := Prod.mk.inj same
      obtain ⟨word, spelled, read⟩ := keyword?_eq_some isKeyword
      obtain ⟨words, isWords, split''⟩ := wordAndGap_of_wordThenIndent? read
      obtain ⟨after, rfl, ends⟩ := capitalName?_eq_some isName
      refine ⟨_, after, ⟨lines, line.takeWhile isIndent, exported, async, words, rfl, starts,
        blank_takeWhile line, isExported, isAsync, word, spelled, isWords⟩, ?_, ends⟩
      calc
        lines ++ line = lines ++ (line.takeWhile isIndent ++ (exported ++ (async ++ (words
            ++ (name' ++ after))))) := by
          rw [← split'', ← split', ← split, takeWhile_append_skipIndent]
        _ = _ := by simp only [List.append_assoc]

theorem getLast?_of_leadsExport {before : List Char} (leads : LeadsExport keyword before) :
    before.getLast?.any isNamePart = false := by
  obtain ⟨lines, indentation, exported, async, words, rfl, -, -, -, -, word, -, isWords⟩ := leads
  exact getLast?_append_gap isWords _

/-- Behind a name that is read to its end, only characters of other scripts go on with a name. -/
theorem head?_of_isNameChar {after : List Char} (ends : after.head?.any isNameChar = false) :
    after.head?.any isNamePart = false ↔ after.head?.any isForeignPart = false := by
  cases next : after.head? with
  | none => simp
  | some c =>
    have other : isNameChar c = false := by simpa [next] using ends
    by_cases ascii : c.toNat < 128
    · simp [isForeignPart, isNamePart_of_ascii ascii, other]
    · simp [isForeignPart, Nat.le_of_not_lt ascii]

theorem exists_of_mem_detect {text : String} {candidate : Component.Candidate}
    (detected : candidate ∈ detect text) :
    ∃ keyword before after, candidate.kind = Keyword.kind keyword ∧ LeadsExport keyword before
      ∧ text.toList = before ++ (candidate.name.toList ++ after)
      ∧ after.head?.any isNameChar = false := by
  obtain ⟨⟨keyword, name⟩, isFound, rfl⟩ := List.mem_map.mp (of_mem_firstOfEachName detected).1
  obtain ⟨lines, line, split, starts, declared⟩ :=
    exists_of_mem_atLineStarts (fun _ => .inl rfl) isFound
  obtain ⟨before, after, leads, split', ends⟩ := exportedDeclaration?_eq_some starts declared
  exact ⟨keyword, before, after, rfl, leads, by simpa using split.trans split', ends⟩

end Detected

/-! ## Names of swaps -/

/-- A declaration leads up to its name. -/
inductive LeadsName : List Char → Prop
  | function {async spacing : List Char} :
      (async = [] ∨ WordAndGap "async" async) → Spacing spacing →
    LeadsName (async ++ "function".toList ++ spacing)
  | other {keyword : String} {words : List Char} : keyword ∈ ["class", "const", "let", "var"] →
    WordAndGap keyword words → LeadsName words

/-- Where the name of a swap stands: a reference is what the swap takes out, a declaration of the
name comes behind it. -/
inductive Finds (name : List Char) :
    Wrap.Rule → (front removed back before after : List Char) → Prop
  | reference {front back : List Char} : Finds name .defaultIdentifier front name back front back
  | declaration {rule : Wrap.Rule} {front removed lead after : List Char} :
    rule = .defaultDeclaration ∨ rule = .namedFunction → LeadsName lead →
    Finds name rule front removed (lead ++ name ++ after) (front ++ removed ++ lead) after

/-- A rule tells that its name is whole. The rule for references always does; the others need a
blank or a star in front of the name, a character of a word at its end and none behind it that ends
a word inside of a name. -/
def TellsWhole (rule : Wrap.Rule) (name before after : List Char) : Prop :=
  rule = .defaultIdentifier ∨ ¬ "function".toList <:+ before ∧ name.getLast? ≠ some '$'
    ∧ after.head?.any isSilentPart = false

section Swapped

variable {glue : Prop} {style : QuoteStyle} {symbol : String} {name before after : List Char}
  {rule : Wrap.Rule}

theorem not_function_suffix (ends : before.getLast?.any isNamePart = false) :
    ¬ "function".toList <:+ before := by
  rintro ⟨front, rfl⟩
  rw [List.getLast?_append_of_ne_nil _ (by simp)] at ends
  exact absurd ends (by decide)

/-- In front of the name of a declaration no name ends, unless the keyword of a function is glued to
it. -/
theorem getLast?_of_leadsName {lead : List Char} (leads : LeadsName lead) (front : List Char) :
    (front ++ lead).getLast?.any isNamePart = false ↔ ¬ "function".toList <:+ front ++ lead := by
  refine ⟨not_function_suffix, fun apart => ?_⟩
  cases leads with
  | @function async spacing _ isSpacing =>
    have wide : spacing ≠ [] := by
      rintro rfl
      exact apart ⟨front ++ async, by simp⟩
    rw [← List.append_assoc, List.getLast?_append_of_ne_nil _ wide,
      List.getLast?_eq_some_getLast wide]
    rcases blank_or_star_of_spacing isSpacing (List.getLast_mem wide) with blank | star
    · exact isNamePart_of_isIndent blank
    · rw [star]
      decide
  | other _ isWords => exact getLast?_append_gap isWords front

theorem head?_of_append {first second : List Char} (ends : first.head?.any isNamePart = false)
    (ends' : second.head?.any isNamePart = false) :
    (first ++ second).head?.any isNamePart = false := by
  cases first with
  | nil => exact ends'
  | cons c first => exact ends

theorem head?_of_blank {gap : List Char} (blank : Blank gap) :
    gap.head?.any isNamePart = false := by
  cases gap with
  | nil => rfl
  | cons c gap => exact isNamePart_of_isIndent (blank c List.mem_cons_self)

/-- Behind the name of a default export no name goes on. -/
theorem head?_of_endsReference (ends : EndsReference after) :
    after.head?.any isNamePart = false := by
  obtain ⟨gap, mark, gap', comment, carriage, rest, rfl, blank, isMark, blank', isComment,
    isCarriage, isRest⟩ := ends
  refine head?_of_append (head?_of_append (head?_of_append (head?_of_append (head?_of_append
    (head?_of_blank blank) ?_) (head?_of_blank blank')) ?_) ?_) ?_
  · rcases isMark with rfl | rfl <;> decide
  · rcases isComment with rfl | ⟨words, rfl, -, -⟩
    · rfl
    · exact isNamePart_slash
  · rcases isCarriage with rfl | rfl <;> decide
  · rcases isRest with rfl | isFeed
    · rfl
    · rw [isFeed]
      decide

/-- Behind a name with a word boundary at its end no name goes on exactly if the name does not end
with a dollar and goes on with nothing silent. -/
theorem head?_of_isWordBoundary (isName : isComponentName name = true)
    (bounded : isWordBoundary name.getLast? after.head? = true) :
    after.head?.any isNamePart = false ↔
      name.getLast? ≠ some '$' ∧ after.head?.any isSilentPart = false := by
  obtain ⟨nonempty, isChar⟩ := isNameChar_of_isComponentName isName
  rw [List.getLast?_eq_some_getLast nonempty] at bounded ⊢
  have isLast := isChar _ (List.getLast_mem nonempty)
  generalize name.getLast nonempty = last at bounded isLast ⊢
  by_cases dollar : last = '$'
  · -- a dollar is no character of a word, so one follows
    have goesOn : after.head?.any isWordChar = true := by
      rw [dollar] at bounded
      simpa [isWordBoundary, show isWordChar '$' = false by decide] using bounded
    refine iff_of_false (fun ends => ?_) (fun whole => whole.1 (congrArg some dollar))
    rw [any_isWordChar_eq_false ends] at goesOn
    cases goesOn
  · have stops : after.head?.any isWordChar = false := by
      simpa [isWordBoundary, isWordChar_of_isNameChar isLast dollar] using bounded
    have other : some last ≠ some '$' := fun same => dollar (Option.some.inj same)
    cases next : after.head? with
    | none => simp [other]
    | some c =>
      have silent : isWordChar c = false := by simpa [next] using stops
      simp [other, isSilentPart, silent]

theorem Finds.split {front removed back : List Char}
    (finds : Finds name rule front removed back before after) :
    front ++ removed ++ back = before ++ (name ++ after) := by
  cases finds <;> simp only [List.append_assoc]

/-- The name of a declaration is whole exactly if a rule tells so that goes by word boundaries. -/
theorem standsIn_declaration {front removed lead : List Char} (isName : isComponentName name = true)
    (isRule : rule = .defaultDeclaration ∨ rule = .namedFunction) (leads : LeadsName lead)
    (bounded : isWordBoundary name.getLast? after.head? = true) :
    ∃ before after', Finds name rule front removed (lead ++ name ++ after) before after'
      ∧ (StandsIn name (front ++ removed ++ (lead ++ name ++ after)) before after'
        ↔ TellsWhole rule name before after') := by
  have finds :
      Finds name rule front removed (lead ++ name ++ after) (front ++ removed ++ lead) after :=
    .declaration isRule leads
  have other : rule ≠ .defaultIdentifier := by
    rcases isRule with rfl | rfl <;> decide
  refine ⟨_, _, finds, ?_⟩
  rw [StandsIn, getLast?_of_leadsName leads, head?_of_isWordBoundary isName bounded, TellsWhole]
  simp only [finds.split, true_and, other, false_or]

theorem leadsName_of_declaresFunction {declaration : List Char}
    (declares : DeclaresFunction glue name declaration) :
    ∃ lead rest, LeadsName lead ∧ declaration = lead ++ name ++ rest
      ∧ isWordBoundary name.getLast? rest.head? = true := by
  obtain ⟨async, spacing, rest, isAsync, isSpacing, -, split, bounded⟩ := declares
  exact ⟨_, rest, .function isAsync isSpacing, split, bounded⟩

theorem leadsName_of_declaresOther {declaration : List Char}
    (declares : DeclaresOther name declaration) :
    ∃ lead rest, LeadsName lead ∧ declaration = lead ++ name ++ rest
      ∧ isWordBoundary name.getLast? rest.head? = true := by
  obtain ⟨keyword, listed, words, rest, isWords, split, bounded⟩ := declares
  exact ⟨words, rest, .other listed isWords, split, bounded⟩

/-- A swap is made for a name of its own exactly if its rule tells so. Rules differ in what they ask
to follow a name, and this sums them up. -/
theorem standsIn_iff_tellsWhole {name : String} {front removed added back : List Char}
    (isName : isComponentName name.toList = true)
    (allowed : Allowed glue style symbol name rule front removed added back) :
    ∃ before after, Finds name.toList rule front removed back before after
      ∧ (StandsIn name.toList (front ++ removed ++ back) before after
        ↔ TellsWhole rule name.toList before after) := by
  cases allowed with
  | reference starts blank isKeywords ends =>
    obtain ⟨first, second, -, isSecond, rfl⟩ := isKeywords
    refine ⟨_, _, .reference,
      iff_of_true ⟨List.append_assoc .., ?_, head?_of_endsReference ends⟩ (.inl rfl)⟩
    rw [← List.append_assoc]
    exact getLast?_append_gap isSecond _
  | declaration starts blank isKeywords declares =>
    obtain ⟨lead, rest, leads, rfl, bounded⟩ :=
      declares.elim leadsName_of_declaresFunction leadsName_of_declaresOther
    exact standsIn_declaration isName (.inl rfl) leads bounded
  | function starts blank isKeywords declares =>
    obtain ⟨lead, rest, leads, rfl, bounded⟩ := leadsName_of_declaresFunction declares
    exact standsIn_declaration isName (.inr rfl) leads bounded

theorem Swap.source_append (earlier later : List Swap) (swap : Swap) (tail : List Char) :
    Swap.source (earlier ++ swap :: later) tail
      = Swap.source earlier swap.kept ++ swap.removed ++ Swap.source later tail := by
  simp [Swap.source]

end Swapped

/-! ## All names -/

/-- The fallback works on names. Each name that it detects stands behind the keyword of an exported
declaration, and is whole exactly if no character of another script goes on with it. Each name whose
reference is replaced is whole; each name whose declaration is demoted is whole exactly if the
declaration tells so by its word boundary. -/
theorem names_whole_iff (style : QuoteStyle) (text : String) :
    (∀ candidate ∈ detect text, ∃ keyword before after, candidate.kind = Keyword.kind keyword
      ∧ LeadsExport keyword before ∧ text.toList = before ++ (candidate.name.toList ++ after)
      ∧ (StandsIn candidate.name.toList text.toList before after
        ↔ after.head?.any isForeignPart = false))
    ∧ ∀ (name : String) (target : ImportTarget) (output : String) (rules : List Wrap.Rule),
      '\n' ∉ target.symbol.toList → transform style text name target = .wrapped output rules →
      ∃ swaps tail, (edit style target.symbol name text.toList).Follows style target.symbol name
          text.toList swaps tail
        ∧ rules = (edit style target.symbol name text.toList).rules
        ∧ ∀ earlier swap later, swaps = earlier ++ swap :: later → ∃ before after,
          Finds name.toList swap.rule (Swap.source earlier swap.kept) swap.removed
              (Swap.source later tail) before after
            ∧ (StandsIn name.toList text.toList before after
              ↔ TellsWhole swap.rule name.toList before after) := by
  constructor
  · intro candidate detected
    obtain ⟨keyword, before, after, isKind, leads, split, ends⟩ := exists_of_mem_detect detected
    refine ⟨keyword, before, after, isKind, leads, split, ?_⟩
    rw [StandsIn, ← head?_of_isNameChar ends]
    simp only [getLast?_of_leadsExport leads, split, true_and]
  · intro name target output rules plain answer
    obtain ⟨isName, -⟩ := transform_eq_wrapped answer
    obtain ⟨swaps, tail, follows⟩ := follows_edit style plain isName text.toList
    refine ⟨swaps, tail, follows, (rules_of_transform answer).1, ?_⟩
    rintro earlier swap later rfl
    rw [follows.isSource, Swap.source_append]
    exact standsIn_iff_tellsWhole isName (follows.placed earlier swap later rfl)

/-- An exported function. -/
def functionText : String :=
  "export function A() \x7b\x7d"

/-- The name of an exported function is whole, and the function is demoted. -/
theorem names_whole_function :
    ∃ output before after, transform .single functionText "A" ⟨"w", "m"⟩
        = .wrapped output [.namedFunction]
      ∧ StandsIn "A".toList functionText.toList before after := by
  have answer : transform .single functionText "A" ⟨"w", "m"⟩
      = .wrapped
        "import \x7b w \x7d from 'm';\nfunction A() \x7b\x7d\nexport const A = w(A, 'A');\n"
        [.namedFunction] := by decide +kernel
  obtain ⟨swaps, tail, follows, isRules, whole⟩ :=
    (names_whole_iff .single functionText).2 "A" ⟨"w", "m"⟩ _ _ (by decide) answer
  have listed := follows.listed
  rw [← isRules] at listed
  obtain ⟨swap, rfl, isRule⟩ := List.map_eq_singleton_iff.mp (List.singleton_perm.mp listed).symm
  obtain ⟨before, after, finds, stands⟩ := whole [] swap [] rfl
  -- the letter occurs once
  have split : "export function ".toList ++ 'A' :: "() \x7b\x7d".toList = before ++ 'A' :: after :=
    (follows.isSource.trans (Swap.source_append [] [] swap tail)).trans finds.split
  obtain ⟨rfl, -, rfl⟩ := (List.append_cons_inj_of_notMem (by decide) (by decide)).mp split
  exact ⟨_, _, _, answer, stands.mpr (.inr (by decide +kernel))⟩

/-- A longer name is detected as one that it begins with, and its export is demoted for that one. -/
theorem names_cut_short :
    (¬ ∀ (text : String), ∀ candidate ∈ detect text, ∃ before after,
      StandsIn candidate.name.toList text.toList before after)
    ∧ ¬ ∀ (style : QuoteStyle) (text name : String) (target : ImportTarget) (output : String)
        (rules : List Wrap.Rule), '\n' ∉ target.symbol.toList →
      transform style text name target = .wrapped output rules →
      ∃ before after, StandsIn name.toList text.toList before after := by
  constructor
  · intro whole
    have detected : detect "export function Café() \x7b\x7d"
        = [⟨"Caf", .function, .named, none⟩] := by decide +kernel
    obtain ⟨before, after, split, -, ends⟩ :=
      whole "export function Café() \x7b\x7d" _ (detected ▸ List.mem_cons_self)
    have once : "export function ".toList ++ 'C' :: "afé() \x7b\x7d".toList
        = before ++ 'C' :: ("af".toList ++ after) := split
    obtain ⟨-, -, same⟩ := (List.append_cons_inj_of_notMem (by decide) (by decide)).mp once
    obtain rfl : "é() \x7b\x7d".toList = after :=
      List.append_cancel_left (show "af".toList ++ _ = _ from same)
    exact absurd ends (by decide +kernel)
  · intro whole
    have answer : transform .single "export function A$() \x7b\x7d" "A" ⟨"w", "m"⟩
        = .wrapped
          "import \x7b w \x7d from 'm';\nfunction A$() \x7b\x7d\nexport const A = w(A, 'A');\n"
          [.namedFunction] := by decide +kernel
    obtain ⟨before, after, split, -, ends⟩ := whole _ _ _ _ _ _ (by decide) answer
    have once :
        "export function ".toList ++ 'A' :: "$() \x7b\x7d".toList = before ++ 'A' :: after := split
    obtain ⟨-, -, rfl⟩ := (List.append_cons_inj_of_notMem (by decide) (by decide)).mp once
    exact absurd ends (by decide)

end RenderProbe.Fallback
