import RenderProbe.Proofs.Fallback.Repeat

/-!
# What the fallback keeps of a text

The fallback edits a text that it cannot parse. It swaps at most two stretches of it for others,
adds lines at the end and puts an import in; every other character stays.

* `Allowed`: the stretches that a rule may swap, by what stands before and behind them in the
  source.
* `Edited.Once` and `Edited.Follows`: the edits so far, as swaps of stretches of the source.
* `Edited.Once.follows_editFunction`: the last edit reads a text that may have been edited. Its line
  is another one than that of the first edit, so the stretch it swaps is one of the source.
* `transform_keeps_rest`: what the output is made of.
-/

namespace RenderProbe.Fallback

open Text

/-! ## Shapes -/

/-- A word with blanks behind it, at least one. -/
def WordAndGap (word : String) (text : List Char) : Prop :=
  ∃ gap, gap ≠ [] ∧ Blank gap ∧ text = word.toList ++ gap

/-- The keywords of a default export, each with blanks behind it. -/
def DefaultKeywords (text : List Char) : Prop :=
  ∃ first second, WordAndGap "export" first ∧ WordAndGap "default" second ∧ text = first ++ second

/-- What may follow the name on the line of a default export of it: a semicolon and a line
comment. -/
def EndsReference (text : List Char) : Prop :=
  ∃ gap mark gap' comment carriage rest,
    text = gap ++ mark ++ gap' ++ comment ++ carriage ++ rest
      ∧ Blank gap ∧ (mark = [] ∨ mark = [';']) ∧ Blank gap'
      ∧ (comment = [] ∨ ∃ words, comment = ['/', '/'] ++ words ∧ '\r' ∉ words ∧ '\n' ∉ words)
      ∧ (carriage = [] ∨ carriage = ['\r']) ∧ (rest = [] ∨ rest.head? = some '\n')

/-- What may stand between the keyword of a function and its name: blanks around a star. -/
def Spacing (text : List Char) : Prop :=
  ∃ gap star gap', Blank gap ∧ (star = [] ∨ star = ['*']) ∧ Blank gap' ∧ text = gap ++ star ++ gap'

/-- A function of the name is declared here. Unless keyword and name may be glued together,
something stands between them. -/
def DeclaresFunction (glue : Prop) (name declaration : List Char) : Prop :=
  ∃ async spacing rest,
    (async = [] ∨ WordAndGap "async" async) ∧ Spacing spacing ∧ (spacing ≠ [] ∨ glue)
      ∧ declaration = async ++ "function".toList ++ spacing ++ name ++ rest
      ∧ isWordBoundary name.getLast? rest.head? = true

/-- The keyword of a function and a name are glued together somewhere in a source. The rules take
such a word for a declaration, since blanks between the two may be missing. -/
def Glued (name source : List Char) : Prop :=
  "function".toList ++ name <:+: source

/-- A class or a variable of the name is declared here. -/
def DeclaresOther (name declaration : List Char) : Prop :=
  ∃ keyword ∈ ["class", "const", "let", "var"], ∃ words rest,
    WordAndGap keyword words ∧ declaration = words ++ name ++ rest
      ∧ isWordBoundary name.getLast? rest.head? = true

/-- The stretches of a source that a rule may swap: what it takes out between a front and a back,
and what it puts in instead. -/
inductive Allowed (glue : Prop) (style : QuoteStyle) (symbol name : String) :
    Wrap.Rule → (front removed added back : List Char) → Prop
  | reference {lines indentation keywords back : List Char} :
    StartsLine lines → Blank indentation → DefaultKeywords keywords → EndsReference back →
    Allowed glue style symbol name .defaultIdentifier (lines ++ indentation ++ keywords)
      name.toList (Snippet.wrapCall style symbol name name).toList back
  | declaration {lines indentation keywords back : List Char} :
    StartsLine lines → Blank indentation → DefaultKeywords keywords →
    DeclaresFunction glue name.toList back ∨ DeclaresOther name.toList back →
    Allowed glue style symbol name .defaultDeclaration (lines ++ indentation) keywords [] back
  | function {lines indentation keywords back : List Char} :
    StartsLine lines → Blank indentation → WordAndGap "export" keywords →
    DeclaresFunction glue name.toList back →
    Allowed glue style symbol name .namedFunction (lines ++ indentation) keywords [] back

theorem blank_or_star_of_spacing {text : List Char} {c : Char} (spacing : Spacing text)
    (member : c ∈ text) : isIndent c = true ∨ c = '*' := by
  obtain ⟨gap, star, gap', blank, isStar, blank', rfl⟩ := spacing
  simp only [List.mem_append] at member
  rcases member with (inGap | inStar) | inGap
  · exact .inl (blank c inGap)
  · rcases isStar with rfl | rfl
    · cases inStar
    · exact .inr (List.mem_singleton.mp inStar)
  · exact .inl (blank' c inGap)

/-! ## Recognised lines -/

section Recognised

variable {name line text rest indentation declaration keywords after : List Char} {word : String}

theorem wordAndGap_of_wordThenIndent? (found : wordThenIndent? word text = some rest) :
    ∃ words, WordAndGap word words ∧ text = words ++ rest := by
  obtain ⟨gap, wide, blank, -, rfl⟩ := wordThenIndent?_eq_some.mp found
  exact ⟨word.toList ++ gap, ⟨gap, wide, blank, rfl⟩, rfl⟩

theorem defaultKeywords_of_bind
    (found : (wordThenIndent? "export" text).bind (wordThenIndent? "default") = some rest) :
    ∃ keywords, DefaultKeywords keywords ∧ text = keywords ++ rest := by
  obtain ⟨middle, exported, isDefault⟩ := Option.bind_eq_some_iff.mp found
  obtain ⟨first, isFirst, rfl⟩ := wordAndGap_of_wordThenIndent? exported
  obtain ⟨second, isSecond, rfl⟩ := wordAndGap_of_wordThenIndent? isDefault
  exact ⟨first ++ second, ⟨first, second, isFirst, isSecond, rfl⟩, (List.append_assoc ..).symm⟩

/-- The word `async` that may be there, and what follows it. -/
theorem exists_async (text : List Char) : ∃ async, (async = [] ∨ WordAndGap "async" async)
    ∧ text = async ++ (wordThenIndent? "async" text).getD text := by
  cases found : wordThenIndent? "async" text with
  | none => exact ⟨[], .inl rfl, rfl⟩
  | some rest =>
    obtain ⟨words, isWords, split⟩ := wordAndGap_of_wordThenIndent? found
    exact ⟨words, .inr isWords, split⟩

theorem literalThenBoundary?_eq_some {wanted : List Char}
    (found : literalThenBoundary? none wanted text = some rest) :
    text = wanted ++ rest ∧ isWordBoundary wanted.getLast? rest.head? = true := by
  unfold literalThenBoundary? at found
  split at found
  · cases found
  · next following literal =>
    split at found
    · next bounded =>
      obtain rfl := Option.some.inj found
      exact ⟨literal?_eq_some.mp literal, by simpa using bounded⟩
    · cases found

theorem declaresFunction_of_eq_true {source : List Char} (inside : declaration <:+: source)
    (declares : declaresFunction name declaration = true) :
    DeclaresFunction (Glued name source) name declaration := by
  obtain ⟨async, isAsync, split⟩ := exists_async declaration
  unfold declaresFunction at declares
  dsimp only at declares
  split at declares
  · cases declares
  · next following isFunction =>
    obtain ⟨rest, found⟩ := Option.isSome_iff_exists.mp declares
    obtain ⟨named, bounded⟩ := literalThenBoundary?_eq_some found
    obtain ⟨star, isStar, split'⟩ := exists_mark '*' (skipIndent following)
    generalize (literal? ['*'] (skipIndent following)).getD (skipIndent following) = afterStar at *
    have whole : declaration = async ++ "function".toList
        ++ (following.takeWhile isIndent ++ star ++ afterStar.takeWhile isIndent)
        ++ name ++ rest := by
      calc
        declaration = async ++ ("function".toList ++ following) := by
          rw [← literal?_eq_some.mp isFunction, ← split]
        _ = async ++ ("function".toList ++ (following.takeWhile isIndent ++ (star
            ++ (afterStar.takeWhile isIndent ++ (name ++ rest))))) := by
          rw [← named, takeWhile_append_skipIndent, ← split', takeWhile_append_skipIndent]
        _ = _ := by simp only [List.append_assoc]
    refine ⟨async, _, rest, isAsync,
      ⟨_, star, _, blank_takeWhile _, isStar, blank_takeWhile _, rfl⟩, ?_, whole, bounded⟩
    -- without anything between them the keyword and the name are glued together here
    by_cases apart : following.takeWhile isIndent ++ star ++ afterStar.takeWhile isIndent = []
    · refine .inr (List.IsInfix.trans ⟨async, rest, ?_⟩ inside)
      rw [whole, apart]
      simp only [List.append_nil, List.append_assoc]
    · exact .inl apart

theorem declaresOther_of_eq_true
    (declares : declaresBy ["class", "const", "let", "var"] name declaration = true) :
    DeclaresOther name declaration := by
  obtain ⟨keyword, listed, found⟩ := List.any_eq_true.mp declares
  obtain ⟨rest, found⟩ := Option.isSome_iff_exists.mp found
  obtain ⟨named, isKeyword, isName⟩ := Option.bind_eq_some_iff.mp found
  obtain ⟨words, isWords, rfl⟩ := wordAndGap_of_wordThenIndent? isKeyword
  obtain ⟨rfl, bounded⟩ := literalThenBoundary?_eq_some isName
  exact ⟨keyword, listed, words, rest, isWords, (List.append_assoc ..).symm, bounded⟩

theorem endsReference_of_endsLine
    (ends : endsLine ((literal? [';'] (skipIndent text)).getD (skipIndent text)) = true) :
    EndsReference text := by
  obtain ⟨mark, isMark, split⟩ := exists_mark ';' (skipIndent text)
  generalize (literal? [';'] (skipIndent text)).getD (skipIndent text) = marked at *
  obtain ⟨comment, commented, isComment, split', read⟩ : ∃ comment commented,
      (comment = [] ∨ ∃ words, comment = ['/', '/'] ++ words ∧ '\r' ∉ words ∧ '\n' ∉ words)
        ∧ skipIndent marked = comment ++ commented
        ∧ endsLine marked = (((literal? ['\r'] commented).getD commented).isEmpty
          || ((literal? ['\r'] commented).getD commented).head? == some '\n') := by
    cases found : literal? ['/', '/'] (skipIndent marked) with
    | none => exact ⟨[], skipIndent marked, .inl rfl, rfl, by simp only [endsLine, found]⟩
    | some words =>
      have inLine : ∀ c ∈ words.takeWhile fun c => c != '\r' && c != '\n', c ≠ '\r' ∧ c ≠ '\n' := by
        intro c member
        simpa using List.mem_takeWhile_imp member
      refine ⟨['/', '/'] ++ words.takeWhile fun c => c != '\r' && c != '\n',
        words.dropWhile fun c => c != '\r' && c != '\n', .inr ⟨_, rfl, ?_, ?_⟩, ?_,
        by simp only [endsLine, found]⟩
      · exact fun member => (inLine _ member).1 rfl
      · exact fun member => (inLine _ member).2 rfl
      · rw [List.append_assoc, List.takeWhile_append_dropWhile]
        exact literal?_eq_some.mp found
  rw [read] at ends
  obtain ⟨carriage, isCarriage, split''⟩ := exists_mark '\r' commented
  generalize (literal? ['\r'] commented).getD commented = rest at *
  refine ⟨text.takeWhile isIndent, mark, marked.takeWhile isIndent, comment, carriage, rest, ?_,
    blank_takeWhile _, isMark, blank_takeWhile _, isComment, isCarriage, ?_⟩
  · calc
      text = text.takeWhile isIndent ++ (mark ++ (marked.takeWhile isIndent
          ++ (comment ++ (carriage ++ rest)))) := by
        rw [← split'', ← split', takeWhile_append_skipIndent, ← split, takeWhile_append_skipIndent]
      _ = _ := by simp only [List.append_assoc]
  · simpa [List.isEmpty_iff] using ends

theorem defaultReference?_eq_some
    (found : defaultReference? name line = some (keywords, after)) :
    ∃ indentation words, Blank indentation ∧ DefaultKeywords words ∧ keywords = indentation ++ words
      ∧ EndsReference after ∧ line = keywords ++ name ++ after := by
  unfold defaultReference? at found
  split at found
  · cases found
  · next atName read =>
    split at found
    · cases found
    · next rest isName =>
      dsimp only at found
      split at found
      · next ends =>
        obtain ⟨words, isWords, split⟩ := defaultKeywords_of_bind read
        have whole : line = line.takeWhile isIndent ++ words ++ atName := by
          rw [List.append_assoc, ← split, takeWhile_append_skipIndent]
        have cut : line.take (line.length - atName.length) = line.takeWhile isIndent ++ words := by
          conv_lhs => rw [whole]
          rw [List.length_append, Nat.add_sub_cancel, List.take_left]
        simp only [Option.some.injEq, Prod.mk.injEq] at found
        obtain ⟨rfl, rfl⟩ := found
        refine ⟨_, words, blank_takeWhile line, isWords, cut, endsReference_of_endsLine ends, ?_⟩
        rw [cut, List.append_assoc (_ ++ words), ← literal?_eq_some.mp isName, ← whole]
      · cases found

theorem defaultDeclaration?_eq_some
    (found : defaultDeclaration? name line = some (indentation, declaration)) :
    ∃ keywords, Blank indentation ∧ DefaultKeywords keywords
      ∧ (declaresFunction name declaration = true
        ∨ declaresBy ["class", "const", "let", "var"] name declaration = true)
      ∧ line = indentation ++ keywords ++ declaration := by
  unfold defaultDeclaration? at found
  split at found
  · cases found
  · next rest read =>
    split at found
    · next declares =>
      cases found
      obtain ⟨keywords, isKeywords, split⟩ := defaultKeywords_of_bind read
      refine ⟨keywords, blank_takeWhile line, isKeywords, Bool.or_eq_true_iff.mp declares, ?_⟩
      rw [List.append_assoc, ← split, takeWhile_append_skipIndent]
    · cases found

theorem namedFunction?_eq_some
    (found : namedFunction? name line = some (indentation, declaration)) :
    ∃ keywords, Blank indentation ∧ WordAndGap "export" keywords
      ∧ declaresFunction name declaration = true
      ∧ line = indentation ++ keywords ++ declaration := by
  unfold namedFunction? at found
  split at found
  · cases found
  · next rest read =>
    split at found
    · next declares =>
      cases found
      obtain ⟨keywords, isKeywords, split⟩ := wordAndGap_of_wordThenIndent? read
      refine ⟨keywords, blank_takeWhile line, isKeywords, declares, ?_⟩
      rw [List.append_assoc, ← split, takeWhile_append_skipIndent]
    · cases found

theorem smooth_of_wordAndGap (smooth : Smooth word.toList) (isWord : WordAndGap word text) :
    Smooth text := by
  obtain ⟨gap, -, blank, rfl⟩ := isWord
  exact smooth_append smooth (smooth_of_indent blank)

theorem smooth_of_defaultKeywords (isKeywords : DefaultKeywords text) : Smooth text := by
  obtain ⟨first, second, isFirst, isSecond, rfl⟩ := isKeywords
  exact smooth_append (smooth_of_wordAndGap smooth_export isFirst)
    (smooth_of_wordAndGap smooth_default isSecond)

/-- A default export is no export of a function by its name. -/
theorem namedFunction?_of_defaultKeywords (blank : Blank indentation)
    (isKeywords : DefaultKeywords keywords) (rest : List Char) :
    namedFunction? name (indentation ++ keywords ++ rest) = none := by
  obtain ⟨first, second, ⟨gap, wide, blank', rfl⟩, ⟨gap', -, -, rfl⟩, rfl⟩ := isKeywords
  have read : wordThenIndent? "export" (skipIndent (indentation ++ ("export".toList ++ gap
      ++ ("default".toList ++ gap')) ++ rest)) = some ("default".toList ++ (gap' ++ rest)) := by
    simp only [List.append_assoc]
    rw [skipIndent_append blank (by rfl)]
    exact wordThenIndent?_eq_some.mpr
      ⟨gap, wide, blank', rfl, by simp only [List.append_assoc]⟩
  simp only [namedFunction?, read, declaresFunction_default, Bool.false_eq_true, if_false]

end Recognised

/-! ## Two lines of a text -/

section Lines

variable {lines middle rest before line plain : List Char}

/-- A line of a text is the one that holds a stretch without line feeds, an earlier or a later
one. -/
theorem line_cases (starts : StartsLine lines) (starts' : StartsLine before)
    (plainMiddle : '\n' ∉ middle) (split : lines ++ (middle ++ rest) = before ++ line) :
    (before = lines ∧ line = middle ++ rest)
      ∨ (∃ between, lines = before ++ (between ++ ['\n'])
        ∧ line = between ++ '\n' :: (middle ++ rest))
      ∨ ∃ passed, before = lines ++ (middle ++ (passed ++ ['\n']))
        ∧ rest = passed ++ '\n' :: line := by
  rcases List.append_eq_append_iff.mp split with ⟨further, rfl, isMiddle⟩ | ⟨further, rfl, isLine⟩
  · by_cases none : further = []
    · exact .inl ⟨by simp [none], by simpa [none] using isMiddle.symm⟩
    · obtain ⟨passed, rfl⟩ := exists_of_startsLine_append starts' none
      rw [List.append_assoc, List.singleton_append] at isMiddle
      obtain ⟨passed', rfl, isRest⟩ := exists_of_append_eq plainMiddle isMiddle
      exact .inr (.inr ⟨passed', by simp only [List.append_assoc], isRest⟩)
  · by_cases none : further = []
    · exact .inl ⟨by simp [none], by simpa [none] using isLine⟩
    · obtain ⟨between, rfl⟩ := exists_of_startsLine_append starts none
      exact .inr (.inl ⟨between, rfl, by simpa using isLine⟩)

end Lines

/-! ## Swaps -/

/-- A stretch of a source, the stretch that stands there in the output, and the rule that swapped
them; `kept` is what stands between the swap before it and this one. -/
structure Swap where
  kept : List Char
  removed : List Char
  added : List Char
  rule : Wrap.Rule

/-- The source of swaps, with what stands behind the last one. -/
def Swap.source (swaps : List Swap) (tail : List Char) : List Char :=
  swaps.flatMap (fun swap => swap.kept ++ swap.removed) ++ tail

/-- What swaps make of their source. -/
def Swap.result (swaps : List Swap) (tail : List Char) : List Char :=
  swaps.flatMap (fun swap => swap.kept ++ swap.added) ++ tail

/-- Every swap stands where its rule allows it. -/
def Swap.Placed (glue : Prop) (style : QuoteStyle) (symbol name : String) (swaps : List Swap)
    (tail : List Char) : Prop :=
  ∀ earlier swap later, swaps = earlier ++ swap :: later →
    Allowed glue style symbol name swap.rule (source earlier swap.kept) swap.removed swap.added
      (source later tail)

/-- The line that a rule adds at the end of a text. -/
def exportLine? (style : QuoteStyle) (symbol name : String) : Wrap.Rule → Option (List Char)
  | .defaultDeclaration => some (Snippet.defaultExport style symbol name).toList
  | .namedFunction => some (Snippet.namedExport style symbol name).toList
  | _ => none

section Swaps

variable {style : QuoteStyle} {symbol name : String} {source : List Char} {edited : Edited}

/-- One stretch of a line was swapped. Its line exports no function by its name now, so the edit of
the function is made on another line or not at all. -/
structure Edited.Once (style : QuoteStyle) (symbol name : String) (source : List Char)
    (edited : Edited) (lines kept removed added rest : List Char) (rule : Wrap.Rule) : Prop where
  isSource : source = lines ++ (kept ++ removed ++ rest)
  isText : edited.text = lines ++ (kept ++ added ++ rest)
  starts : StartsLine lines
  plain : '\n' ∉ kept ++ removed
  plain' : '\n' ∉ kept ++ added
  unnamed : namedFunction? name.toList (kept ++ added ++ rest) = none
  allowed :
    Allowed (Glued name.toList source) style symbol name rule (lines ++ kept) removed added rest
  isDefault : rule = .defaultIdentifier ∨ rule = .defaultDeclaration
  rules : edited.rules = [rule]
  appended : edited.appended = (exportLine? style symbol name rule).toList

theorem lineFeed_notMem_call (style : QuoteStyle) (plain : '\n' ∉ symbol.toList)
    (plain' : '\n' ∉ name.toList) :
    '\n' ∉ (Snippet.wrapCall style symbol name name).toList := by
  rw [toList_wrapCall]
  simp [plain, plain', lineFeed_notMem_stringLiteral plain']

/-- The first edit swaps nothing, or the name on the line of a default export of it. -/
theorem once_editReference (style : QuoteStyle) (plain : '\n' ∉ symbol.toList)
    (isName : isComponentName name.toList = true) (source : List Char) :
    editReference style symbol name ⟨source, [], []⟩ = ⟨source, [], []⟩
      ∨ ∃ lines kept removed added rest rule,
        (editReference style symbol name ⟨source, [], []⟩).Once style symbol name source lines kept
          removed added rest rule := by
  unfold editReference
  split
  · exact .inl rfl
  · next before keywords after found =>
    obtain ⟨line, rfl, starts, recognised⟩ := searchLines_eq_some found
    obtain ⟨indentation, words, blank, isWords, rfl, ends, rfl⟩ :=
      defaultReference?_eq_some recognised
    have inKeywords : '\n' ∉ indentation ++ words := lineFeed_notMem_of_smooth
      (smooth_append (smooth_of_indent blank) (smooth_of_defaultKeywords isWords))
    have inName := lineFeed_notMem_of_smooth (smooth_of_isComponentName isName)
    have inCall := lineFeed_notMem_call style plain inName
    refine .inr ⟨before, indentation ++ words, name.toList,
      (Snippet.wrapCall style symbol name name).toList, after, .defaultIdentifier, ?_⟩
    exact {
      isSource := by simp only [List.append_assoc]
      isText := by simp only [List.append_assoc]
      starts
      plain := fun member => (List.mem_append.mp member).elim inKeywords inName
      plain' := fun member => (List.mem_append.mp member).elim inKeywords inCall
      unnamed := by
        rw [List.append_assoc (indentation ++ words)]
        exact namedFunction?_of_defaultKeywords blank isWords _
      allowed := by
        rw [show before ++ (indentation ++ words) = before ++ indentation ++ words from
          (List.append_assoc ..).symm]
        exact .reference starts blank isWords ends
      isDefault := .inl rfl
      rules := rfl
      appended := rfl }

/-- The second edit swaps nothing, or the keywords in front of a default export that declares the
name. -/
theorem once_editDefault (style : QuoteStyle) (symbol name : String) (source : List Char) :
    editDefault style symbol name ⟨source, [], []⟩ = ⟨source, [], []⟩
      ∨ ∃ lines kept removed added rest rule,
        (editDefault style symbol name ⟨source, [], []⟩).Once style symbol name source lines kept
          removed added rest rule := by
  unfold editDefault
  split
  · exact .inl rfl
  · split
    · exact .inl rfl
    · next before indentation declaration found =>
      obtain ⟨line, isLine, starts, recognised⟩ := searchLines_eq_some found
      obtain rfl : source = before ++ line := isLine
      have inert := (demotes_of_defaultDeclaration? recognised).inert
      obtain ⟨keywords, blank, isKeywords, declares, rfl⟩ := defaultDeclaration?_eq_some recognised
      have inside : declaration <:+: before ++ (indentation ++ keywords ++ declaration) :=
        (((List.suffix_append _ _).trans (List.suffix_append _ _))).isInfix
      refine .inr ⟨before, indentation, keywords, [], declaration, .defaultDeclaration, ?_⟩
      exact {
        isSource := rfl
        isText := by simp only [List.append_assoc, List.append_nil]
        starts
        plain := lineFeed_notMem_of_smooth
          (smooth_append (smooth_of_indent blank) (smooth_of_defaultKeywords isKeywords))
        plain' := by
          rw [List.append_nil]
          exact lineFeed_notMem_of_smooth (smooth_of_indent blank)
        unnamed := by
          rw [List.append_nil]
          exact inert.namedFunction?
        allowed := .declaration starts blank isKeywords
          (declares.imp (declaresFunction_of_eq_true inside) declaresOther_of_eq_true)
        isDefault := .inr rfl
        rules := rfl
        appended := rfl }

/-- What the edits of a text have done: swaps of its stretches, listed by their rules, and the lines
those rules add. -/
structure Edited.Follows (style : QuoteStyle) (symbol name : String) (source : List Char)
    (edited : Edited) (swaps : List Swap) (tail : List Char) : Prop where
  isSource : source = Swap.source swaps tail
  isText : edited.text = Swap.result swaps tail
  placed : Swap.Placed (Glued name.toList source) style symbol name swaps tail
  listed : edited.rules.Perm (swaps.map Swap.rule)
  ordered : edited.rules ∈ [[], [.defaultIdentifier], [.defaultDeclaration], [.namedFunction],
    [.defaultIdentifier, .namedFunction], [.defaultDeclaration, .namedFunction]]
  appended : edited.appended = edited.rules.filterMap (exportLine? style symbol name)

theorem placed_single {glue : Prop} {swap : Swap} {tail : List Char}
    (allowed : Allowed glue style symbol name swap.rule swap.kept swap.removed swap.added tail) :
    Swap.Placed glue style symbol name [swap] tail := by
  intro earlier other later split
  cases earlier with
  | nil =>
    obtain ⟨rfl, rfl⟩ := List.cons.inj split
    exact allowed
  | cons first earlier => simp at split

theorem follows_nothing (source : List Char) :
    Edited.Follows style symbol name source ⟨source, [], []⟩ [] source where
  isSource := rfl
  isText := rfl
  placed earlier swap later split := by simp at split
  listed := .refl _
  ordered := List.mem_cons_self
  appended := rfl

theorem Edited.Once.follows {lines kept removed added rest : List Char} {rule : Wrap.Rule}
    (once : edited.Once style symbol name source lines kept removed added rest rule) :
    edited.Follows style symbol name source [⟨lines ++ kept, removed, added, rule⟩] rest where
  isSource := by simp [Swap.source, once.isSource]
  isText := by simp [Swap.result, once.isText]
  placed := placed_single once.allowed
  listed := by rw [once.rules]; exact .refl _
  ordered := by
    rw [once.rules]
    rcases once.isDefault with rfl | rfl <;> decide
  appended := by
    rw [once.rules, once.appended]
    cases added : exportLine? style symbol name rule <;> simp [added]

theorem placed_pair {glue : Prop} {first second : Swap} {tail : List Char}
    (atFirst : Allowed glue style symbol name first.rule first.kept first.removed first.added
      (second.kept ++ second.removed ++ tail))
    (atSecond : Allowed glue style symbol name second.rule
      (first.kept ++ first.removed ++ second.kept) second.removed second.added tail) :
    Swap.Placed glue style symbol name [first, second] tail := by
  intro earlier swap later split
  match earlier with
  | [] =>
    obtain ⟨rfl, rfl⟩ := List.cons.inj split
    simpa [Swap.source] using atFirst
  | [only] =>
    simp only [List.cons_append, List.nil_append, List.cons.injEq] at split
    obtain ⟨rfl, rfl, rfl⟩ := split
    simpa [Swap.source] using atSecond
  | _ :: _ :: _ => simp at split

/-- Whether a function is declared can be told from the line it is declared on. -/
theorem declaresFunction_lineFeed {name : List Char} (smooth : Smooth name)
    (line text other : List Char) :
    declaresFunction name (line ++ '\n' :: text)
      = declaresFunction name (line ++ '\n' :: other) := by
  rw [← declaresFunction_front smooth, front_append_stop rfl, ← declaresFunction_front smooth
    (line ++ '\n' :: other), front_append_stop rfl]

/-- What the last edit adds to what was done before it. -/
def Edited.andFunction (style : QuoteStyle) (symbol name : String) (edited : Edited)
    (text : List Char) : Edited :=
  { text
    rules := edited.rules ++ [.namedFunction]
    appended := edited.appended ++ [(Snippet.namedExport style symbol name).toList] }

/-- An edit and the one of the function are two swaps, whichever comes first. Both are made on whole
lines, so the two stretches do not meet. -/
theorem Edited.Once.follows_andFunction {lines kept removed added rest text tail : List Char}
    {rule : Wrap.Rule} {first second : Swap}
    (once : edited.Once style symbol name source lines kept removed added rest rule)
    (isSource : source = Swap.source [first, second] tail)
    (isText : text = Swap.result [first, second] tail)
    (placed : Swap.Placed (Glued name.toList source) style symbol name [first, second] tail)
    (listed : [rule, .namedFunction].Perm [first.rule, second.rule]) :
    (edited.andFunction style symbol name text).Follows style symbol name source [first, second]
      tail where
  isSource
  isText
  placed
  listed := by
    rw [Edited.andFunction, once.rules]
    exact listed
  ordered := by
    simp only [Edited.andFunction, once.rules]
    rcases once.isDefault with rfl | rfl <;> decide
  appended := by
    have last : exportLine? style symbol name .namedFunction
        = some (Snippet.namedExport style symbol name).toList := rfl
    rw [Edited.andFunction, once.rules, once.appended]
    cases added : exportLine? style symbol name rule <;> simp [added, last]

/-- The function is declared on a line in front of the first edit. -/
theorem Edited.Once.follows_before
    {before indentation keywords passed kept removed added rest : List Char} {rule : Wrap.Rule}
    (smooth : Smooth name.toList)
    (once : edited.Once style symbol name source
      (before ++ (indentation ++ keywords ++ passed ++ ['\n'])) kept removed added rest rule)
    (starts : StartsLine before) (blank : Blank indentation)
    (isKeywords : WordAndGap "export" keywords)
    (declares : declaresFunction name.toList (passed ++ '\n' :: (kept ++ added ++ rest)) = true) :
    ∃ swaps tail, (edited.andFunction style symbol name
      (before ++ indentation ++ (passed ++ '\n' :: (kept ++ added ++ rest)))).Follows style symbol
        name source swaps tail := by
  have isSource := once.isSource
  have allowed := once.allowed
  -- the line ends before the edit, so the function is declared on it in the source too
  rw [declaresFunction_lineFeed smooth _ _ (kept ++ removed ++ rest)] at declares
  refine ⟨[⟨before ++ indentation, keywords, [], .namedFunction⟩,
    ⟨passed ++ '\n' :: kept, removed, added, rule⟩], rest,
    once.follows_andFunction ?_ ?_ (placed_pair ?_ ?_) (.swap _ _ _)⟩
  · simp [Swap.source, isSource]
  · simp [Swap.result]
  · refine .function starts blank isKeywords (declaresFunction_of_eq_true ?_ ?_)
    · rw [isSource]
      exact ⟨before ++ indentation ++ keywords, [], by simp⟩
    · simpa using declares
  · simpa using allowed

/-- The function is declared on a line behind the first edit. -/
theorem Edited.Once.follows_behind
    {lines kept removed added passed indentation keywords declaration : List Char}
    {rule : Wrap.Rule}
    (once : edited.Once style symbol name source lines kept removed added
      (passed ++ '\n' :: (indentation ++ keywords ++ declaration)) rule)
    (blank : Blank indentation) (isKeywords : WordAndGap "export" keywords)
    (declares : declaresFunction name.toList declaration = true) :
    ∃ swaps tail, (edited.andFunction style symbol name
      (lines ++ (kept ++ added ++ (passed ++ ['\n'])) ++ indentation ++ declaration)).Follows style
        symbol name source swaps tail := by
  have isSource := once.isSource
  have allowed := once.allowed
  have starts : StartsLine (lines ++ (kept ++ removed ++ (passed ++ ['\n']))) := .inr (by simp)
  have inside : declaration <:+: source := by
    rw [isSource]
    exact ⟨lines ++ (kept ++ removed ++ (passed ++ ['\n'])) ++ (indentation ++ keywords), [],
      by simp⟩
  have second : Allowed (Glued name.toList source) style symbol name .namedFunction
      (lines ++ (kept ++ removed ++ (passed ++ ['\n'])) ++ indentation) keywords [] declaration :=
    .function starts blank isKeywords (declaresFunction_of_eq_true inside declares)
  refine ⟨[⟨lines ++ kept, removed, added, rule⟩,
    ⟨passed ++ '\n' :: indentation, keywords, [], .namedFunction⟩], declaration,
    once.follows_andFunction ?_ ?_ (placed_pair ?_ ?_) (.refl _)⟩
  · simp [Swap.source, isSource]
  · simp [Swap.result]
  · simpa using allowed
  · simpa using second

/-- The last edit swaps nothing more, or the keyword in front of an exported function on another
line than that of the first edit. -/
theorem Edited.Once.follows_editFunction {lines kept removed added rest : List Char}
    {rule : Wrap.Rule} (isName : isComponentName name.toList = true)
    (once : edited.Once style symbol name source lines kept removed added rest rule) :
    ∃ swaps tail,
      (editFunction style symbol name edited).Follows style symbol name source swaps tail := by
  unfold editFunction
  split
  · exact ⟨_, _, once.follows⟩
  · split
    · exact ⟨_, _, once.follows⟩
    · next before indentation declaration found =>
      obtain ⟨line, isLine, starts, recognised⟩ := searchLines_eq_some found
      obtain ⟨keywords, blank, isKeywords, declares, split⟩ := namedFunction?_eq_some recognised
      have plain : '\n' ∉ indentation ++ keywords := lineFeed_notMem_of_smooth
        (smooth_append (smooth_of_indent blank) (smooth_of_wordAndGap smooth_export isKeywords))
      rcases line_cases once.starts starts once.plain' (once.isText.symm.trans isLine) with
        ⟨rfl, rfl⟩ | ⟨between, isBefore, isEarlier⟩ | ⟨passed, rfl, rfl⟩
      · -- the line of the first edit exports no function by its name
        rw [once.unnamed] at recognised
        cases recognised
      · rw [split] at isEarlier
        obtain ⟨passed, rfl, rfl⟩ := exists_of_append_eq plain isEarlier
        subst isBefore
        exact once.follows_before (smooth_of_isComponentName isName) starts blank isKeywords
          declares
      · subst split
        exact once.follows_behind blank isKeywords declares

/-- In a text without an edit the last edit swaps nothing, or the keyword in front of an exported
function. -/
theorem follows_editFunction_of_nothing (source : List Char) :
    ∃ swaps tail, (editFunction style symbol name ⟨source, [], []⟩).Follows style symbol name source
      swaps tail := by
  unfold editFunction
  split
  · exact ⟨_, _, follows_nothing source⟩
  · split
    · exact ⟨_, _, follows_nothing source⟩
    · next before indentation declaration found =>
      obtain ⟨line, isLine, starts, recognised⟩ := searchLines_eq_some found
      obtain rfl : source = before ++ line := isLine
      obtain ⟨keywords, blank, isKeywords, declares, rfl⟩ := namedFunction?_eq_some recognised
      refine ⟨[⟨before ++ indentation, keywords, [], .namedFunction⟩], declaration, ?_, ?_,
        placed_single ?_, .refl _, ?_, rfl⟩
      · simp [Swap.source]
      · simp [Swap.result]
      · exact .function starts blank isKeywords (declaresFunction_of_eq_true
          ((List.suffix_append _ _).trans (List.suffix_append _ _)).isInfix declares)
      · simp

/-- All edits of a text are swaps of stretches of it. There are two at most: one of a
default export, by either of two rules, and one of a function. -/
theorem follows_edit (style : QuoteStyle) (plain : '\n' ∉ symbol.toList)
    (isName : isComponentName name.toList = true) (source : List Char) :
    ∃ swaps tail, (edit style symbol name source).Follows style symbol name source swaps tail := by
  unfold edit
  rcases once_editReference style plain isName source with
    same | ⟨lines, kept, removed, added, rest, rule, once⟩
  · rw [same]
    rcases once_editDefault style symbol name source with
      same' | ⟨lines, kept, removed, added, rest, rule, once⟩
    · rw [same']
      exact follows_editFunction_of_nothing source
    · exact once.follows_editFunction isName
  · have guarded : editDefault style symbol name (editReference style symbol name ⟨source, [], []⟩)
        = editReference style symbol name ⟨source, [], []⟩ := by
      rw [editDefault, if_pos (by rw [once.rules]; rfl)]
    rw [guarded]
    exact once.follows_editFunction isName

end Swaps

/-! ## The output -/

/-- A text with lines added at its end, each with a line break; the text is ended first if its last
line is open. -/
def extended (newline text : List Char) (lines : List (List Char)) : List Char :=
  text
    ++ (if lines ≠ [] ∧ text ≠ [] ∧ text.getLast? ≠ some '\n' ∧ text.getLast? ≠ some '\r'
      then newline else [])
    ++ lines.flatMap (· ++ newline)

/-- A text is another one with at most an import put in somewhere, the statement and one line
break. -/
def Imports (newline statement text output : List Char) : Prop :=
  output = text ∨ ∃ front back, text = front ++ back
    ∧ (output = front ++ newline ++ statement ++ back
      ∨ output = front ++ statement ++ newline ++ back)

/-- An output is a source with at most two stretches swapped, where and as the listed rules say,
lines added at the end and an import put in. -/
def Conserves (glue : Prop) (style : QuoteStyle) (text name : String) (target : ImportTarget)
    (output : String) (rules : List Wrap.Rule) : Prop :=
  ∃ swaps tail, text.toList = Swap.source swaps tail
    ∧ Swap.Placed glue style target.symbol name swaps tail
    ∧ rules.Perm (swaps.map Swap.rule)
    ∧ rules ∈ [[.defaultIdentifier], [.defaultDeclaration], [.namedFunction],
      [.defaultIdentifier, .namedFunction], [.defaultDeclaration, .namedFunction]]
    ∧ Imports (Snippet.newlineFor text).toList
      (Snippet.importStatement style target.symbol target.module).toList
      (extended (Snippet.newlineFor text).toList (Swap.result swaps tail)
        (rules.filterMap (exportLine? style target.symbol name))) output.toList

section Output

variable {style : QuoteStyle} {text name output : String} {target : ImportTarget}
  {rules : List Wrap.Rule}

theorem withAppended_eq (newline : List Char) (edited : Edited) :
    withAppended newline edited = extended newline edited.text edited.appended := by
  unfold withAppended extended
  split
  · next none => simp [List.isEmpty_iff.mp none]
  · next some =>
    have added : edited.appended ≠ [] := by simpa using some
    dsimp only
    congr 2
    cases last : edited.text.getLast? with
    | none => simp [List.getLast?_eq_none_iff.mp last]
    | some c =>
      have nonempty : edited.text ≠ [] := by
        rintro none
        simp [none] at last
      simp [added, nonempty]

theorem imports_ensureImport (text symbol statement newline : List Char) :
    Imports newline statement text (ensureImport text symbol statement newline) := by
  unfold ensureImport
  dsimp only
  split
  · exact .inl rfl
  · split
    · next stop _ =>
      exact .inr ⟨text.take stop, text.drop stop, (List.take_append_drop ..).symm, .inl rfl⟩
    · exact .inr ⟨_, _, (List.take_append_drop ..).symm, .inr rfl⟩

theorem rules_of_transform (answer : transform style text name target = .wrapped output rules) :
    rules = (edit style target.symbol name text.toList).rules ∧ rules ≠ [] := by
  unfold transform at answer
  split at answer
  · cases answer
  · dsimp only at answer
    split at answer
    · cases answer
    · next ruled =>
      split at answer
      · cases answer
      · cases answer
        exact ⟨rfl, by simpa using ruled⟩

/-- Wrapping a text without a tree leaves it alone, or swaps at most one stretch for a
default export and one for a function, adds the lines of the rules that did and puts an import in.
Keyword and name of a function stand apart, unless the text has them glued together somewhere. -/
theorem transform_keeps_rest (style : QuoteStyle) (text name : String) (target : ImportTarget)
    (plain : '\n' ∉ target.symbol.toList) :
    (∃ reason, transform style text name target = .untouched reason)
      ∨ ∃ output rules, transform style text name target = .wrapped output rules
        ∧ Conserves (Glued name.toList text.toList) style text name target output rules := by
  cases answer : transform style text name target with
  | untouched reason => exact .inl ⟨reason, rfl⟩
  | wrapped output rules =>
    obtain ⟨isName, isOutput⟩ := transform_eq_wrapped answer
    obtain ⟨rfl, ruled⟩ := rules_of_transform answer
    obtain ⟨swaps, tail, follows⟩ := follows_edit style plain isName text.toList
    refine .inr ⟨output, _, rfl, swaps, tail, follows.isSource, follows.placed, follows.listed, ?_,
      ?_⟩
    · exact (List.mem_cons.mp follows.ordered).resolve_left ruled
    · rw [isOutput, ← follows.isText, ← follows.appended, ← withAppended_eq]
      exact imports_ensureImport _ _ _ _

/-- A call, and a function that is exported by default. -/
def trailingDefault : String :=
  "f();\nexport default function A() \x7b\x7d"

/-- A default export and its function are told apart from the rest of the text. -/
theorem transform_keeps_rest_default :
    '\n' ∉ "w".toList
      ∧ ∃ output rules,
        transform .single trailingDefault "A" ⟨"w", "m"⟩ = .wrapped output rules
          ∧ Conserves (Glued "A".toList trailingDefault.toList) .single trailingDefault "A"
            ⟨"w", "m"⟩ output rules := by
  have plain : '\n' ∉ "w".toList := by decide
  refine ⟨plain, ?_⟩
  rcases transform_keeps_rest .single trailingDefault "A" ⟨"w", "m"⟩ plain with
    ⟨reason, untouched⟩ | conserved
  · have answer : transform .single trailingDefault "A" ⟨"w", "m"⟩
        = .wrapped
          "import \x7b w \x7d from 'm';\nf();\nfunction A() \x7b\x7d\nexport default w(A, 'A');\n"
          [.defaultDeclaration] := by decide +kernel
    rw [answer] at untouched
    cases untouched
  · exact conserved

/-- An identifier that merely begins with the keyword, exported by default. -/
def gluedText : String :=
  "export default functionA\n"

/-- The letters of the keyword occur once in it, with the name right behind them. -/
theorem eq_of_gluedText_eq {front back : List Char}
    (split : gluedText.toList = front ++ ("function".toList ++ back)) : back = ['A', '\n'] := by
  have once : ∀ k ≤ 17, (gluedText.toList.drop k).take 8 = "function".toList →
      gluedText.toList.drop (k + 8) = ['A', '\n'] := by decide +kernel
  have size : gluedText.toList.length = 25 := by decide +kernel
  have keyword : "function".toList.length = 8 := by decide
  have short : front.length ≤ 17 := by
    rw [split, List.length_append, List.length_append, keyword] at size
    omega
  have cut : gluedText.toList.drop front.length = "function".toList ++ back := by
    rw [split, List.drop_left]
  have ends := once front.length short (by rw [cut]; rfl)
  rwa [← List.drop_drop, cut] at ends

/-- An identifier that merely begins with the keyword is taken for the declaration of a function. -/
theorem transform_takes_glued :
    ¬ ∀ (style : QuoteStyle) (text name : String) (target : ImportTarget),
      '\n' ∉ target.symbol.toList →
      (∃ reason, transform style text name target = .untouched reason)
        ∨ ∃ output rules, transform style text name target = .wrapped output rules
          ∧ Conserves False style text name target output rules := by
  intro conserves
  have answer : transform .single gluedText "A" ⟨"w", "m"⟩
      = .wrapped "import \x7b w \x7d from 'm';\nfunctionA\nexport default w(A, 'A');\n"
        [.defaultDeclaration] := by decide +kernel
  rcases conserves .single gluedText "A" ⟨"w", "m"⟩ (by decide) with
    ⟨reason, untouched⟩ | ⟨output, rules, same, swaps, tail, isSource, placed, listed, -⟩
  · rw [answer] at untouched
    cases untouched
  · obtain ⟨-, rfl⟩ := WrapResult.wrapped.inj (answer.symm.trans same)
    obtain ⟨swap, rfl, isRule⟩ := List.map_eq_singleton_iff.mp (List.singleton_perm.mp listed).symm
    obtain ⟨kept, removed, added, rule⟩ := swap
    have allowed : Allowed False .single "w" "A" rule kept removed added tail := placed [] _ [] rfl
    obtain rfl : rule = .defaultDeclaration := isRule
    have read : gluedText.toList = kept ++ removed ++ tail := by
      simpa [Swap.source] using isSource
    cases allowed with
    | @declaration lines indentation _ _ starts blank isKeywords declares =>
      rcases declares with ⟨async, spacing, rest, -, isSpacing, apart, rfl, -⟩
        | ⟨keyword, listed, words, rest, ⟨gap, -, -, rfl⟩, rfl, -⟩
      · have split : gluedText.toList = (lines ++ indentation ++ removed ++ async)
            ++ ("function".toList ++ (spacing ++ ("A".toList ++ rest))) := by
          rw [read]
          simp only [List.append_assoc]
        have follows := eq_of_gluedText_eq split
        cases spacing with
        | nil => simp at apart
        | cons c spacing =>
          rw [List.cons_append, List.cons.injEq] at follows
          rcases blank_or_star_of_spacing isSpacing List.mem_cons_self with isBlank | isStar
          · rw [follows.1] at isBlank
            cases isBlank
          · rw [follows.1] at isStar
            cases isStar
      · have absent : ∀ keyword ∈ ["class", "const", "let", "var"],
            ¬ keyword.toList <:+: gluedText.toList := by decide +kernel
        refine absent keyword listed ⟨lines ++ indentation ++ removed, gap ++ "A".toList ++ rest,
          ?_⟩
        rw [read]
        simp only [List.append_assoc]

end Output

end RenderProbe.Fallback
