import RenderProbe.Proofs.Fallback.ImportStatement
import RenderProbe.Proofs.Text.Case

/-!
# Whether the wrapper is bound

The fallback puts no import in where the clause of one names the wrapper, as a word. A clause may
name what it does not bind: the exported name of a renamed specifier, a type, a word of a comment.
Apart from such clauses, and from imports that are not finished, the wrapper is bound after a wrap.

* `ValueBinds`: a clause binds a name to a value, by its tokens.
* `clauseBinds_of_valueBinds`: a name that is bound is found as a word.
* `transform_binds_wrapper`: a wrap puts the import in, or an import of the source binds the
  wrapper.
-/

namespace RenderProbe.Fallback

open Text

/-! ## Tokens of a clause -/

/-- A character that may stand in a name. -/
def isNamePart (c : Char) : Bool :=
  isWordChar c || isIdentifierPart c || c == '$'

/-- Where a place of a clause is: in the code or in a comment. Words of comments are no tokens,
although a search for a word finds them. -/
inductive Region where
  | code
  | lineComment
  | blockComment
  deriving DecidableEq

/-- Put a character in front of the first token. -/
def growFirst (c : Char) : List (List Char) → List (List Char)
  | [] => [[c]]
  | token :: rest => (c :: token) :: rest

/-- The tokens of a text: names and single marks, without blanks and comments. -/
def tokensFrom : Region → List Char → List (List Char)
  | _, [] => []
  | .code, '/' :: '/' :: rest => tokensFrom .lineComment rest
  | .code, '/' :: '*' :: rest => tokensFrom .blockComment rest
  | .blockComment, '*' :: '/' :: rest => tokensFrom .code rest
  | .code, c :: rest =>
    if isNamePart c then
      if rest.head?.any isNamePart then growFirst c (tokensFrom .code rest)
      else [c] :: tokensFrom .code rest
    else if isBlank c then tokensFrom .code rest
    else [c] :: tokensFrom .code rest
  | .lineComment, c :: rest =>
    tokensFrom (if c == '\n' || c == '\r' then .code else .lineComment) rest
  | .blockComment, _ :: rest => tokensFrom .blockComment rest

/-- The name that a specifier binds: its own, or the one it is renamed to. A type has a word in
front. -/
def specifierName : List (List Char) → List (List Char)
  | [name] => [name]
  | [_, word, renamed] => if word = "as".toList then [renamed] else []
  | _ => []

/-- The names that specifiers up to the closing brace bind; `read` is the specifier read so far. -/
def specifierNames (read : List (List Char)) : List (List Char) → List (List Char)
  | [] => []
  | token :: rest =>
    if token = ['\x7d'] then specifierName read
    else if token = [','] then specifierName read ++ specifierNames [] rest
    else specifierNames (read ++ [token]) rest

/-- The names that a clause binds: those of its default import, its namespace and its specifiers. -/
def boundNames : List (List Char) → List (List Char)
  | [] => []
  | [name] => [name]
  | first :: second :: rest =>
    if first = ['*'] then if second = "as".toList then rest.take 1 else []
    else if first = ['\x7b'] then specifierNames [] (second :: rest)
    else if second = [','] then first :: boundNames rest
    else []

/-- A clause that imports types only: the word for it, and no comma behind it. -/
def isTypeOnly : List (List Char) → Bool
  | word :: next :: _ => word == "type".toList && next != [',']
  | _ => false

/-- A clause binds a name to a value. -/
def ValueBinds (name clause : List Char) : Prop :=
  ∃ tokens, tokensFrom .code clause = tokens ++ ["from".toList] ∧ isTypeOnly tokens = false
    ∧ name ∈ boundNames tokens

theorem valueBinds_iff {name clause : List Char} : ValueBinds name clause ↔
    (tokensFrom .code clause).getLast? = some "from".toList
      ∧ isTypeOnly (tokensFrom .code clause).dropLast = false
      ∧ name ∈ boundNames (tokensFrom .code clause).dropLast := by
  constructor
  · rintro ⟨tokens, split, untyped, bound⟩
    rw [split, List.dropLast_concat]
    exact ⟨List.getLast?_concat .., untyped, bound⟩
  · rintro ⟨last, untyped, bound⟩
    obtain ⟨tokens, split⟩ := List.getLast?_eq_some_iff.mp last
    rw [split, List.dropLast_concat] at untyped bound
    exact ⟨tokens, split, untyped, bound⟩

instance (name clause : List Char) : Decidable (ValueBinds name clause) :=
  decidable_of_iff _ valueBinds_iff.symm

example : boundNames (tokensFrom .code " w, \x7b a as b, type c, d /* e */ \x7d ".toList)
    = ["w".toList, "b".toList, "d".toList] := by decide +kernel

section Tokens

variable {text rest word name clause : List Char} {c : Char} {tokens read : List (List Char)}

theorem isNamePart_slash : isNamePart '/' = false := by decide

theorem tokensFrom_name (isName : isNamePart c = true) (rest : List Char) :
    tokensFrom .code (c :: rest) =
      if rest.head?.any isNamePart then growFirst c (tokensFrom .code rest)
      else [c] :: tokensFrom .code rest := by
  have other : c ≠ '/' := by
    rintro rfl
    simp [isNamePart_slash] at isName
  rw [tokensFrom, if_pos isName]
  · exact fun _ same _ => other same
  · exact fun _ same _ => other same

/-- A name in the code is one token. -/
theorem tokensFrom_word (nonempty : word ≠ []) (isWord : ∀ c ∈ word, isNamePart c = true)
    (ends : rest.head?.any isNamePart = false) :
    tokensFrom .code (word ++ rest) = word :: tokensFrom .code rest := by
  induction word with
  | nil => exact absurd rfl nonempty
  | cons c word ih =>
    rw [List.cons_append, tokensFrom_name (isWord c List.mem_cons_self)]
    cases word with
    | nil => rw [List.nil_append, ends]; rfl
    | cons d word =>
      have isPart : isNamePart d = true := isWord d (List.mem_cons_of_mem _ List.mem_cons_self)
      rw [ih (by simp) fun e later => isWord e (List.mem_cons_of_mem _ later)]
      simp [isPart, growFirst]

/-- The name stands here and there, and nothing around it belongs to a name. -/
def StandsIn (name text : List Char) (before after : List Char) : Prop :=
  text = before ++ (name ++ after) ∧ before.getLast?.any isNamePart = false
    ∧ after.head?.any isNamePart = false

/-- Something in front of the text that ends no name. -/
theorem StandsIn.prepend {before after : List Char} (stands : StandsIn name text before after)
    (passed : List Char) (apart : before = [] → passed.getLast?.any isNamePart = false) :
    StandsIn name (passed ++ text) (passed ++ before) after := by
  obtain ⟨rfl, starts, ends⟩ := stands
  refine ⟨(List.append_assoc ..).symm, ?_, ends⟩
  cases before with
  | nil => simpa using apart rfl
  | cons c before => rwa [List.getLast?_append_of_ne_nil _ (by simp)]

/-- What tokens are read from: characters that are passed, up to the end of a name, and what
follows. -/
structure Passes (region : Region) (text : List Char) (next : Region)
    (passed rest : List Char) : Prop where
  split : text = passed ++ rest
  some : passed ≠ []
  apart : next = .code → rest.head?.any isNamePart = true → passed.getLast?.any isNamePart = false

/-- The first token is a whole name, or a name among the tokens comes later. -/
theorem passes_of_mem_tokensFrom {region : Region} (member : name ∈ tokensFrom region text)
    (isName : ∀ c ∈ name, isNamePart c = true) :
    (∃ rest, region = .code ∧ text = name ++ rest ∧ rest.head?.any isNamePart = false)
      ∨ ∃ next passed rest, Passes region text next passed rest ∧ name ∈ tokensFrom next rest := by
  by_cases inName : region = .code ∧ text.head?.any isNamePart = true
  · obtain ⟨rfl, starts⟩ := inName
    have split : text = text.takeWhile isNamePart ++ text.dropWhile isNamePart :=
      List.takeWhile_append_dropWhile.symm
    have isWord : ∀ c ∈ text.takeWhile isNamePart, isNamePart c = true :=
      fun c member => List.mem_takeWhile_imp member
    have some : text.takeWhile isNamePart ≠ [] := by
      cases text with
      | nil => cases starts
      | cons c rest =>
        have isPart : isNamePart c = true := by simpa using starts
        simp [isPart]
    have ends : (text.dropWhile isNamePart).head?.any isNamePart = false := by
      have first := List.head?_dropWhile_not isNamePart text
      cases found : (text.dropWhile isNamePart).head? with
      | none => rfl
      | some c => simpa [found] using first
    rw [split, tokensFrom_word some isWord ends] at member
    rcases List.mem_cons.mp member with rfl | later
    · exact .inl ⟨_, rfl, split, ends⟩
    · refine .inr ⟨_, _, _, ⟨split, some, fun _ isPart => ?_⟩, later⟩
      rw [ends] at isPart
      cases isPart
  · unfold tokensFrom at member
    split at member
    · cases member
    · next rest => exact .inr ⟨_, ['/', '/'], rest, ⟨rfl, by simp, fun _ _ => rfl⟩, member⟩
    · next rest => exact .inr ⟨_, ['/', '*'], rest, ⟨rfl, by simp, fun _ _ => rfl⟩, member⟩
    · next rest => exact .inr ⟨_, ['*', '/'], rest, ⟨rfl, by simp, fun _ _ => rfl⟩, member⟩
    · next c rest _ _ =>
      have other : isNamePart c = false := by simpa using inName
      have passes : Passes .code (c :: rest) .code [c] rest :=
        ⟨rfl, by simp, fun _ _ => by simpa using other⟩
      rw [if_neg (by simp [other])] at member
      split at member
      · exact .inr ⟨_, _, _, passes, member⟩
      · rcases List.mem_cons.mp member with rfl | later
        · simp [isName c List.mem_cons_self] at other
        · exact .inr ⟨_, _, _, passes, later⟩
    · next c rest =>
      refine .inr ⟨_, [c], rest, ⟨rfl, by simp, fun isCode _ => ?_⟩, member⟩
      split at isCode
      · next isBreak =>
        simp only [Bool.or_eq_true, beq_iff_eq] at isBreak
        rcases isBreak with rfl | rfl <;> rfl
      · cases isCode
    · next c rest _ =>
      exact .inr ⟨_, [c], rest, ⟨rfl, by simp, fun isCode _ => by cases isCode⟩, member⟩

/-- A token that is a name stands in the text; outside the code it does not come first. -/
theorem exists_of_mem_tokensFrom {region : Region} (member : name ∈ tokensFrom region text)
    (nonempty : name ≠ []) (isName : ∀ c ∈ name, isNamePart c = true) :
    ∃ before after, StandsIn name text before after ∧ (region = .code ∨ before ≠ []) := by
  induction size : text.length using Nat.strong_induction_on generalizing text region with
  | _ _ ih =>
    rcases passes_of_mem_tokensFrom member isName with
      ⟨rest, isCode, split, ends⟩ | ⟨next, passed, rest, passes, later⟩
    · exact ⟨[], rest, ⟨split, rfl, ends⟩, .inl isCode⟩
    · have shorter : rest.length < text.length := by
        have positive := List.length_pos_iff.mpr passes.some
        rw [passes.split, List.length_append]
        omega
      obtain ⟨before, after, stands, place⟩ := ih _ (size ▸ shorter) later rfl
      refine ⟨passed ++ before, after, passes.split ▸ stands.prepend passed fun none => ?_,
        .inr (by simp [passes.some])⟩
      refine passes.apart (place.resolve_right fun other => other none) ?_
      obtain ⟨c, letters, rfl⟩ := List.exists_cons_of_ne_nil nonempty
      simpa [stands.1, none] using isName c List.mem_cons_self

/-! ### Bound names -/

theorem mem_of_mem_specifierName (member : name ∈ specifierName tokens) : name ∈ tokens := by
  unfold specifierName at member
  split at member
  · exact member
  · split at member
    · simp [List.mem_singleton.mp member]
    · cases member
  · cases member

theorem mem_of_mem_specifierNames (member : name ∈ specifierNames read tokens) :
    name ∈ read ∨ name ∈ tokens := by
  induction tokens generalizing read with
  | nil => cases member
  | cons token rest ih =>
    rw [specifierNames] at member
    split at member
    · exact .inl (mem_of_mem_specifierName member)
    · split at member
      · rcases List.mem_append.mp member with first | later
        · exact .inl (mem_of_mem_specifierName first)
        · exact .inr (List.mem_cons_of_mem _ ((ih later).resolve_left (by simp)))
      · rcases ih member with inRead | later
        · rcases List.mem_append.mp inRead with earlier | here
          · exact .inl earlier
          · exact .inr (by simp [List.mem_singleton.mp here])
        · exact .inr (List.mem_cons_of_mem _ later)

/-- A clause names what it binds. -/
theorem mem_of_mem_boundNames (member : name ∈ boundNames tokens) : name ∈ tokens := by
  fun_induction boundNames tokens with
  | case1 => cases member
  | case2 only => exact member
  | case3 rest => simp [List.mem_of_mem_take member]
  | case4 => cases member
  | case5 =>
    exact List.mem_cons_of_mem _ ((mem_of_mem_specifierNames member).resolve_left (by simp))
  | case6 first rest _ _ ih =>
    rcases List.mem_cons.mp member with rfl | later
    · exact List.mem_cons_self
    · exact List.mem_cons_of_mem _ (List.mem_cons_of_mem _ (ih later))
  | case7 => cases member

end Tokens

/-! ## Words of a clause -/

section Words

variable {text before after name clause : List Char}

theorem isNamePart_eq_false {c : Char} (other : isNamePart c = false) : isWordChar c = false := by
  simp only [isNamePart, Bool.or_eq_false_iff] at other
  exact other.1.1

theorem any_isWordChar_eq_false {c : Option Char} (other : c.any isNamePart = false) :
    c.any isWordChar = false := by
  cases c with
  | none => rfl
  | some c => exact isNamePart_eq_false other

theorem isWordChar_of_mem_blankCodes :
    ∀ code ∈ blankCodes, isWordChar (Char.ofNat code) = false := by
  decide +kernel

theorem isBlank_eq_false {c : Char} (isWord : isWordChar c = true) : isBlank c = false := by
  cases blank : isBlank c with
  | false => rfl
  | true =>
    have other := isWordChar_of_mem_blankCodes _ (mem_blankCodes blank)
    rw [Char.ofNat_toNat, isWord] at other
    cases other

/-- Blanks around a text are none of its words. -/
theorem StandsIn.dropWhile (stands : StandsIn name text before after) {c : Char}
    {letters : List Char} (split : name = c :: letters) (solid : isBlank c = false) :
    StandsIn name (text.dropWhile isBlank) (before.dropWhile isBlank) after := by
  obtain ⟨rfl, starts, ends⟩ := stands
  have kept : (name ++ after).dropWhile isBlank = name ++ after := by simp [split, solid]
  refine ⟨?_, ?_, ends⟩
  · rw [List.dropWhile_append, kept]
    split
    · next none => rw [List.isEmpty_iff.mp none, List.nil_append]
    · rfl
  · cases last : (before.dropWhile isBlank).getLast? with
    | none => rfl
    | some d =>
      have same : before.getLast? = some d := by
        conv_lhs => rw [← List.takeWhile_append_dropWhile (p := isBlank) (l := before)]
        rw [List.getLast?_append, last]
        rfl
      rwa [same] at starts

theorem StandsIn.reverse (stands : StandsIn name text before after) :
    StandsIn name.reverse text.reverse after.reverse before.reverse := by
  obtain ⟨rfl, starts, ends⟩ := stands
  refine ⟨by simp, ?_, ?_⟩
  · rwa [List.getLast?_reverse]
  · rwa [List.head?_reverse]

/-- A word of a text is a word of the text without the blanks around it. -/
theorem StandsIn.trimBlanks (stands : StandsIn name text before after) (nonempty : name ≠ [])
    (isWord : ∀ c ∈ name, isWordChar c = true) :
    ∃ before after, StandsIn name (trimBlanks text) before after := by
  obtain ⟨c, letters, split⟩ := List.exists_cons_of_ne_nil nonempty
  obtain ⟨d, letters', split'⟩ := List.exists_cons_of_ne_nil (List.reverse_ne_nil_iff.mpr nonempty)
  have solid : isBlank c = false := isBlank_eq_false (isWord c (by simp [split]))
  have solid' : isBlank d = false :=
    isBlank_eq_false (isWord d (List.mem_reverse.mp (by rw [split']; exact List.mem_cons_self)))
  have trimmed := ((stands.dropWhile split solid).reverse.dropWhile split' solid').reverse
  rw [List.reverse_reverse] at trimmed
  exact ⟨_, _, trimmed⟩

/-- A word at the front of a text is found there. -/
theorem containsWord_append (nonempty : name ≠ []) (isWord : ∀ c ∈ name, isWordChar c = true)
    {passed : Option Char} (starts : passed.any isWordChar = false)
    (ends : after.head?.any isWordChar = false) :
    containsWord name passed (name ++ after) = true := by
  have closes : isWordBoundary (name.getLast?.or passed) after.head? = true := by
    cases last : name.getLast? with
    | none => exact absurd (List.getLast?_eq_none_iff.mp last) nonempty
    | some d => simp [isWordBoundary, isWord d (List.mem_of_getLast? last), ends]
  have read : (literalThenBoundary? passed name (name ++ after)).isSome = true := by
    simp [literalThenBoundary?, literal?_append, closes]
  obtain ⟨c, letters, split⟩ := List.exists_cons_of_ne_nil nonempty
  have opens : isWordBoundary passed (some c) = true := by
    simp [isWordBoundary, starts, isWord c (by simp [split])]
  have front : name ++ after = c :: (letters ++ after) := by rw [split, List.cons_append]
  rw [front] at read ⊢
  simp [containsWord, opens, read]

/-- Words are found. -/
theorem containsWord_of_standsIn (stands : StandsIn name text before after) (nonempty : name ≠ [])
    (isWord : ∀ c ∈ name, isWordChar c = true) : containsWord name none text = true := by
  obtain ⟨rfl, starts, ends⟩ := stands
  have ends := any_isWordChar_eq_false ends
  have found : ∀ (passed : Option Char),
      (before.getLast? <|> passed).any isWordChar = false →
      containsWord name passed (before ++ (name ++ after)) = true := by
    clear starts
    induction before with
    | nil =>
      intro passed starts
      exact containsWord_append nonempty isWord starts ends
    | cons c before ih =>
      intro passed starts
      have later := ih (some c) (by
        cases last : before.getLast? <;> simp_all [List.getLast?_cons])
      simp [containsWord, later]
  exact found none (by simpa using any_isWordChar_eq_false starts)

/-- A clause that binds a name is found to name it, unless it looks like one of types. The other
direction fails, as an alias hides a name that the clause holds. -/
theorem clauseBinds_of_valueBinds (binds : ValueBinds name clause) (nonempty : name ≠ [])
    (isWord : ∀ c ∈ name, isWordChar c = true)
    (isValue : isTypeClause (trimBlanks clause) = false) : clauseBinds name clause = true := by
  obtain ⟨tokens, split, -, bound⟩ := binds
  have listed : name ∈ tokensFrom .code clause := by
    rw [split]
    exact List.mem_append_left _ (mem_of_mem_boundNames bound)
  have isName : ∀ c ∈ name, isNamePart c = true :=
    fun c member => by simp [isNamePart, isWord c member]
  obtain ⟨before, after, stands, -⟩ := exists_of_mem_tokensFrom listed nonempty isName
  obtain ⟨before, after, stands⟩ := stands.trimBlanks nonempty isWord
  have found := containsWord_of_standsIn stands nonempty isWord
  simp [clauseBinds, isValue, found]

end Words

/-! ## Wrapping -/

section Wrapping

/-- A source has an import whose clause binds a name to a value. -/
def BindsImported (name source : List Char) : Prop :=
  ∃ before clause statement after, source = before ++ (statement ++ after) ∧ StartsLine before
    ∧ ImportText clause statement ∧ ValueBinds name clause

/-- After a wrap the wrapper is bound: its import is put in, or the source has an import that binds
it, if every import is finished before the next export and binds the wrapper where it names it. And
no import is put in where one binds the wrapper and does not look like one of types. -/
theorem transform_binds_wrapper (style : QuoteStyle) (text name : String) (target : ImportTarget)
    (identifier : isIdentifier target.symbol = true) (finished : Finished text.toList)
    (named : ∀ clause ∈ clauses text.toList, clauseBinds target.symbol.toList clause = true →
      ValueBinds target.symbol.toList clause)
    {output : String} {rules : List Wrap.Rule}
    (answer : transform style text name target = .wrapped output rules) :
    (Inserts (Snippet.newlineFor text).toList
        (Snippet.importStatement style target.symbol target.module).toList
        (editedText style text name target.symbol) output.toList
      ∨ BindsImported target.symbol.toList text.toList)
    ∧ ((∀ c ∈ target.symbol.toList, isWordChar c = true) →
      (∃ clause ∈ clauses text.toList, isTypeClause (trimBlanks clause) = false
        ∧ ValueBinds target.symbol.toList clause) →
      output.toList = editedText style text name target.symbol) := by
  obtain ⟨isName, isOutput⟩ := transform_eq_wrapped answer
  have plain : '\n' ∉ target.symbol.toList :=
    lineFeed_notMem_of_smooth (smooth_of_isIdentifier identifier).1
  have same : clauses (editedText style text name target.symbol) = clauses text.toList :=
    clauses_edited style (isNewline_newlineFor text) plain isName finished
  change output.toList = ensureImport (editedText style text name target.symbol) _ _ _ at isOutput
  rw [← same] at named ⊢
  constructor
  · by_cases unnamed : ∀ clause ∈ clauses (editedText style text name target.symbol),
        clauseBinds target.symbol.toList clause = false
    · rw [isOutput]
      exact .inl (inserts_of_unnamed unnamed)
    · simp only [not_forall, Bool.not_eq_false] at unnamed
      obtain ⟨clause, member, isNamed⟩ := unnamed
      have binds := named clause member isNamed
      rw [same] at member
      obtain ⟨stop, member⟩ := mem_clauses.mp member
      obtain ⟨before, statement, after, split, starts, isText, -⟩ := exists_of_mem_imports member
      exact .inr ⟨before, clause, statement, after, split, starts, isText, binds⟩
  · rintro isWord ⟨clause, member, isValue, binds⟩
    have nonempty : target.symbol.toList ≠ [] := by
      intro none
      simp [isIdentifier, none] at identifier
    rw [isOutput]
    exact ensureImport_of_named member (clauseBinds_of_valueBinds binds nonempty isWord isValue)

/-- A default export behind an import of the wrapper. -/
def importingText : String :=
  "import \x7b w \x7d from 'm'\nexport default A\n"

/-- A source that imports the wrapper gets no second import. -/
theorem transform_binds_wrapper_imported :
    ∃ output rules,
      transform .single importingText "A" ⟨"w", "m"⟩ = .wrapped output rules
        ∧ isIdentifier "w" = true
        ∧ Finished importingText.toList
        ∧ BindsImported "w".toList importingText.toList
        ∧ output.toList = editedText .single importingText "A" "w" := by
  have answer : transform .single importingText "A" ⟨"w", "m"⟩
      = .wrapped "import \x7b w \x7d from 'm'\nexport default w(A, 'A')\n"
        [.defaultIdentifier] := by
    decide +kernel
  have identifier : isIdentifier "w" = true := by decide +kernel
  have finished : Finished importingText.toList := by
    intro before rest split starts isImport
    obtain rfl := eq_nil_of_startsImport (by decide +kernel) split starts isImport
    refine ⟨" \x7b w \x7d from ".toList, "import \x7b w \x7d from 'm'".toList,
      "\nexport default A\n".toList,
      ⟨⟨[], '\'', ['m'], by simp [Blank], rfl, by simp, by simp [isQuote], rfl⟩, by simp [isQuote],
      rfl⟩, split.symm, by decide +kernel⟩
  have read : clauses importingText.toList = [" \x7b w \x7d from ".toList] := by decide +kernel
  have binds : ValueBinds "w".toList " \x7b w \x7d from ".toList := by decide +kernel
  obtain ⟨bound, kept⟩ := transform_binds_wrapper .single _ "A" ⟨"w", "m"⟩ identifier finished
    (by rw [read]; simpa using fun _ => binds) answer
  have same :=
    kept (List.all_eq_true.mp (by decide +kernel)) ⟨_, read ▸ List.mem_cons_self, by decide +kernel,
      binds⟩
  refine ⟨_, _, answer, identifier, finished, bound.resolve_left fun inserts => ?_, same⟩
  exact inserts.ne (by decide +kernel) same

/-- A specifier that is renamed names the wrapper and binds another name. -/
theorem transform_leaves_unbound :
    ¬ ∀ (style : QuoteStyle) (text name : String) (target : ImportTarget) (output : String)
        (rules : List Wrap.Rule), isIdentifier target.symbol = true →
      transform style text name target = .wrapped output rules →
      Inserts (Snippet.newlineFor text).toList
          (Snippet.importStatement style target.symbol target.module).toList
          (editedText style text name target.symbol) output.toList
        ∨ BindsImported target.symbol.toList text.toList := by
  intro binds
  have answer :
      transform .single "import \x7b w as v \x7d from 'm'\nexport default A\n" "A" ⟨"w", "m"⟩
        = .wrapped "import \x7b w as v \x7d from 'm'\nexport default w(A, 'A')\n"
          [.defaultIdentifier] := by decide +kernel
  rcases binds .single _ "A" ⟨"w", "m"⟩ _ _ (by decide +kernel) answer with inserts |
    ⟨before, clause, statement, after, split, starts, isText, bound⟩
  · exact inserts.ne (by decide +kernel) (by decide +kernel)
  · obtain rfl := eq_nil_of_startsImport (by decide +kernel) split starts
      (startsImport_of_importText isText)
    obtain ⟨length, imported⟩ := isText.exists_importAt? after
    rw [List.nil_append] at split
    have read : (importAt? "import \x7b w as v \x7d from 'm'\nexport default A\n".toList).map
        (·.clause) = some " \x7b w as v \x7d from ".toList := by decide +kernel
    rw [split, imported] at read
    obtain rfl : clause = " \x7b w as v \x7d from ".toList := Option.some.inj read
    exact absurd bound (by decide +kernel)

end Wrapping

end RenderProbe.Fallback
