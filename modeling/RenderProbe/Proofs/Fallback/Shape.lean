import RenderProbe.Fallback.Transform
import RenderProbe.Proofs.Text.LineFront

/-!
# What the line shapes tell apart

The shapes of the fallback read no quotes and no line breaks, apart from the default export of a
name, which has to end its line. A line that is no export fits none of them.

* `shallow_wrappedDefault?` and its siblings: a shape is decided by the front of the line.
* `Demotes`: what a line is that loses its keywords, and what it becomes.
* `wrappedDefault?_wrapCall` and `wrappedConstant?_namedExport`: what a wrap generates is recognised
  as wrapped, if a word can end after the name.
-/

namespace RenderProbe.Fallback

open Text

/-- The line is no export. -/
def Inert (line : List Char) : Prop :=
  wordThenIndent? "export" (skipIndent line) = none

instance (line : List Char) : Decidable (Inert line) :=
  inferInstanceAs (Decidable (_ = none))

/-- Spaces and tabs only. -/
def Blank (text : List Char) : Prop :=
  ∀ c ∈ text, isIndent c = true

theorem blank_takeWhile (text : List Char) : Blank (text.takeWhile isIndent) :=
  fun _ member => List.mem_takeWhile_imp member

theorem takeWhile_append_skipIndent (text : List Char) :
    text.takeWhile isIndent ++ skipIndent text = text :=
  List.takeWhile_append_dropWhile

/-- A mark that may be there, and what follows it. -/
theorem exists_mark (c : Char) (text : List Char) :
    ∃ mark, (mark = [] ∨ mark = [c]) ∧ text = mark ++ (literal? [c] text).getD text := by
  cases found : literal? [c] text with
  | none => exact ⟨[], .inl rfl, rfl⟩
  | some rest => exact ⟨[c], .inr rfl, literal?_eq_some.mp found⟩

section Shapes

variable {symbol name line rest : List Char}

theorem smooth_export : Smooth "export".toList := by decide

theorem smooth_default : Smooth "default".toList := by decide

/-! ## Fronts -/

theorem inert_front : Inert (front line) ↔ Inert line := by
  rw [Inert, skipIndent_front, wordThenIndent?_front smooth_export, Option.map_eq_none_iff]
  rfl

theorem keywords_front (word : String) (smooth : Smooth word.toList) :
    (wordThenIndent? "export" (skipIndent (front line))).bind (wordThenIndent? word) =
      ((wordThenIndent? "export" (skipIndent line)).bind (wordThenIndent? word)).map front := by
  rw [skipIndent_front, wordThenIndent?_front smooth_export]
  cases wordThenIndent? "export" (skipIndent line) <;> simp [wordThenIndent?_front smooth]

theorem getD_literal?_front {c : Char} (smooth : isStop c = false) (text : List Char) :
    (literal? [c] (front text)).getD (front text) = front ((literal? [c] text).getD text) := by
  rw [literal?_front (by simpa [Smooth] using smooth)]
  cases literal? [c] text <;> rfl

theorem declaresFunction_front (smooth : Smooth name) (text : List Char) :
    declaresFunction name (front text) = declaresFunction name text := by
  have async : (wordThenIndent? "async" (front text)).getD (front text) =
      front ((wordThenIndent? "async" text).getD text) := by
    rw [wordThenIndent?_front (by decide)]
    cases wordThenIndent? "async" text <;> rfl
  simp only [declaresFunction, async]
  rw [literal?_front (by decide)]
  cases literal? "function".toList ((wordThenIndent? "async" text).getD text) with
  | none => rfl
  | some rest =>
    simp only [Option.map_some]
    rw [skipIndent_front, getD_literal?_front rfl, skipIndent_front,
      literalThenBoundary?_front smooth, Option.isSome_map]

theorem declaresBy_front {keywords : List String}
    (plain : ∀ keyword ∈ keywords, Smooth keyword.toList)
    (smooth : Smooth name) (text : List Char) :
    declaresBy keywords name (front text) = declaresBy keywords name text := by
  rw [declaresBy, declaresBy, Bool.eq_iff_iff, List.any_eq_true, List.any_eq_true]
  refine exists_congr fun keyword => and_congr_right fun listed => ?_
  rw [wordThenIndent?_front (plain keyword listed)]
  cases wordThenIndent? keyword text <;> simp [literalThenBoundary?_front smooth]

theorem shallow_defaultDeclaration? (smooth : Smooth name) :
    Shallow (defaultDeclaration? name) := by
  intro line
  rw [defaultDeclaration?, keywords_front "default" smooth_default, defaultDeclaration?]
  cases (wordThenIndent? "export" (skipIndent line)).bind (wordThenIndent? "default") with
  | none => rfl
  | some rest =>
    simp only [Option.map_some, declaresFunction_front smooth,
      declaresBy_front (by decide : ∀ keyword ∈ ["class", "const", "let", "var"], _) smooth]
    split <;> rfl

theorem shallow_namedFunction? (smooth : Smooth name) : Shallow (namedFunction? name) := by
  intro line
  rw [namedFunction?, skipIndent_front, wordThenIndent?_front smooth_export, namedFunction?]
  cases wordThenIndent? "export" (skipIndent line) with
  | none => rfl
  | some rest =>
    simp only [Option.map_some, declaresFunction_front smooth]
    split <;> rfl

theorem smooth_call (smooth : Smooth symbol) : Smooth (symbol ++ ['(']) := by
  intro c member
  rcases List.mem_append.mp member with inSymbol | isParen
  · exact smooth c inSymbol
  · rw [List.mem_singleton.mp isParen]
    rfl

theorem shallow_wrappedDefault? (smoothSymbol : Smooth symbol) (smooth : Smooth name) :
    Shallow (wrappedDefault? symbol name) := by
  intro line
  rw [wrappedDefault?, keywords_front "default" smooth_default, wrappedDefault?]
  cases (wordThenIndent? "export" (skipIndent line)).bind (wordThenIndent? "default") with
  | none => rfl
  | some rest =>
    simp only [Option.map_some, literal?_front (smooth_call smoothSymbol)]
    cases literal? (symbol ++ ['(']) rest with
    | none => rfl
    | some argument => simp [skipIndent_front, literalThenBoundary?_front smooth]

theorem shallow_wrappedConstant? (smoothSymbol : Smooth symbol) (smooth : Smooth name) :
    Shallow (wrappedConstant? symbol name) := by
  intro line
  rw [wrappedConstant?, keywords_front "const" (by decide), wrappedConstant?]
  cases (wordThenIndent? "export" (skipIndent line)).bind (wordThenIndent? "const") with
  | none => rfl
  | some rest =>
    simp only [Option.map_some, literal?_front smooth]
    cases literal? name rest with
    | none => rfl
    | some afterName =>
      simp only [Option.map_some, skipIndent_front]
      rw [literal?_front (by decide)]
      cases literal? ['='] (skipIndent afterName) with
      | none => rfl
      | some value => simp [skipIndent_front, literal?_front (smooth_call smoothSymbol)]

/-! ## Lines that fit no shape -/

theorem Inert.wrappedDefault? (inert : Inert line) : wrappedDefault? symbol name line = none := by
  simp [Fallback.wrappedDefault?, show wordThenIndent? "export" (skipIndent line) = none from inert]

theorem Inert.wrappedConstant? (inert : Inert line) : wrappedConstant? symbol name line = none := by
  simp [Fallback.wrappedConstant?,
    show wordThenIndent? "export" (skipIndent line) = none from inert]

theorem Inert.defaultDeclaration? (inert : Inert line) : defaultDeclaration? name line = none := by
  simp [Fallback.defaultDeclaration?,
    show wordThenIndent? "export" (skipIndent line) = none from inert]

theorem Inert.namedFunction? (inert : Inert line) : namedFunction? name line = none := by
  simp [Fallback.namedFunction?, show wordThenIndent? "export" (skipIndent line) = none from inert]

/-- A line whose first letter is not that of the keyword is no export. -/
theorem inert_of_head {c : Char} (gap : List Char) (blank : ∀ d ∈ gap, isIndent d = true)
    (solid : isIndent c = false) (other : c ≠ 'e') : Inert (gap ++ c :: rest) := by
  have skipped : skipIndent (gap ++ c :: rest) = c :: rest :=
    skipIndent_append blank (by simpa [Unindented] using solid)
  have unread : literal? "export".toList (c :: rest) = none := by
    simp [literal?, Ne.symm other]
  rw [Inert, skipped, wordThenIndent?, unread]
  rfl

theorem inert_nil : Inert [] := rfl

/-- A default export is no declaration of a function. -/
theorem declaresFunction_default (rest : List Char) :
    declaresFunction name ("default".toList ++ rest) = false := by
  have async : wordThenIndent? "async" ("default".toList ++ rest) = none := rfl
  have function : literal? "function".toList ("default".toList ++ rest) = none := rfl
  simp only [declaresFunction, async, Option.getD_none, function]

theorem wrappedDefault?_of_namedFunction? (exported : (namedFunction? name line).isSome = true) :
    wrappedDefault? symbol name line = none := by
  unfold namedFunction? at exported
  unfold wrappedDefault?
  cases keyword : wordThenIndent? "export" (skipIndent line) with
  | none => rfl
  | some rest =>
    cases word : wordThenIndent? "default" rest with
    | none => simp [word]
    | some after =>
      obtain ⟨gap, -, -, -, rfl⟩ := wordThenIndent?_eq_some.mp word
      rw [List.append_assoc] at keyword
      simp only [keyword, declaresFunction_default, Bool.false_eq_true, if_false,
        Option.isSome_none] at exported

end Shapes

/-! ## Lines that lose their keywords -/

/-- The line is an indentation, keywords and a declaration, and no export without the keywords. What
a demoting rule recognises is always such a line. -/
structure Demotes (line indentation declaration : List Char) : Prop where
  split : ∃ keywords, Smooth keywords ∧ '(' ∉ keywords
    ∧ line = indentation ++ keywords ++ declaration
  smooth : Smooth indentation
  inert : Inert (indentation ++ declaration)
  nonempty : declaration ≠ []

section Demotes

variable {name line text indentation declaration : List Char}

/-- A declaration starts with a letter that is not the first one of an export. -/
def StartsDeclaration (text : List Char) : Prop :=
  ∃ c rest, text = c :: rest ∧ isIndent c = false ∧ c ≠ 'e'

theorem startsDeclaration_of_word {word : String} {rest : List Char}
    (found : literal? word.toList text = some rest) (starts : StartsDeclaration word.toList) :
    StartsDeclaration text := by
  obtain ⟨c, letters, isWord, solid, other⟩ := starts
  rw [literal?_eq_some.mp found, isWord]
  exact ⟨c, letters ++ rest, rfl, solid, other⟩

theorem startsDeclaration_of_declaresFunction (declares : declaresFunction name text = true) :
    StartsDeclaration text := by
  unfold declaresFunction at declares
  cases async : wordThenIndent? "async" text with
  | some rest =>
    obtain ⟨after, found, -⟩ := Option.bind_eq_some_iff.mp async
    exact startsDeclaration_of_word found ⟨'a', _, rfl, rfl, by decide⟩
  | none =>
    rw [async] at declares
    dsimp only [Option.getD_none] at declares
    split at declares
    · cases declares
    · next found => exact startsDeclaration_of_word found ⟨'f', _, rfl, rfl, by decide⟩

theorem startsDeclaration_of_declaresBy
    (declares : declaresBy ["class", "const", "let", "var"] name text = true) :
    StartsDeclaration text := by
  obtain ⟨keyword, listed, found⟩ := List.any_eq_true.mp declares
  obtain ⟨_, found⟩ := Option.isSome_iff_exists.mp found
  obtain ⟨_, word, -⟩ := Option.bind_eq_some_iff.mp found
  obtain ⟨_, literal, -⟩ := Option.bind_eq_some_iff.mp word
  refine startsDeclaration_of_word literal ?_
  simp only [List.mem_cons, List.not_mem_nil, or_false] at listed
  rcases listed with rfl | rfl | rfl | rfl <;> exact ⟨_, _, rfl, rfl, by decide⟩

theorem notMem_of_indent {gap : List Char} (blank : ∀ c ∈ gap, isIndent c = true) : '(' ∉ gap := by
  intro member
  cases blank _ member

/-- Keywords between an indentation and a declaration can be taken away. -/
theorem demotes_of_keywords (keywords : List Char) (starts : StartsDeclaration declaration)
    (smooth : Smooth keywords) (plain : '(' ∉ keywords)
    (split : skipIndent line = keywords ++ declaration) :
    Demotes line (line.takeWhile isIndent) declaration := by
  have blank : ∀ c ∈ line.takeWhile isIndent, isIndent c = true :=
    fun _ member => List.mem_takeWhile_imp member
  obtain ⟨c, letters, rfl, solid, other⟩ := starts
  refine ⟨⟨keywords, smooth, plain, ?_⟩, smooth_of_indent blank, inert_of_head _ blank solid other,
    by simp⟩
  rw [List.append_assoc, ← split]
  exact List.takeWhile_append_dropWhile.symm

theorem smooth_append {first second : List Char} (left : Smooth first) (right : Smooth second) :
    Smooth (first ++ second) := by
  intro c member
  rcases List.mem_append.mp member with inFirst | inSecond
  · exact left c inFirst
  · exact right c inSecond

theorem demotes_of_namedFunction?
    (found : namedFunction? name line = some (indentation, declaration)) :
    Demotes line indentation declaration := by
  unfold namedFunction? at found
  split at found
  · cases found
  · next rest keyword =>
    split at found
    · next declares =>
      cases found
      obtain ⟨gap, -, blank, -, read⟩ := wordThenIndent?_eq_some.mp keyword
      refine demotes_of_keywords _ (startsDeclaration_of_declaresFunction declares)
        (smooth_append smooth_export (smooth_of_indent blank)) ?_ read
      rw [List.mem_append, not_or]
      exact ⟨by decide, notMem_of_indent blank⟩
    · cases found

theorem demotes_of_defaultDeclaration?
    (found : defaultDeclaration? name line = some (indentation, declaration)) :
    Demotes line indentation declaration := by
  unfold defaultDeclaration? at found
  split at found
  · cases found
  · next rest keywords =>
    split at found
    · next declares =>
      cases found
      have starts : StartsDeclaration declaration := by
        rcases Bool.or_eq_true _ _ |>.mp declares with isFunction | isOther
        · exact startsDeclaration_of_declaresFunction isFunction
        · exact startsDeclaration_of_declaresBy isOther
      obtain ⟨middle, exported, word⟩ := Option.bind_eq_some_iff.mp keywords
      obtain ⟨gap, -, blank, -, read⟩ := wordThenIndent?_eq_some.mp exported
      obtain ⟨gap', -, blank', -, rfl⟩ := wordThenIndent?_eq_some.mp word
      refine demotes_of_keywords ("export".toList ++ gap
        ++ ("default".toList ++ gap')) starts ?_ ?_ (by rw [read]; simp only [List.append_assoc])
      · exact smooth_append (smooth_append smooth_export (smooth_of_indent blank))
          (smooth_append smooth_default (smooth_of_indent blank'))
      · simp only [List.mem_append, not_or]
        exact ⟨⟨by decide, notMem_of_indent blank⟩, by decide, notMem_of_indent blank'⟩
    · cases found

end Demotes

/-! ## Generated text -/

/-- A component's name in a text that recognisers read, and a wrapper's: nothing in them stops a
line, and a word ends after the component's name. -/
structure Readable (symbol name : List Char) : Prop where
  smoothSymbol : Smooth symbol
  solid : Unindented (symbol ++ ['('])
  smoothName : Smooth name
  capital : ∃ c rest, name = c :: rest ∧ isIndent c = false
  bounded : name.getLast?.any isWordChar = true

theorem smooth_of_isIdentifier {symbol : String} (identifier : isIdentifier symbol = true) :
    Smooth symbol.toList ∧ Unindented (symbol.toList ++ ['(']) := by
  unfold isIdentifier at identifier
  split at identifier
  · cases identifier
  · next c rest read =>
    rw [read]
    rw [Bool.and_eq_true, List.all_eq_true] at identifier
    obtain ⟨first, others⟩ := identifier
    constructor
    · intro d member
      cases stop : isStop d with
      | false => rfl
      | true =>
        simp only [isStop, Bool.or_eq_true, beq_iff_eq] at stop
        rcases List.mem_cons.mp member with rfl | later
        · rcases stop with ((rfl | rfl) | rfl) | rfl <;> cases first
        · have part := others d later
          rcases stop with ((rfl | rfl) | rfl) | rfl <;> cases part
    · cases blank : isIndent c with
      | false => simp [Unindented, blank]
      | true =>
        simp only [isIndent, Bool.or_eq_true, beq_iff_eq] at blank
        rcases blank with rfl | rfl <;> cases first

theorem isWordChar_of_isNameChar {c : Char} (isName : isNameChar c = true) (other : c ≠ '$') :
    isWordChar c = true := by
  have word : c.isAlphanum = true ∨ c = '_' := by simpa [isNameChar, other] using isName
  have ascii : c.toNat < 128 := by
    rcases word with alphanumeric | rfl
    · delta Char.isAlphanum Char.isAlpha Char.isUpper Char.isLower Char.isDigit at alphanumeric
      simp only [Bool.or_eq_true, Bool.and_eq_true, decide_eq_true_eq, UInt32.le_iff_toNat_le,
        ge_iff_le] at alphanumeric
      have bound : c.val.toNat < 128 := by
        rcases alphanumeric with (⟨-, le⟩ | ⟨-, le⟩) | ⟨-, le⟩ <;>
          exact Nat.lt_of_le_of_lt le (by decide)
      exact bound
    · decide
  rw [isWordChar, if_pos ascii]
  rcases word with alphanumeric | rfl
  · simp [alphanumeric]
  · rfl

theorem isNameChar_of_isComponentName {name : List Char} (isName : isComponentName name = true) :
    name ≠ [] ∧ ∀ c ∈ name, isNameChar c = true := by
  cases name with
  | nil => cases isName
  | cons c rest =>
    simp only [isComponentName, Bool.and_eq_true, List.all_eq_true] at isName
    refine ⟨by simp, fun d member => ?_⟩
    rcases List.mem_cons.mp member with rfl | later
    · have alphanumeric : d.isAlphanum = true := by
        delta Char.isAlphanum Char.isAlpha
        simp [isName.1]
      simp [isNameChar, alphanumeric]
    · exact isName.2 d later

theorem smooth_of_isComponentName {name : List Char} (isName : isComponentName name = true) :
    Smooth name := by
  intro c member
  have isChar := (isNameChar_of_isComponentName isName).2 c member
  cases stop : isStop c with
  | false => rfl
  | true =>
    simp only [isStop, Bool.or_eq_true, beq_iff_eq] at stop
    rcases stop with ((rfl | rfl) | rfl) | rfl <;> cases isChar

theorem readable_of_names {symbol : String} {name : List Char}
    (identifier : isIdentifier symbol = true) (isName : isComponentName name = true)
    (bounded : name.getLast? ≠ some '$') : Readable symbol.toList name := by
  obtain ⟨smooth, solid⟩ := smooth_of_isIdentifier identifier
  obtain ⟨nonempty, chars⟩ := isNameChar_of_isComponentName isName
  refine ⟨smooth, solid, smooth_of_isComponentName isName, ?_, ?_⟩
  · cases name with
    | nil => exact absurd rfl nonempty
    | cons c rest =>
      refine ⟨c, rest, rfl, ?_⟩
      have isChar := chars c List.mem_cons_self
      cases blank : isIndent c with
      | false => rfl
      | true =>
        simp only [isIndent, Bool.or_eq_true, beq_iff_eq] at blank
        rcases blank with rfl | rfl <;> cases isChar
  · have last := List.getLast?_eq_some_getLast nonempty
    rw [last] at bounded ⊢
    exact isWordChar_of_isNameChar (chars _ (List.getLast_mem nonempty)) (by simpa using bounded)

section Generated

variable {style : QuoteStyle} {symbol name : String}

/-- A call to the wrapper on the name, up to the comma behind it. -/
theorem toList_wrapCall (style : QuoteStyle) (symbol name : String) :
    (Snippet.wrapCall style symbol name name).toList = (symbol.toList ++ ['(']) ++ (name.toList
      ++ ',' :: (' ' :: (Snippet.stringLiteral style name).toList ++ [')'])) := by
  simp [Snippet.wrapCall, toString]

theorem literalThenBoundary?_of_comma (readable : Readable symbol.toList name.toList)
    (rest : List Char) :
    literalThenBoundary? none name.toList (name.toList ++ ',' :: rest) = some (',' :: rest) := by
  obtain ⟨last, isLast, word⟩ := Option.any_eq_true _ _ |>.mp readable.bounded
  have comma : isWordChar ',' = false := rfl
  rw [literalThenBoundary?, literal?_append]
  simp [isLast, isWordBoundary, word, comma]

/-- A default export of a wrapped name is recognised. So the output of a rule is what its guard is
made for. -/
theorem wrappedDefault?_wrapCall (readable : Readable symbol.toList name.toList) {line : List Char}
    (after : List Char)
    (read : (wordThenIndent? "export" (skipIndent line)).bind (wordThenIndent? "default") =
      some ((Snippet.wrapCall style symbol name name).toList ++ after)) :
    wrappedDefault? symbol.toList name.toList line = some () := by
  obtain ⟨c, rest, isName, solid⟩ := readable.capital
  have unindented : ∀ rest, Unindented (name.toList ++ rest) := by
    simp [Unindented, isName, solid]
  rw [wrappedDefault?, read, toList_wrapCall]
  dsimp only
  rw [List.append_assoc, literal?_append]
  dsimp only
  rw [List.append_assoc, skipIndent_of_unindented (unindented _), List.cons_append,
    literalThenBoundary?_of_comma readable]
  rfl

theorem keywords_read {word : String} {indentation gap gap' rest : List Char}
    (blank : ∀ c ∈ indentation, isIndent c = true) (wide : gap ≠ [])
    (blank' : ∀ c ∈ gap, isIndent c = true) (wide' : gap' ≠ [])
    (blank'' : ∀ c ∈ gap', isIndent c = true) (solid : Unindented word.toList)
    (unindented : Unindented rest) (letters : word.toList ≠ []) :
    (wordThenIndent? "export" (skipIndent (indentation ++ ("export".toList ++ gap
      ++ (word.toList ++ gap' ++ rest))))).bind (wordThenIndent? word) = some rest := by
  have first : Unindented (word.toList ++ gap' ++ rest) := by
    cases read : word.toList with
    | nil => exact absurd read letters
    | cons c letters =>
      rw [read] at solid
      simpa [Unindented] using solid
  rw [skipIndent_append blank (by rfl),
    wordThenIndent?_eq_some.mpr ⟨gap, wide, blank', first, rfl⟩, Option.bind_some]
  exact wordThenIndent?_eq_some.mpr ⟨gap', wide', blank'', unindented, rfl⟩

/-- A string literal adds quotes and backslashes to its value. -/
theorem notMem_stringLiteral {value : String} {c : Char} (unquoted : c ∉ ['\\', '\'', '"'])
    (plain : c ∉ value.toList) : c ∉ (Snippet.stringLiteral style value).toList := by
  have quote : c ≠ style.char := by
    rintro rfl
    cases style <;> exact unquoted (by decide)
  have mark : c ≠ '\\' := fun same => unquoted (by simp [same])
  have escaped : c ∉ Snippet.escape style.char value.toList := by
    intro member
    obtain ⟨d, isChar, inside⟩ := List.mem_flatMap.mp member
    split at inside
    · rcases List.mem_cons.mp inside with same | isChar'
      · exact mark same
      · exact plain (List.mem_singleton.mp isChar' ▸ isChar)
    · exact plain (List.mem_singleton.mp inside ▸ isChar)
  simp [Snippet.stringLiteral, quote, escaped]

theorem lineFeed_notMem_stringLiteral {value : String} (plain : '\n' ∉ value.toList) :
    '\n' ∉ (Snippet.stringLiteral style value).toList :=
  notMem_stringLiteral (by decide) plain

theorem toList_importStatement (style : QuoteStyle) (symbol module : String) :
    (Snippet.importStatement style symbol module).toList =
      "import \x7b ".toList ++ symbol.toList ++ " \x7d from ".toList
        ++ (Snippet.stringLiteral style module).toList ++ [';'] := by
  simp only [Snippet.importStatement, String.toList_append]
  rfl

theorem lineFeed_notMem_wrapCall (readable : Readable symbol.toList name.toList) :
    '\n' ∉ (Snippet.wrapCall style symbol name name).toList := by
  have inSymbol := lineFeed_notMem_of_smooth readable.smoothSymbol
  have inName := lineFeed_notMem_of_smooth readable.smoothName
  rw [toList_wrapCall]
  simp [inSymbol, inName, lineFeed_notMem_stringLiteral inName]

theorem unindented_wrapCall (readable : Readable symbol.toList name.toList) (rest : List Char) :
    Unindented ((Snippet.wrapCall style symbol name name).toList ++ rest) := by
  have solid := readable.solid
  rw [toList_wrapCall, Unindented]
  cases read : symbol.toList with
  | nil => rfl
  | cons c letters =>
    rw [read] at solid
    exact solid

theorem toList_defaultExport (style : QuoteStyle) (symbol name : String) :
    (Snippet.defaultExport style symbol name).toList = [] ++ ("export".toList ++ [' ']
      ++ ("default".toList ++ [' ']
        ++ ((Snippet.wrapCall style symbol name name).toList ++ [';']))) := by
  have spelled : Snippet.defaultExport style symbol name =
      "export default " ++ Snippet.wrapCall style symbol name name ++ ";" := rfl
  rw [spelled, String.toList_append, String.toList_append]
  rfl

theorem keywords_defaultExport (readable : Readable symbol.toList name.toList) :
    (wordThenIndent? "export" (skipIndent (Snippet.defaultExport style symbol name).toList)).bind
        (wordThenIndent? "default") =
      some ((Snippet.wrapCall style symbol name name).toList ++ [';']) := by
  rw [toList_defaultExport]
  exact keywords_read (by simp) (by simp) (by simp [isIndent]) (by simp) (by simp [isIndent]) rfl
    (unindented_wrapCall readable _) (by simp)

theorem wrappedDefault?_defaultExport (readable : Readable symbol.toList name.toList) :
    wrappedDefault? symbol.toList name.toList (Snippet.defaultExport style symbol name).toList =
      some () :=
  wrappedDefault?_wrapCall readable _ (keywords_defaultExport readable)

/-- A line that starts as a default export exports no function by its name. -/
theorem namedFunction?_of_keywords {name line rest : List Char}
    (read : (wordThenIndent? "export" (skipIndent line)).bind (wordThenIndent? "default") =
      some rest) : namedFunction? name line = none := by
  obtain ⟨middle, exported, word⟩ := Option.bind_eq_some_iff.mp read
  obtain ⟨gap, -, -, -, rfl⟩ := wordThenIndent?_eq_some.mp word
  rw [List.append_assoc] at exported
  simp only [namedFunction?, exported, declaresFunction_default, Bool.false_eq_true, if_false]

theorem toList_namedExport (style : QuoteStyle) (symbol name : String) :
    (Snippet.namedExport style symbol name).toList = [] ++ ("export".toList ++ [' ']
      ++ ("const".toList ++ [' '] ++ (name.toList ++ ([' '] ++ (['='] ++ ([' ']
        ++ ((Snippet.wrapCall style symbol name name).toList ++ [';']))))))) := by
  have spelled : Snippet.namedExport style symbol name =
      "export const " ++ name ++ " = " ++ Snippet.wrapCall style symbol name name ++ ";" := rfl
  rw [spelled, String.toList_append, String.toList_append, String.toList_append,
    String.toList_append, List.append_assoc, List.append_assoc, List.append_assoc]
  rfl

theorem keywords_namedExport (readable : Readable symbol.toList name.toList) :
    (wordThenIndent? "export" (skipIndent (Snippet.namedExport style symbol name).toList)).bind
        (wordThenIndent? "const") =
      some (name.toList ++ ([' '] ++ (['='] ++ ([' ']
        ++ ((Snippet.wrapCall style symbol name name).toList ++ [';']))))) := by
  obtain ⟨c, rest, isName, solid⟩ := readable.capital
  rw [toList_namedExport]
  exact keywords_read (by simp) (by simp) (by simp [isIndent]) (by simp) (by simp [isIndent]) rfl
    (by simp [Unindented, isName, solid]) (by simp)

theorem wrappedConstant?_namedExport (readable : Readable symbol.toList name.toList) :
    wrappedConstant? symbol.toList name.toList (Snippet.namedExport style symbol name).toList =
      some () := by
  rw [wrappedConstant?, keywords_namedExport readable]
  dsimp only
  rw [literal?_append]
  dsimp only
  have blank : ∀ c ∈ [' '], isIndent c = true := by simp [isIndent]
  have unindented : ∀ rest, Unindented (['='] ++ rest) := fun _ => rfl
  rw [skipIndent_append blank (unindented _), literal?_append]
  dsimp only
  rw [skipIndent_append blank (unindented_wrapCall readable _), toList_wrapCall, List.append_assoc,
    literal?_append]
  rfl

/-- A line that starts as a constant is no default export. -/
theorem defaultDeclaration?_of_keywords {name line rest : List Char}
    (read : (wordThenIndent? "export" (skipIndent line)).bind (wordThenIndent? "const") =
      some rest) : defaultDeclaration? name line = none := by
  obtain ⟨middle, exported, word⟩ := Option.bind_eq_some_iff.mp read
  obtain ⟨gap, -, -, -, rfl⟩ := wordThenIndent?_eq_some.mp word
  have other : ∀ rest, wordThenIndent? "default" ("const".toList ++ rest) = none := fun rest => rfl
  rw [List.append_assoc] at exported
  rw [defaultDeclaration?, exported, Option.bind_some, other]

/-- The lines that a wrap appends are lines. -/
theorem lineFeed_notMem_exports (readable : Readable symbol.toList name.toList) :
    '\n' ∉ (Snippet.defaultExport style symbol name).toList
      ∧ '\n' ∉ (Snippet.namedExport style symbol name).toList := by
  have call : '\n' ∉ (Snippet.wrapCall style symbol name name).toList :=
    lineFeed_notMem_wrapCall readable
  have inName := lineFeed_notMem_of_smooth readable.smoothName
  rw [toList_defaultExport, toList_namedExport]
  simp [call, inName]

end Generated

/-! ## Default exports of a name -/

/-- A default export of the name with the name wrapped is recognised as wrapped. -/
theorem wrapped_of_defaultReference? (style : QuoteStyle) {symbol name : String}
    (readable : Readable symbol.toList name.toList) {line keywords after : List Char}
    (found : defaultReference? name.toList line = some (keywords, after)) :
    line = keywords ++ (name.toList ++ after) ∧ Smooth keywords
      ∧ wrappedDefault? symbol.toList name.toList
        (keywords ++ ((Snippet.wrapCall style symbol name name).toList ++ after)) = some () := by
  unfold defaultReference? at found
  split at found
  · cases found
  · next atName read =>
    split at found
    · cases found
    · next rest literal =>
      dsimp only at found
      split at found
      · obtain ⟨middle, exported, word⟩ := Option.bind_eq_some_iff.mp read
        obtain ⟨gap, wide, blank, -, isLine⟩ := wordThenIndent?_eq_some.mp exported
        obtain ⟨gap', wide', blank', -, rfl⟩ := wordThenIndent?_eq_some.mp word
        obtain ⟨indentation, blank'', split⟩ := exists_indent line
        have whole : line = indentation ++ ("export".toList ++ gap ++ ("default".toList ++ gap'))
            ++ atName := by
          rw [split, isLine]
          simp only [List.append_assoc]
        have cut : line.take (line.length - atName.length) =
            indentation ++ ("export".toList ++ gap ++ ("default".toList ++ gap')) := by
          rw [whole, List.length_append, Nat.add_sub_cancel, List.take_left]
        simp only [Option.some.injEq, Prod.mk.injEq] at found
        obtain ⟨rfl, rfl⟩ := found
        rw [cut]
        refine ⟨?_, ?_, ?_⟩
        · rw [whole, literal?_eq_some.mp literal]
        · exact smooth_append (smooth_of_indent blank'') (smooth_append
            (smooth_append smooth_export (smooth_of_indent blank))
            (smooth_append smooth_default (smooth_of_indent blank')))
        · have solid : Unindented "default".toList := rfl
          have unindented : Unindented ((Snippet.wrapCall style symbol name name).toList ++ rest) :=
            unindented_wrapCall readable rest
          have read' := keywords_read blank'' wide blank wide' blank' solid unindented (by simp)
          refine wrappedDefault?_wrapCall readable rest (Eq.trans ?_ read')
          simp only [List.append_assoc]
      · cases found

end RenderProbe.Fallback
