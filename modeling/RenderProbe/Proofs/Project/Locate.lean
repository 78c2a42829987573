import RenderProbe.Project.Locate
import RenderProbe.Proofs.Fallback.WholeNames
import RenderProbe.Proofs.Project.Files
import RenderProbe.Proofs.Text.Utf8

/-!
# Finding what the fallback rewrites

The fallback and the search for a component's file recognise exports independently of each other.
The fallback also rewrites functions with `async` or a star, keywords glued to a name, default
exports of variables and references of a name that ends with a dollar; the search does not know
those.

* `ExportForm` and `Place`: the places that the fallback may rewrite, by the form of their export.
* `startsWithExport_eq`: what the search says of each form.
* `findFile_of_only`: a file that exports the component is found, if it is the only one.
* `transform_locates_iff`: which of the places that are rewritten lead to the file.
-/

namespace RenderProbe.Project

open Text
open Fallback (Blank WordAndGap DefaultKeywords EndsReference Spacing isComponentName)

/-! ## Places -/

/-- How an export that the fallback rewrites gives the component: by its name alone, or by the
keywords that declare it. -/
inductive ExportForm where
  | reference
  | function (async spacing : List Char)
  | declared (keyword : String)

/-- The front of a line up to the end of the name, in an export of some form. -/
inductive LeadsUp (name : List Char) : ExportForm → List Char → Prop
  | reference {indentation keywords : List Char} :
    Blank indentation → DefaultKeywords keywords →
    LeadsUp name .reference (indentation ++ (keywords ++ name))
  | function {indentation keywords async spacing : List Char} :
    Blank indentation → WordAndGap "export" keywords ∨ DefaultKeywords keywords →
    (async = [] ∨ WordAndGap "async" async) → Spacing spacing →
    LeadsUp name (.function async spacing)
      (indentation ++ (keywords ++ (async ++ ("function".toList ++ (spacing ++ name)))))
  | declared {indentation keywords words : List Char} {keyword : String} :
    Blank indentation → DefaultKeywords keywords → keyword ∈ ["class", "const", "let", "var"] →
    WordAndGap keyword words →
      LeadsUp name (.declared keyword) (indentation ++ (keywords ++ (words ++ name)))

/-- What may follow the name: a reference ends its line, a declaration has a word boundary. -/
def ExportForm.Ends (name rest : List Char) : ExportForm → Prop
  | .reference => EndsReference rest
  | _ => isWordBoundary name.getLast? rest.head? = true

/-- An export that the fallback may rewrite stands at a line start of a text. -/
structure Place (name text : List Char) (form : ExportForm)
    (before front rest : List Char) : Prop where
  split : text = before ++ (front ++ rest)
  starts : StartsLine before
  leads : LeadsUp name form front
  ends : form.Ends name rest

/-- The search for a file knows the keywords of a form. -/
def ExportForm.known : ExportForm → Bool
  | .reference => true
  | .function async spacing => async.isEmpty && !spacing.isEmpty && !spacing.contains '*'
  | .declared keyword => ["class", "const"].contains keyword

/-- The search for a file recognises an export of a form. It knows fewer keywords than the fallback
edits, and asks for a word boundary behind every name. -/
def ExportForm.Located (name : List Char) (form : ExportForm) : Prop :=
  form.known = true ∧ (form = .reference → name.getLast? ≠ some '$')

section Rewritten

variable (style : QuoteStyle) (symbol name : String) (text : List Char)

theorem place_of_declaresFunction {glue : Prop}
    {name before indentation keywords declaration : List Char} (starts : StartsLine before)
    (blank : Blank indentation)
    (isKeywords : WordAndGap "export" keywords ∨ DefaultKeywords keywords)
    (declares : Fallback.DeclaresFunction glue name declaration) :
    ∃ form front rest,
      Place name (before ++ (indentation ++ keywords ++ declaration)) form before front rest := by
  obtain ⟨async, spacing, rest, isAsync, isSpacing, -, rfl, bounded⟩ := declares
  exact ⟨_, _, rest, by simp only [List.append_assoc], starts,
    .function blank isKeywords isAsync isSpacing, bounded⟩

theorem editReference_cases :
    Fallback.editReference style symbol name ⟨text, [], []⟩ = ⟨text, [], []⟩
    ∨ ∃ form before front rest, Place name.toList text form before front rest := by
  unfold Fallback.editReference
  split
  · exact .inl rfl
  · next before keywords after found =>
    obtain ⟨line, rfl, starts, recognised⟩ := searchLines_eq_some found
    obtain ⟨indentation, words, blank, isKeywords, rfl, ends, rfl⟩ :=
      Fallback.defaultReference?_eq_some recognised
    exact .inr ⟨_, before, _, after, by simp only [List.append_assoc], starts,
      .reference blank isKeywords, ends⟩

theorem editDefault_cases : Fallback.editDefault style symbol name ⟨text, [], []⟩ = ⟨text, [], []⟩
    ∨ ∃ form before front rest, Place name.toList text form before front rest := by
  unfold Fallback.editDefault
  split
  · exact .inl rfl
  · split
    · exact .inl rfl
    · next before indentation declaration found =>
      obtain ⟨line, rfl, starts, recognised⟩ := searchLines_eq_some found
      obtain ⟨keywords, blank, isKeywords, declares, rfl⟩ :=
        Fallback.defaultDeclaration?_eq_some recognised
      rcases declares with function | other
      · obtain ⟨form, front, rest, place⟩ :=
          place_of_declaresFunction starts blank (.inr isKeywords)
          (Fallback.declaresFunction_of_eq_true (List.infix_refl _) function)
        exact .inr ⟨form, before, front, rest, place⟩
      · obtain ⟨keyword, listed, words, rest, isWords, rfl, bounded⟩ :=
          Fallback.declaresOther_of_eq_true other
        exact .inr ⟨_, before, _, rest, by simp only [List.append_assoc], starts,
          .declared blank isKeywords listed isWords, bounded⟩

theorem editFunction_cases : Fallback.editFunction style symbol name ⟨text, [], []⟩ = ⟨text, [], []⟩
    ∨ ∃ form before front rest, Place name.toList text form before front rest := by
  unfold Fallback.editFunction
  split
  · exact .inl rfl
  · split
    · exact .inl rfl
    · next before indentation declaration found =>
      obtain ⟨line, rfl, starts, recognised⟩ := searchLines_eq_some found
      obtain ⟨keywords, blank, isKeywords, declares, rfl⟩ :=
        Fallback.namedFunction?_eq_some recognised
      obtain ⟨form, front, rest, place⟩ := place_of_declaresFunction starts blank (.inl isKeywords)
        (Fallback.declaresFunction_of_eq_true (List.infix_refl _) declares)
      exact .inr ⟨form, before, front, rest, place⟩

/-- The first edit of a text is one of a place in it. -/
theorem exists_place_of_edit (edited : (Fallback.edit style symbol name text).rules ≠ []) :
    ∃ form before front rest, Place name.toList text form before front rest := by
  rcases editReference_cases style symbol name text with same | place
  · rcases editDefault_cases style symbol name text with same' | place
    · rcases editFunction_cases style symbol name text with same'' | place
      · rw [Fallback.edit, same, same', same''] at edited
        exact absurd rfl edited
      · exact place
    · exact place
  · exact place

end Rewritten

/-! ## What the search says of a place -/

section Recognised

variable {name front rest gap text keywords : List Char} {form : ExportForm}
  {test : List Char → Bool} {c : Char}

/-- The text does not start with a blank. -/
def Unblanked (text : List Char) : Prop :=
  text.head?.any isBlank = false

/-- A test holds of no text that starts with a blank. -/
def NeedsUnblanked (test : List Char → Bool) : Prop :=
  ∀ c text, isBlank c = true → test (c :: text) = false

theorem isBlank_of_isIndent (blank : isIndent c = true) : isBlank c = true := by
  simp only [isIndent, Bool.or_eq_true, beq_iff_eq] at blank
  rcases blank with rfl | rfl <;> decide

theorem afterBlanks_of_unblanked (unblanked : Unblanked text) : afterBlanks test text = false := by
  cases text with
  | nil => rfl
  | cons c text =>
    have other : isBlank c = false := by simpa [Unblanked] using unblanked
    simp [afterBlanks, other]

/-- A test that needs a front without blanks is made behind all blanks. -/
theorem afterBlanks_append (needs : NeedsUnblanked test) (wide : gap ≠ []) (blank : Blank gap)
    (unblanked : Unblanked text) : afterBlanks test (gap ++ text) = test text := by
  induction gap with
  | nil => exact absurd rfl wide
  | cons c gap ih =>
    have isBlank : isBlank c = true := isBlank_of_isIndent (blank c List.mem_cons_self)
    rw [List.cons_append, afterBlanks, isBlank, Bool.true_and]
    cases gap with
    | nil => rw [List.nil_append, afterBlanks_of_unblanked unblanked, Bool.or_false]
    | cons d gap =>
      have blank' : Blank (d :: gap) := fun e member => blank e (List.mem_cons_of_mem _ member)
      rw [ih (List.cons_ne_nil _ _) blank', List.cons_append,
        needs d _ (isBlank_of_isIndent (blank' d List.mem_cons_self)), Bool.false_or]

theorem isBlank_eq_false_of_isUpper (upper : c.isUpper = true) : isBlank c = false := by
  have isChar : Fallback.isNameChar c = true := by
    delta Fallback.isNameChar Char.isAlphanum Char.isAlpha
    simp [upper]
  have noDollar : c ≠ '$' := by
    rintro rfl
    cases upper
  exact Fallback.isBlank_eq_false (Fallback.isWordChar_of_isNameChar isChar noDollar)

section Name

variable (isName : isComponentName name = true)

include isName

theorem exists_head_of_isComponentName : ∃ c rest, name = c :: rest ∧ c.isUpper = true := by
  cases name with
  | nil => cases isName
  | cons c rest =>
    simp only [isComponentName, Bool.and_eq_true] at isName
    exact ⟨c, rest, rfl, isName.1⟩

theorem startsWithName_of_head (other : c.isUpper = false) :
    startsWithName name (c :: text) = false := by
  obtain ⟨d, rest, rfl, upper⟩ := exists_head_of_isComponentName isName
  have differ : d ≠ c := by
    rintro rfl
    rw [upper] at other
    cases other
  simp [startsWithName, literalThenBoundary?, literal?, differ]

theorem startsWithName_append (rest : List Char) :
    startsWithName name (name ++ rest) = isWordBoundary name.getLast? rest.head? := by
  obtain ⟨nonempty, -⟩ := Fallback.isNameChar_of_isComponentName isName
  have last : (name.getLast? <|> some ' ') = name.getLast? := by
    rw [List.getLast?_eq_some_getLast nonempty]
    rfl
  rw [startsWithName, literalThenBoundary?, literal?_append]
  dsimp only
  rw [last]
  cases isWordBoundary name.getLast? rest.head? <;> rfl

theorem needsUnblanked_startsWithName : NeedsUnblanked (startsWithName name) := by
  intro c text blank
  refine startsWithName_of_head isName ?_
  by_contra upper
  rw [isBlank_eq_false_of_isUpper (by simpa using upper)] at blank
  cases blank

theorem unblanked_name (rest : List Char) : Unblanked (name ++ rest) := by
  obtain ⟨d, wanted, rfl, upper⟩ := exists_head_of_isComponentName isName
  exact isBlank_eq_false_of_isUpper upper

end Name

theorem startsWithDeclaration_of_head (noF : 'f' ≠ c) (noC : 'c' ≠ c) :
    startsWithDeclaration name (c :: text) = false := by
  simp [startsWithDeclaration, afterWord, literal?, noF, noC]

theorem needsUnblanked_startsWithDeclaration : NeedsUnblanked (startsWithDeclaration name) := by
  intro c text blank
  refine startsWithDeclaration_of_head ?_ ?_ <;>
    · rintro rfl
      cases blank

theorem blank_append {gap gap' : List Char} (blank : Blank gap) (blank' : Blank gap') :
    Blank (gap ++ gap') := by
  intro c member
  exact (List.mem_append.mp member).elim (blank c) (blank' c)

/-- The keyword of a function is known with blanks alone behind it. -/
theorem startsWithDeclaration_function (isName : isComponentName name = true) {spacing : List Char}
    (isSpacing : Spacing spacing) (rest : List Char) :
    startsWithDeclaration name ("function".toList ++ (spacing ++ (name ++ rest))) =
      (!spacing.isEmpty && !spacing.contains '*' && isWordBoundary name.getLast? rest.head?) := by
  have read : ∀ text, startsWithDeclaration name ("function".toList ++ text) =
      afterBlanks (startsWithName name) text := by
    simp [startsWithDeclaration, afterWord, literal?]
  obtain ⟨gap, star, gap', blank, isStar, blank', rfl⟩ := isSpacing
  rw [read]
  rcases isStar with rfl | rfl
  · rw [List.append_nil]
    have both := blank_append blank blank'
    have absent : '*' ∉ gap ++ gap' := fun member => by cases both '*' member
    have noStar : (gap ++ gap').contains '*' = false := by simpa using absent
    rw [noStar]
    by_cases wide : gap ++ gap' = []
    · rw [wide, List.nil_append, afterBlanks_of_unblanked (unblanked_name isName rest)]
      rfl
    · rw [afterBlanks_append (needsUnblanked_startsWithName isName) wide both
        (unblanked_name isName rest), startsWithName_append isName]
      simp [wide]
  · have star : (gap ++ ['*'] ++ gap').contains '*' = true := by simp
    rw [star, List.append_assoc gap, List.append_assoc gap]
    simp only [Bool.not_true, Bool.and_false, Bool.false_and]
    have noName : startsWithName name (['*'] ++ gap' ++ (name ++ rest)) = false :=
      startsWithName_of_head isName rfl
    by_cases wide : gap = []
    · rw [wide, List.nil_append]
      exact afterBlanks_of_unblanked rfl
    · have unblanked : Unblanked (['*'] ++ gap' ++ (name ++ rest)) := rfl
      rw [afterBlanks_append (needsUnblanked_startsWithName isName) wide blank unblanked, noName]

/-- Of the other keywords two are known. -/
theorem startsWithDeclaration_keyword (isName : isComponentName name = true) {keyword : String}
    {words : List Char} (listed : keyword ∈ ["class", "const", "let", "var"])
    (isWords : WordAndGap keyword words) (rest : List Char) :
    startsWithDeclaration name (words ++ (name ++ rest)) =
      (["class", "const"].contains keyword && isWordBoundary name.getLast? rest.head?) := by
  obtain ⟨gap, wide, blank, rfl⟩ := isWords
  have behind : afterBlanks (startsWithName name) (gap ++ (name ++ rest)) =
      isWordBoundary name.getLast? rest.head? := by
    rw [afterBlanks_append (needsUnblanked_startsWithName isName) wide blank
      (unblanked_name isName rest), startsWithName_append isName]
  rw [List.append_assoc, ← behind]
  simp only [List.mem_cons, List.not_mem_nil, or_false] at listed
  rcases listed with rfl | rfl | rfl | rfl <;>
    simp [startsWithDeclaration, afterWord, literal?]

theorem startsWithExport_append (isKeywords : WordAndGap "export" keywords)
    (unblanked : Unblanked text) :
    startsWithExport name (keywords ++ text) = (startsWithDeclaration name text
      || afterWord "default" (afterBlanks fun rest =>
          startsWithDeclaration name rest || startsWithName name rest) text
      || afterWord "\x7b" (inBraces name '\x7b') text) := by
  obtain ⟨gap, wide, blank, rfl⟩ := isKeywords
  rw [List.append_assoc, startsWithExport, afterWord, literal?_append]
  refine afterBlanks_append (fun c text blank => ?_) wide blank unblanked
  have noD : c ≠ 'd' := by
    rintro rfl
    cases blank
  have noBrace : c ≠ '\x7b' := by
    rintro rfl
    cases blank
  simp [needsUnblanked_startsWithDeclaration c text blank, afterWord,
    literal?, noD.symm, noBrace.symm]

theorem startsWithExport_default (isName : isComponentName name = true)
    (isKeywords : DefaultKeywords keywords) (unblanked : Unblanked text) :
    startsWithExport name (keywords ++ text) =
      (startsWithDeclaration name text || startsWithName name text) := by
  obtain ⟨first, second, isFirst, ⟨gap, wide, blank, rfl⟩, rfl⟩ := isKeywords
  have unblanked' : Unblanked ("default".toList ++ gap ++ text) := rfl
  rw [List.append_assoc, startsWithExport_append isFirst unblanked', List.append_assoc]
  have noDeclaration : startsWithDeclaration name ("default".toList ++ (gap ++ text)) = false := rfl
  have noBrace :
      afterWord "\x7b" (inBraces name '\x7b') ("default".toList ++ (gap ++ text)) = false := rfl
  rw [noDeclaration, noBrace, Bool.false_or, Bool.or_false, afterWord, literal?_append]
  refine afterBlanks_append (fun c text blank => ?_) wide blank unblanked
  rw [needsUnblanked_startsWithDeclaration c text blank,
    needsUnblanked_startsWithName isName c text blank]
  rfl

theorem skipIndent_keywords {indentation : List Char} (blank : Blank indentation)
    (isKeywords : WordAndGap "export" keywords ∨ DefaultKeywords keywords) (text : List Char) :
    skipIndent (indentation ++ (keywords ++ text)) = keywords ++ text := by
  refine skipIndent_append blank ?_
  rcases isKeywords with ⟨gap, -, -, rfl⟩ | ⟨first, second, ⟨gap, -, -, rfl⟩, -, rfl⟩ <;> rfl

/-- The keywords of a declaration decide whether it is recognised, behind `default` or not. -/
theorem startsWithExport_declaration (isName : isComponentName name = true)
    (isKeywords : WordAndGap "export" keywords ∨ DefaultKeywords keywords)
    (starts : text.head? = some c) (isLetter : c ∈ ['a', 'c', 'f', 'l', 'v']) :
    startsWithExport name (keywords ++ text) = startsWithDeclaration name text := by
  obtain ⟨rest, rfl⟩ := List.head?_eq_some_iff.mp starts
  have plain : ∀ c ∈ ['a', 'c', 'f', 'l', 'v'],
      isBlank c = false ∧ c.isUpper = false ∧ 'd' ≠ c ∧ '\x7b' ≠ c := by simp [isBlank]
  obtain ⟨notBlank, notUpper, noD, noBrace⟩ := plain c isLetter
  have unblanked : Unblanked (c :: rest) := notBlank
  rcases isKeywords with isExport | isDefault
  · rw [startsWithExport_append isExport unblanked]
    simp [afterWord, literal?, noD, noBrace]
  · rw [startsWithExport_default isName isDefault unblanked, startsWithName_of_head isName notUpper,
      Bool.or_false]

/-- The search recognises an export exactly if it knows the form and finds a word boundary behind
the name. -/
theorem startsWithExport_eq (isName : isComponentName name = true) (leads : LeadsUp name form front)
    (rest : List Char) : startsWithExport name (skipIndent (front ++ rest)) =
      (form.known && isWordBoundary name.getLast? rest.head?) := by
  cases leads with
  | @reference indentation keywords blank isKeywords =>
    have noDeclaration : startsWithDeclaration name (name ++ rest) = false := by
      obtain ⟨d, wanted, rfl, upper⟩ := exists_head_of_isComponentName isName
      refine startsWithDeclaration_of_head ?_ ?_ <;>
        · rintro rfl
          cases upper
    rw [List.append_assoc, List.append_assoc, skipIndent_keywords blank (.inr isKeywords),
      startsWithExport_default isName isKeywords (unblanked_name isName rest), noDeclaration,
      startsWithName_append isName]
    rfl
  | @function indentation keywords async spacing blank isKeywords isAsync isSpacing =>
    simp only [List.append_assoc]
    rw [skipIndent_keywords blank isKeywords]
    rcases isAsync with rfl | ⟨gap, wide, -, rfl⟩
    · rw [List.nil_append, startsWithExport_declaration isName isKeywords rfl (by decide),
        startsWithDeclaration_function isName isSpacing]
      rfl
    · rw [startsWithExport_declaration isName isKeywords rfl (by decide)]
      rfl
  | @declared indentation keywords words keyword blank isKeywords listed isWords =>
    obtain ⟨c, starts, isLetter⟩ : ∃ c, (words ++ (name ++ rest)).head? = some c
        ∧ c ∈ ['a', 'c', 'f', 'l', 'v'] := by
      obtain ⟨gap, -, -, rfl⟩ := isWords
      simp only [List.mem_cons, List.not_mem_nil, or_false] at listed
      rcases listed with rfl | rfl | rfl | rfl <;> exact ⟨_, rfl, by decide⟩
    simp only [List.append_assoc]
    rw [skipIndent_keywords blank (.inr isKeywords),
      startsWithExport_declaration isName (.inr isKeywords) starts isLetter,
      startsWithDeclaration_keyword isName listed isWords]
    rfl

/-- A place is recognised exactly if its form is located. The direction from left to right needs
every way in which an export can be recognised. -/
theorem Place.startsWithExport_iff {before : List Char} (isName : isComponentName name = true)
    (place : Place name text form before front rest) :
    startsWithExport name (skipIndent (front ++ rest)) = true ↔ form.Located name := by
  rw [startsWithExport_eq isName place.leads, Bool.and_eq_true, ExportForm.Located]
  refine and_congr_right fun _ => ?_
  have ends := place.ends
  cases form with
  | reference =>
    -- no word goes on behind the line's end, so the name has to end with a character of a word
    have stops := Fallback.any_isWordChar_eq_false (Fallback.head?_of_endsReference ends)
    obtain ⟨nonempty, isChar⟩ := Fallback.isNameChar_of_isComponentName isName
    rw [isWordBoundary, stops, List.getLast?_eq_some_getLast nonempty]
    have isLast := isChar _ (List.getLast_mem nonempty)
    generalize name.getLast nonempty = last at isLast
    by_cases dollar : last = '$'
    · simp [dollar, show isWordChar '$' = false by decide]
    · simp [Fallback.isWordChar_of_isNameChar isLast dollar, dollar]
  | function | declared =>
    refine iff_of_true ends fun isReference => ?_
    cases isReference

end Recognised

/-! ## Texts and files -/

section Texts

variable {name front rest text before : List Char} {form : ExportForm} {c : Char}

theorem exportsName_append (starts : startsWithExport name rest = true) (before : List Char) :
    exportsName name (before ++ rest) = true := by
  induction before with
  | nil =>
    cases rest with
    | nil => cases starts
    | cons c rest => rw [List.nil_append, exportsName, starts, Bool.true_or]
  | cons c before ih => rw [List.cons_append, exportsName, ih, Bool.or_true]

theorem exportsName_of_skipIndent (starts : startsWithExport name (skipIndent rest) = true)
    (before : List Char) : exportsName name (before ++ rest) = true := by
  rw [← Fallback.takeWhile_append_skipIndent rest, ← List.append_assoc]
  exact exportsName_append starts _

theorem unifyBreaks_append_of_smooth (smooth : Smooth front) (rest : List Char) :
    unifyBreaks (front ++ rest) = front ++ unifyBreaks rest :=
  unifyBreaks_append_of_no_return (fun isReturn => by cases smooth _ isReturn) rest

/-- Unified line breaks end words where the line breaks did. -/
theorem isWordChar_head?_unifyBreaks (rest : List Char) :
    (unifyBreaks rest).head?.any isWordChar = rest.head?.any isWordChar := by
  cases rest with
  | nil => rfl
  | cons c rest =>
    by_cases isReturn : c = '\r'
    · subst isReturn
      by_cases feed : rest.head? = some '\n'
      · obtain ⟨rest, rfl⟩ := List.head?_eq_some_iff.mp feed
        simp only [unifyBreaks, List.head?_cons, Option.any_some]
        decide
      · rw [unifyBreaks_return feed]
        simp only [List.head?_cons, Option.any_some]
        decide
    · rw [unifyBreaks_other isReturn]
      rfl

theorem smooth_of_exportKeywords (isKeywords : WordAndGap "export" text ∨ DefaultKeywords text) :
    Smooth text :=
  isKeywords.elim (Fallback.smooth_of_wordAndGap Fallback.smooth_export)
    Fallback.smooth_of_defaultKeywords

theorem LeadsUp.smooth (isName : isComponentName name = true) (leads : LeadsUp name form front) :
    Smooth front := by
  have plain : Smooth name := Fallback.smooth_of_isComponentName isName
  cases leads with
  | @reference indentation keywords blank isKeywords =>
    exact Fallback.smooth_append (smooth_of_indent blank)
      (Fallback.smooth_append (smooth_of_exportKeywords (.inr isKeywords)) plain)
  | @function indentation keywords async spacing blank isKeywords isAsync isSpacing =>
    have smoothAsync : Smooth async := by
      rcases isAsync with rfl | isAsync
      · exact nofun
      · exact Fallback.smooth_of_wordAndGap (by decide) isAsync
    have smoothSpacing : Smooth spacing := by
      intro c member
      rcases Fallback.blank_or_star_of_spacing isSpacing member with isBlank | rfl
      · have smoothBlank : Smooth [c] := smooth_of_indent (by simpa using isBlank)
        exact smoothBlank c List.mem_cons_self
      · decide
    exact Fallback.smooth_append (smooth_of_indent blank)
      (Fallback.smooth_append (smooth_of_exportKeywords isKeywords)
        (Fallback.smooth_append smoothAsync
          (Fallback.smooth_append (by decide) (Fallback.smooth_append smoothSpacing plain))))
  | @declared indentation keywords words keyword blank isKeywords listed isWords =>
    have smoothKeyword :
        ∀ keyword ∈ ["class", "const", "let", "var"], Smooth keyword.toList := by decide
    exact Fallback.smooth_append (smooth_of_indent blank)
      (Fallback.smooth_append (smooth_of_exportKeywords (.inr isKeywords)) (Fallback.smooth_append
        (Fallback.smooth_of_wordAndGap (smoothKeyword keyword listed) isWords) plain))

theorem LeadsUp.ne_nil (isName : isComponentName name = true) (leads : LeadsUp name form front) :
    front ≠ [] := by
  have nonempty := (Fallback.isNameChar_of_isComponentName isName).1
  cases leads <;> simp [nonempty]

/-- A located place makes the search take the text for one that exports the component. -/
theorem Place.exportsName (isName : isComponentName name = true)
    (place : Place name text form before front rest) (located : form.Located name) :
    exportsName name text = true := by
  rw [place.split]
  exact exportsName_of_skipIndent ((place.startsWithExport_iff isName).mpr located) before

/-- So does it in the text with unified line breaks. -/
theorem Place.exportsName_unifyBreaks (isName : isComponentName name = true)
    (place : Place name text form before front rest) (located : form.Located name) :
    Project.exportsName name (unifyBreaks text) = true := by
  have smooth := place.leads.smooth isName
  have starts := (place.startsWithExport_iff isName).mpr located
  rw [startsWithExport_eq isName place.leads, isWordBoundary, ← isWordChar_head?_unifyBreaks,
    ← isWordBoundary, ← startsWithExport_eq isName place.leads] at starts
  have split : unifyBreaks text = unifyBreaks before ++ (front ++ unifyBreaks rest) := by
    obtain ⟨c, more, isFront⟩ := List.exists_cons_of_ne_nil (place.leads.ne_nil isName)
    have noFeed : c ≠ '\n' := by
      rintro rfl
      rw [isFront] at smooth
      cases smooth '\n' List.mem_cons_self
    rw [place.split, ← unifyBreaks_append_of_smooth smooth, isFront, List.cons_append]
    exact unifyBreaks_append_cons noFeed before _
  rw [split]
  exact exportsName_of_skipIndent starts _

end Texts

section Search

variable {disk : Disk} {root path top : Path} {name text : String} {extensions : List String}

/-- The search for a component's file looks at a path: below the source directory, or anywhere below
the root. -/
def Searched (disk : Disk) (root path : Path) : Prop :=
  ∃ top ∈ [root.child "src", root], ∃ directories file,
    path = top.under ⟨"", directories ++ [file]⟩ ∧ Looks disk top directories file

theorem filesBelow_of_not_isDirectory (noDirectory : disk.isDirectory top = false) :
    filesBelow disk top = [] := by
  unfold filesBelow Disk.walk
  cases found : disk.stat top with
  | error e => rfl
  | ok entry =>
    cases entry with
    | directory entries =>
      rw [Disk.isDirectory_iff.mpr ⟨entries, found⟩] at noDirectory
      cases noDirectory
    | _ => rfl

theorem findFile_eq (disk : Disk) (name : String) (root : Path) (extensions : List String) :
    findFile disk name root extensions =
      [(disk.resolve root).child "src", disk.resolve root].findSome? fun top =>
        (filesBelow disk top).find? (exportsComponent disk name extensions) := by
  unfold findFile
  dsimp only
  congr 1
  funext top
  cases directory : disk.isDirectory top with
  | true => rfl
  | false => rw [filesBelow_of_not_isDirectory directory]; rfl

theorem contains_of_exportsComponent (exports : exportsComponent disk name extensions path = true) :
    disk.contains path = true := by
  rw [exportsComponent, Bool.and_eq_true] at exports
  obtain ⟨-, exports⟩ := exports
  split at exports
  · next text read => exact contains_of_readLossy read
  · cases exports

/-- A file that exports the component is found, if no other one that is searched does. -/
theorem findFile_of_only (wellFormed : disk.tree.WellFormed)
    (searched : Searched disk (disk.resolve root) path)
    (exports : exportsComponent disk name extensions path = true)
    (only : ∀ other, Searched disk (disk.resolve root) other →
      exportsComponent disk name extensions other = true → other = path) :
    findFile disk name root extensions = some path := by
  rw [findFile_eq]
  cases found : [(disk.resolve root).child "src", disk.resolve root].findSome? fun top =>
      (filesBelow disk top).find? (exportsComponent disk name extensions) with
  | some other =>
    obtain ⟨top, isTop, isFound⟩ := List.exists_of_findSome?_eq_some found
    have exports' := List.find?_some isFound
    have searched' : Searched disk (disk.resolve root) other := ⟨top, isTop,
      (mem_filesBelow_iff wellFormed (contains_of_exportsComponent exports')).mp
        (List.mem_of_find?_eq_some isFound)⟩
    rw [only other searched' exports']
  | none =>
    obtain ⟨top, isTop, looks⟩ := searched
    have none := List.find?_eq_none.mp (List.findSome?_eq_none_iff.mp found top isTop)
    exact absurd exports
      (none path ((mem_filesBelow_iff wellFormed (contains_of_exportsComponent exports)).mpr looks))

theorem readLossy_of_readExact (read : disk.readExact path = .ok text) :
    disk.readLossy path = .ok (withUnifiedBreaks text) := by
  unfold Disk.readExact at read
  split at read
  · cases read
  · next bytes found =>
    split at read
    · next text' decoded =>
      cases read
      rw [Disk.readLossy, found, Except.map, ofBytesLossy, decoded]
    · cases read

/-- A file with a located place exports the component, if its name ends right. -/
theorem Place.exportsComponent {form : ExportForm} {before front rest : List Char}
    (isName : isComponentName name.toList = true)
    (place : Place name.toList text.toList form before front rest)
    (located : form.Located name.toList) (read : disk.readExact path = .ok text)
    (named : Scan.endsWithAny extensions path.name = true) :
    Project.exportsComponent disk name extensions path = true := by
  rw [Project.exportsComponent, named, readLossy_of_readExact read]
  simpa [withUnifiedBreaks] using place.exportsName_unifyBreaks isName located

end Search

/-! ## Rewritten texts -/

section Located

variable {style : QuoteStyle} {text name output : String} {target : ImportTarget}
  {rules : List Wrap.Rule}

/-- A text that the fallback rewrites has a place for it. The search recognises such a place exactly
if it is of a located form; then it takes the text for one that exports the component, and finds the
file with the text if no other one does. -/
theorem transform_locates_iff
    (answer : Fallback.transform style text name target = .wrapped output rules) :
    (∃ form before front rest, Place name.toList text.toList form before front rest)
    ∧ ∀ form before front rest, Place name.toList text.toList form before front rest →
      (startsWithExport name.toList (skipIndent (front ++ rest)) = true ↔ form.Located name.toList)
      ∧ (form.Located name.toList → exportsName name.toList text.toList = true
        ∧ ∀ (disk : Disk) (root path : Path) (extensions : List String), disk.tree.WellFormed →
          disk.readExact path = .ok text → Scan.endsWithAny extensions path.name = true →
          Searched disk (disk.resolve root) path →
          (∀ other, Searched disk (disk.resolve root) other →
            exportsComponent disk name extensions other = true → other = path) →
          findFile disk name root extensions = some path) := by
  obtain ⟨isName, -⟩ := Fallback.transform_eq_wrapped answer
  obtain ⟨rfl, edited⟩ := Fallback.rules_of_transform answer
  refine ⟨exists_place_of_edit _ _ _ _ edited, fun form before front rest place => ?_⟩
  refine ⟨place.startsWithExport_iff isName, fun located => ⟨place.exportsName isName located, ?_⟩⟩
  intro disk root path extensions wellFormed read named searched only
  exact findFile_of_only wellFormed searched (place.exportsComponent isName located read named) only

/-- The text of the only file of a project. -/
def movedText : String :=
  "export default A\n"

/-- A project of one file, which exports a component by its name. -/
def movedProject : Disk :=
  { tree := .directory [("a.tsx", .file movedText.toUTF8 0o644)]
    workingDirectory := ⟨"/", []⟩ }

/-- No other file of the project is looked at. -/
theorem eq_of_searched_movedProject {other : Path}
    (searched : Searched movedProject ⟨"/", []⟩ other) :
    other = ⟨"/", ["a.tsx"]⟩ := by
  obtain ⟨top, isTop, directories, file, rfl, isFile, ⟨place, located, directory⟩, -⟩ := searched
  simp only [List.mem_cons, List.not_mem_nil, or_false] at isTop
  rcases isTop with rfl | rfl
  · cases located
  · cases located
    cases directories with
    | nil =>
      have root : movedProject.tree.get? ([] ++ []) = some movedProject.tree := rfl
      have isShown := ((Disk.isFile_below_iff (by decide) rfl root).mp isFile).1
      obtain rfl : file = "a.tsx" := by simpa [Disk.fileNames] using isShown
      rfl
    | cons name rest =>
      have directory : movedProject.HasDirectory ([name] ++ rest) := directory
      obtain ⟨entries, found⟩ := directory.above
      by_cases same : name = "a.tsx"
      · subst same
        cases found
      · have differs : (name == "a.tsx") = false := by simpa using same
        simp [movedProject, Entry.get?, List.lookup_cons, differs] at found

/-- The file of the component is found, wherever it was said to be. -/
theorem transform_locates_iff_movedProject :
    Fallback.transform .single movedText "A" ⟨"w", "m"⟩
        = .wrapped "import \x7b w \x7d from 'm';\nexport default w(A, 'A')\n" [.defaultIdentifier]
      ∧ findFile movedProject "A" ⟨"/", []⟩ [".tsx"] = some ⟨"/", ["a.tsx"]⟩ := by
  have answer : Fallback.transform .single movedText "A" ⟨"w", "m"⟩
      = .wrapped "import \x7b w \x7d from 'm';\nexport default w(A, 'A')\n"
        [.defaultIdentifier] := by
    decide +kernel
  have blank : Blank [' '] := List.forall_mem_singleton.mpr rfl
  have place : Place "A".toList movedText.toList .reference [] "export default A".toList ['\n'] :=
    { split := rfl
      starts := .inl rfl
      leads := LeadsUp.reference (show Blank [] from nofun)
        ⟨"export ".toList, "default ".toList, ⟨[' '], by decide, blank, rfl⟩,
          ⟨[' '], by decide, blank, rfl⟩, rfl⟩
      ends := ⟨[], [], [], [], [], ['\n'], rfl, nofun, .inl rfl, nofun, .inl rfl, .inl rfl,
        .inr rfl⟩ }
  have searched : Searched movedProject ⟨"/", []⟩ ⟨"/", ["a.tsx"]⟩ :=
    ⟨⟨"/", []⟩, by decide, [], "a.tsx", rfl, rfl, ⟨[], rfl, _, rfl⟩, nofun⟩
  have isRoot : movedProject.resolve ⟨"/", []⟩ = ⟨"/", []⟩ := by decide +kernel
  refine ⟨answer, ?_⟩
  obtain ⟨-, found⟩ := ((transform_locates_iff answer).2 _ _ _ _ place).2 ⟨rfl, fun _ => by decide⟩
  refine found movedProject ⟨"/", []⟩ ⟨"/", ["a.tsx"]⟩ [".tsx"] (by decide) (by decide +kernel)
    (by decide +kernel) ?_ ?_
  · rwa [isRoot]
  · rw [isRoot]
    exact fun other isOther _ => eq_of_searched_movedProject isOther

/-- An asynchronous function is rewritten in a text that the search takes for one without
the export. -/
theorem transform_passes_over_async :
    ¬ ∀ (style : QuoteStyle) (text name : String) (target : ImportTarget) (output : String)
        (rules : List Wrap.Rule), Fallback.transform style text name target
          = .wrapped output rules →
      exportsName name.toList text.toList = true := by
  intro locates
  have answer :
      Fallback.transform .single "export async function A() \x7b return 1 \x7d\n" "A" ⟨"w", "m"⟩
      = .wrapped
        "import \x7b w \x7d from 'm';\nasync function A() \x7b return 1 \x7d\nexport const A = w(A, 'A');\n"
        [.namedFunction] := by decide +kernel
  exact absurd (locates _ _ _ _ _ _ answer) (by decide +kernel)

end Located

end RenderProbe.Project
