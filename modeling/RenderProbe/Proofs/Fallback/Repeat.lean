import Mathlib.Data.List.Basic
import RenderProbe.Proofs.Fallback.Import

/-!
# Wrapping a text again

What the fallback leaves of a name. A wrapped default export or constant stops the edits of the
second and third kind when they are tried again, and no edit makes a new line for them. Only a
default export of the plain name is looked for without such a guard.

* `Settled`: a guarded edit finds nothing to do in lines.
* `settled_edit`: all edits of a text leave the guarded ones nothing to do.
* `transform_again_iff`: so a text that was wrapped is wrapped again exactly if it still has a
  default export of the plain name.
-/

namespace RenderProbe.Fallback

open Text

/-- The guard of an edit is found in a line, or the edit finds no line to change. -/
def Settled {α : Type} (guard : List Char → Option Unit) (edits : List Char → Option α)
    (lines : List (List Char)) : Prop :=
  (∃ line ∈ lines, (guard line).isSome = true) ∨ ∀ line ∈ lines, edits line = none

/-- Lines that are no exports do not matter. -/
theorem Settled.of_sameExports {α : Type} {guard : List Char → Option Unit}
    {edits : List Char → Option α} {lines others : List (List Char)}
    (unguarded : ∀ {line}, Inert line → guard line = none)
    (unedited : ∀ {line}, Inert line → edits line = none) (same : SameExports lines others)
    (settled : Settled guard edits lines) : Settled guard edits others := by
  rcases settled with ⟨line, member, guarded⟩ | nothing
  · have exported : ¬ Inert line := by
      intro inert
      simp [unguarded inert] at guarded
    exact .inl ⟨line, (same line exported).mp member, guarded⟩
  · refine .inr fun line member => ?_
    by_cases inert : Inert line
    · exact unedited inert
    · exact nothing line ((same line inert).mpr member)

/-- A line that is no guard may become one that is not edited, and such a line may be added. -/
theorem Settled.replace {α : Type} {guard : List Char → Option Unit} {edits : List Char → Option α}
    {earlier later added : List (List Char)} {old demoted new : List Char}
    (settled : Settled guard edits (earlier ++ old :: later ++ added))
    (unguarded : guard old = none) (unedited : edits demoted = none)
    (unedited' : edits new = none) :
    Settled guard edits (earlier ++ demoted :: later ++ (added ++ [new])) := by
  rcases settled with ⟨line, member, guarded⟩ | nothing
  · have differs : line ≠ old := by
      rintro rfl
      simp [unguarded] at guarded
    refine .inl ⟨line, ?_, guarded⟩
    simp only [List.mem_append, List.mem_cons, differs, false_or] at member ⊢
    rcases member with (isEarlier | isLater) | isAdded
    · exact .inl (.inl isEarlier)
    · exact .inl (.inr (.inr isLater))
    · exact .inr (.inl isAdded)
  · refine .inr fun line member => ?_
    simp only [List.mem_append, List.mem_cons, List.not_mem_nil, or_false] at member nothing
    rcases member with (isEarlier | rfl | isLater) | isAdded | rfl
    · exact nothing line (.inl (.inl isEarlier))
    · exact unedited
    · exact nothing line (.inl (.inr (.inr isLater)))
    · exact nothing line (.inr isAdded)
    · exact unedited'

/-- The fronts of the lines of a text with edits, those to be added included. -/
def Edited.lines (edited : Edited) : List (List Char) :=
  fronts true edited.text ++ edited.appended.map front

/-- A line in the middle of a text is replaced. -/
theorem fronts_replace {before old new : List Char} (starts : StartsLine before)
    (plain : '\n' ∉ old) (plain' : '\n' ∉ new) (rest : List Char) :
    ∃ earlier later, fronts true (before ++ (old ++ rest)) = earlier ++ front (old ++ rest) :: later
      ∧ fronts true (before ++ (new ++ rest)) = earlier ++ front (new ++ rest) :: later := by
  obtain ⟨earlier, settled⟩ := starts.exists_fronts
  refine ⟨earlier, fronts false rest, ?_, ?_⟩
  · rw [settled, fronts_true, fronts_false_append plain]
  · rw [settled, fronts_true, fronts_false_append plain']

/-- A line that loses its keywords is no export any more. -/
theorem fronts_demote {before line indentation declaration : List Char} (starts : StartsLine before)
    (demotes : Demotes line indentation declaration) :
    ∃ earlier later demoted, fronts true (before ++ line) = earlier ++ front line :: later
      ∧ fronts true (before ++ indentation ++ declaration) = earlier ++ demoted :: later
      ∧ Inert demoted := by
  obtain ⟨keywords, smooth, -, rfl⟩ := demotes.split
  have plain := lineFeed_notMem_of_smooth (smooth_append demotes.smooth smooth)
  have plain' := lineFeed_notMem_of_smooth demotes.smooth
  obtain ⟨earlier, later, old, new⟩ := fronts_replace starts plain plain' declaration
  rw [← List.append_assoc before] at new
  exact ⟨earlier, later, _, old, new, inert_front.mpr demotes.inert⟩

section Edits

variable (style : QuoteStyle) {symbol name : String} (readable : Readable symbol.toList name.toList)

include readable

/-- Replacing a default export of the name leaves a wrapped one. -/
theorem editReference_cases (text : List Char) :
    editReference style symbol name ⟨text, [], []⟩ = ⟨text, [], []⟩
      ∨ (editReference style symbol name ⟨text, [], []⟩).rules ≠ []
        ∧ (editReference style symbol name ⟨text, [], []⟩).appended = []
        ∧ ∃ line ∈ fronts true (editReference style symbol name ⟨text, [], []⟩).text,
          (wrappedDefault? symbol.toList name.toList line).isSome = true := by
  unfold editReference
  split
  · exact .inl rfl
  · next before keywords after found =>
    obtain ⟨line, rfl, starts, recognised⟩ := searchLines_eq_some found
    obtain ⟨rfl, smooth, wrapped⟩ := wrapped_of_defaultReference? style readable recognised
    refine .inr ⟨by simp, rfl, ?_⟩
    have plain := lineFeed_notMem_of_smooth smooth
    have plain' : '\n' ∉ keywords ++ (Snippet.wrapCall style symbol name name).toList := by
      simp [plain, lineFeed_notMem_wrapCall readable]
    obtain ⟨earlier, later, -, new⟩ := fronts_replace starts plain plain' after
    refine ⟨front (keywords ++ (Snippet.wrapCall style symbol name name).toList ++ after), ?_, ?_⟩
    · have text : before ++ keywords ++ (Snippet.wrapCall style symbol name name).toList ++ after =
          before ++ (keywords ++ (Snippet.wrapCall style symbol name name).toList ++ after) := by
        simp only [List.append_assoc]
      rw [text, new]
      exact List.mem_append_right _ List.mem_cons_self
    · rw [shallow_wrappedDefault? readable.smoothSymbol readable.smoothName, List.append_assoc,
        wrapped]
      rfl

/-- Nothing is left to do for a default export that declares the name. -/
theorem settled_editDefault {edited : Edited} (unappended : edited.appended = [])
    (wrapped : edited.rules ≠ [] → ∃ line ∈ fronts true edited.text,
      (wrappedDefault? symbol.toList name.toList line).isSome = true) :
    Settled (wrappedDefault? symbol.toList name.toList) (defaultDeclaration? name.toList)
        (editDefault style symbol name edited).lines
      ∧ ∀ line ∈ (editDefault style symbol name edited).appended,
        '\n' ∉ line ∧ namedFunction? name.toList line = none := by
  have guards := shallow_wrappedDefault? readable.smoothSymbol readable.smoothName
  unfold editDefault
  split
  · next guarded =>
    have found : ∃ line ∈ fronts true edited.text,
        (wrappedDefault? symbol.toList name.toList line).isSome = true := by
      rcases Bool.or_eq_true _ _ |>.mp guarded with ruled | present
      · exact wrapped (by simpa using ruled)
      · exact (searchLines_isSome_iff guards).mp present
    obtain ⟨line, member, isGuard⟩ := found
    exact ⟨.inl ⟨line, List.mem_append_left _ member, isGuard⟩, by simp [unappended]⟩
  · split
    · next nothing =>
      have none :=
        (searchLines_eq_none_iff (shallow_defaultDeclaration? readable.smoothName)).mp nothing
      exact ⟨.inr (by simpa [Edited.lines, unappended] using none), by simp [unappended]⟩
    · have isWrapped : (wrappedDefault? symbol.toList name.toList
          (front (Snippet.defaultExport style symbol name).toList)).isSome = true := by
        rw [guards, wrappedDefault?_defaultExport readable]
        rfl
      refine ⟨.inl ⟨_, List.mem_append_right _ ?_, isWrapped⟩, ?_⟩
      · simp [unappended]
      · simp only [unappended, List.nil_append, List.mem_singleton, forall_eq]
        exact ⟨(lineFeed_notMem_exports readable).1,
          namedFunction?_of_keywords (keywords_defaultExport readable)⟩

/-- Nothing is left to do for a function of the name, and for a default export as little as
before. -/
theorem settled_editFunction {edited : Edited}
    (settled : Settled (wrappedDefault? symbol.toList name.toList) (defaultDeclaration? name.toList)
      edited.lines)
    (appended : ∀ line ∈ edited.appended, '\n' ∉ line ∧ namedFunction? name.toList line = none) :
    Settled (wrappedDefault? symbol.toList name.toList) (defaultDeclaration? name.toList)
        (editFunction style symbol name edited).lines
      ∧ Settled (wrappedConstant? symbol.toList name.toList) (namedFunction? name.toList)
        (editFunction style symbol name edited).lines
      ∧ ∀ line ∈ (editFunction style symbol name edited).appended, '\n' ∉ line := by
  have guards := shallow_wrappedConstant? readable.smoothSymbol readable.smoothName
  have functions := shallow_namedFunction? readable.smoothName
  have plain : ∀ line ∈ edited.appended, '\n' ∉ line := fun line member => (appended line member).1
  unfold editFunction
  split
  · next guarded =>
    obtain ⟨line, member, isGuard⟩ := (searchLines_isSome_iff guards).mp guarded
    exact ⟨settled, .inl ⟨line, List.mem_append_left _ member, isGuard⟩, plain⟩
  · split
    · next nothing =>
      refine ⟨settled, .inr fun line member => ?_, plain⟩
      rcases List.mem_append.mp member with inText | isAppended
      · exact (searchLines_eq_none_iff functions).mp nothing line inText
      · obtain ⟨whole, isLine, rfl⟩ := List.mem_map.mp isAppended
        rw [← Option.not_isSome_iff_eq_none, functions, (appended whole isLine).2]
        simp
    · next before indentation declaration found =>
      obtain ⟨line, isText, starts, recognised⟩ := searchLines_eq_some found
      obtain ⟨earlier, later, demoted, old, new, inert⟩ :=
        fronts_demote starts (demotes_of_namedFunction? recognised)
      rw [← isText] at old
      refine ⟨?_, ?_, ?_⟩
      · -- The line that changes exports a function, so it is not the guard.
        have unguarded : wrappedDefault? symbol.toList name.toList (front line) = none :=
          wrappedDefault?_of_namedFunction? (by rw [functions, recognised]; rfl)
        have unedited : defaultDeclaration? name.toList
            (front (Snippet.namedExport style symbol name).toList) = none := by
          rw [← Option.not_isSome_iff_eq_none, shallow_defaultDeclaration? readable.smoothName,
            defaultDeclaration?_of_keywords (keywords_namedExport readable)]
          simp
        simp only [Edited.lines, old] at settled
        simp only [Edited.lines, new, List.map_append]
        exact settled.replace unguarded inert.defaultDeclaration? unedited
      · have isWrapped : (wrappedConstant? symbol.toList name.toList
            (front (Snippet.namedExport style symbol name).toList)).isSome = true := by
          rw [guards, wrappedConstant?_namedExport readable]
          rfl
        exact .inl ⟨_, List.mem_append_right _ (by simp), isWrapped⟩
      · intro added member
        rcases List.mem_append.mp member with before' | isNew
        · exact plain added before'
        · rw [List.mem_singleton.mp isNew]
          exact (lineFeed_notMem_exports readable).2

/-- All edits of a text leave nothing for the guarded ones: what the first wrap made is what the
guards of the second recognise. -/
theorem settled_edit (text : List Char) :
    Settled (wrappedDefault? symbol.toList name.toList) (defaultDeclaration? name.toList)
        (edit style symbol name text).lines
      ∧ Settled (wrappedConstant? symbol.toList name.toList) (namedFunction? name.toList)
        (edit style symbol name text).lines
      ∧ ∀ line ∈ (edit style symbol name text).appended, '\n' ∉ line := by
  have first : Settled (wrappedDefault? symbol.toList name.toList) (defaultDeclaration? name.toList)
        (editDefault style symbol name (editReference style symbol name ⟨text, [], []⟩)).lines
      ∧ ∀ line ∈ (editDefault style symbol name
          (editReference style symbol name ⟨text, [], []⟩)).appended,
        '\n' ∉ line ∧ namedFunction? name.toList line = none := by
    rcases editReference_cases style readable text with same | ⟨-, unappended, wrapped⟩
    · rw [same]
      exact settled_editDefault style readable rfl fun ruled => absurd rfl ruled
    · exact settled_editDefault style readable unappended fun _ => wrapped
  exact settled_editFunction style readable first.1 first.2

end Edits

/-! ## Line ends -/

section Ends

variable {symbol name : String} {text before line indentation declaration : List Char}

theorem Demotes.getLast? (demotes : Demotes line indentation declaration) (before : List Char) :
    (before ++ indentation ++ declaration).getLast? = (before ++ line).getLast? := by
  obtain ⟨keywords, -, -, rfl⟩ := demotes.split
  rw [← List.append_assoc, List.getLast?_append_of_ne_nil _ demotes.nonempty,
    List.getLast?_append_of_ne_nil _ demotes.nonempty]

theorem getLast?_editReference (style : QuoteStyle) (readable : Readable symbol.toList name.toList)
    (closed : text.getLast? ≠ some '\r') :
    (editReference style symbol name ⟨text, [], []⟩).text.getLast? ≠ some '\r' := by
  unfold editReference
  split
  · exact closed
  · next before keywords after found =>
    obtain ⟨line, rfl, -, recognised⟩ := searchLines_eq_some found
    obtain ⟨rfl, -, -⟩ := wrapped_of_defaultReference? style readable recognised
    cases after with
    | nil =>
      have ends : (Snippet.wrapCall style symbol name name).toList ≠ [] := by
        simp [toList_wrapCall]
      rw [List.append_nil, List.getLast?_append_of_ne_nil _ ends, toList_wrapCall,
        ← List.cons_append, ← List.append_assoc, ← List.append_assoc, List.getLast?_concat]
      decide
    | cons c rest =>
      rw [← List.append_assoc, ← List.append_assoc,
        List.getLast?_append_of_ne_nil _ (by simp)] at closed
      rwa [List.getLast?_append_of_ne_nil _ (by simp)]

/-- No edit leaves a bare carriage return at the end of a text. -/
theorem getLast?_edit (style : QuoteStyle) (readable : Readable symbol.toList name.toList)
    (closed : text.getLast? ≠ some '\r') :
    (edit style symbol name text).text.getLast? ≠ some '\r' := by
  have first := getLast?_editReference style readable closed
  have second : (editDefault style symbol name
      (editReference style symbol name ⟨text, [], []⟩)).text.getLast? ≠ some '\r' := by
    generalize editReference style symbol name ⟨text, [], []⟩ = edited at first
    unfold editDefault
    split
    · exact first
    · split
      · exact first
      · next before indentation declaration found =>
        obtain ⟨line, isText, -, recognised⟩ := searchLines_eq_some found
        rwa [isText, ← (demotes_of_defaultDeclaration? recognised).getLast?] at first
  unfold edit
  generalize editDefault style symbol name _ = edited at second
  unfold editFunction
  split
  · exact second
  · split
    · exact second
    · next before indentation declaration found =>
      obtain ⟨line, isText, -, recognised⟩ := searchLines_eq_some found
      rwa [isText, ← (demotes_of_namedFunction? recognised).getLast?] at second

end Ends

/-- Lines, each with its break, and what follows the last one. -/
theorem fronts_flatMap {newline : List Char} (isNewline : IsNewline newline)
    {lines : List (List Char)} (plain : ∀ line ∈ lines, '\n' ∉ line) :
    fronts true (lines.flatMap (· ++ newline)) = lines.map front ++ [[]] := by
  induction lines with
  | nil => rfl
  | cons line rest ih =>
    have alone : fronts true line = [front line] := by
      have read : fronts false (line ++ []) = fronts false [] :=
        fronts_false_append (plain line List.mem_cons_self)
      rw [List.append_nil] at read
      rw [fronts_true, read]
      rfl
    rw [List.flatMap_cons, List.append_assoc, isNewline.fronts_append, alone,
      ih fun other later => plain other (List.mem_cons_of_mem _ later)]
    rfl

/-- The added lines stand behind the others. -/
theorem sameExports_withAppended {newline : List Char} (isNewline : IsNewline newline)
    {edited : Edited} (plain : ∀ line ∈ edited.appended, '\n' ∉ line)
    (closed : edited.text.getLast? ≠ some '\r') :
    SameExports edited.lines (fronts true (withAppended newline edited)) := by
  unfold withAppended Edited.lines
  split
  · next none =>
    rw [List.isEmpty_iff.mp none, List.map_nil, List.append_nil]
    exact fun _ _ => Iff.rfl
  · have added := fronts_flatMap isNewline plain
    have reordered : ∀ earlier : List (List Char),
        SameExports (earlier ++ [[]] ++ edited.appended.map front)
          (earlier ++ (edited.appended.map front ++ [[]])) := by
      intro earlier line _
      simp only [List.mem_append, List.mem_singleton, or_assoc]
      exact or_congr_right or_comm
    dsimp only
    split
    · rw [List.append_assoc, isNewline.fronts_append, added]
      have more :=
        SameExports.insert inert_nil (fronts true edited.text) (edited.appended.map front)
      rw [List.append_cons] at more
      exact more.trans (reordered _)
    · next ended =>
      have starts : StartsLine edited.text := by
        cases last : edited.text.getLast? with
        | none => exact .inl (List.getLast?_eq_none_iff.mp last)
        | some c =>
          rw [last] at closed ended
          have feed : c = '\n' := by
            by_contra other
            simp_all
          exact .inr (by rw [last, feed])
      obtain ⟨earlier, settled⟩ := starts.exists_fronts
      have whole := settled []
      rw [List.append_nil] at whole
      rw [whole, List.append_nil, settled, added]
      exact reordered earlier

/-! ## The import -/

/-- The import of the wrapper is one line, and no export. -/
theorem importStatement_plain (style : QuoteStyle) {symbol module : String}
    (smooth : Smooth symbol.toList) (plain : '\n' ∉ module.toList) :
    '\n' ∉ (Snippet.importStatement style symbol module).toList
      ∧ ∀ rest, Inert ((Snippet.importStatement style symbol module).toList ++ rest) := by
  rw [toList_importStatement]
  constructor
  · have inSymbol := lineFeed_notMem_of_smooth smooth
    have inModule : '\n' ∉ (Snippet.stringLiteral style module).toList :=
      lineFeed_notMem_stringLiteral plain
    simp [inSymbol, inModule]
  · intro rest
    exact inert_of_head [] (by simp) rfl (by decide : 'i' ≠ 'e')

/-- Nothing is taken from a text that gets an import. -/
theorem sublist_ensureImport (text symbol statement newline : List Char) :
    text.Sublist (ensureImport text symbol statement newline) := by
  have inserted : ∀ (offset : Nat) (middle : List Char),
      text.Sublist (text.take offset ++ middle ++ text.drop offset) := by
    intro offset middle
    have kept := (List.sublist_append_left (text.take offset) middle).append_right
      (text.drop offset)
    rwa [List.take_append_drop] at kept
  unfold ensureImport
  dsimp only
  split
  · exact List.Sublist.refl text
  · split
    · next stop _ =>
      rw [List.append_assoc (text.take stop)]
      exact inserted stop _
    · rw [List.append_assoc (text.take _)]
      exact inserted _ _

/-- Nothing is taken from a text that gets lines. -/
theorem sublist_withAppended (newline : List Char) (edited : Edited) :
    edited.text.Sublist (withAppended newline edited) := by
  unfold withAppended
  split
  · exact List.Sublist.refl _
  · dsimp only
    rw [List.append_assoc]
    exact List.sublist_append_left _ _

/-! ## The second wrap -/

section Again

variable {style : QuoteStyle} {symbol name : String} {text : List Char}

/-- A text in which nothing is left to do for a name stays as it is. This is the fixed point that a
second wrap meets, but for default exports of the plain name. -/
theorem edit_of_settled (style : QuoteStyle) (readable : Readable symbol.toList name.toList)
    (unreferenced : searchLines (defaultReference? name.toList) text = none)
    (defaults : Settled (wrappedDefault? symbol.toList name.toList)
      (defaultDeclaration? name.toList) (fronts true text))
    (functions : Settled (wrappedConstant? symbol.toList name.toList) (namedFunction? name.toList)
      (fronts true text)) : edit style symbol name text = ⟨text, [], []⟩ := by
  have first : editReference style symbol name ⟨text, [], []⟩ = ⟨text, [], []⟩ := by
    simp only [editReference, unreferenced]
  have second : editDefault style symbol name ⟨text, [], []⟩ = ⟨text, [], []⟩ := by
    rcases defaults with guarded | nothing
    · have found := (searchLines_isSome_iff
        (shallow_wrappedDefault? readable.smoothSymbol readable.smoothName)).mpr guarded
      simp only [editDefault, found, Bool.or_true, if_true]
    · have none := (searchLines_eq_none_iff
        (shallow_defaultDeclaration? readable.smoothName)).mpr nothing
      simp only [editDefault, none, ite_self]
  have third : editFunction style symbol name ⟨text, [], []⟩ = ⟨text, [], []⟩ := by
    rcases functions with guarded | nothing
    · have found := (searchLines_isSome_iff
        (shallow_wrappedConstant? readable.smoothSymbol readable.smoothName)).mpr guarded
      simp only [editFunction, found, if_true]
    · have none := (searchLines_eq_none_iff
        (shallow_namedFunction? readable.smoothName)).mpr nothing
      simp only [editFunction, none, ite_self]
  rw [edit, first, second, third]

/-- Taking keywords away takes no parenthesis away. -/
theorem count_editFunction (style : QuoteStyle) (symbol name : String) (edited : Edited) :
    (editFunction style symbol name edited).text.count '(' = edited.text.count '(' := by
  unfold editFunction
  split
  · rfl
  · split
    · rfl
    · next before indentation declaration found =>
      obtain ⟨line, isText, -, recognised⟩ := searchLines_eq_some found
      obtain ⟨keywords, -, plain, rfl⟩ := (demotes_of_namedFunction? recognised).split
      simp only [isText, List.count_append, List.count_eq_zero_of_not_mem plain]
      omega

/-- A default export of the plain name is always replaced, and the call is one more. So the
parentheses tell that the text is another one, whatever the names are. -/
theorem count_edit (style : QuoteStyle) (readable : Readable symbol.toList name.toList)
    (found : (searchLines (defaultReference? name.toList) text).isSome = true) :
    (edit style symbol name text).rules ≠ []
      ∧ text.count '(' < (edit style symbol name text).text.count '(' := by
  obtain ⟨⟨before, keywords, after⟩, isFound⟩ := Option.isSome_iff_exists.mp found
  obtain ⟨line, isText, -, recognised⟩ := searchLines_eq_some isFound
  obtain ⟨rfl, -, -⟩ := wrapped_of_defaultReference? style readable recognised
  have first : editReference style symbol name ⟨text, [], []⟩ =
      ⟨before ++ keywords ++ (Snippet.wrapCall style symbol name name).toList ++ after,
        [.defaultIdentifier], []⟩ := by
    simp only [editReference, isFound, List.nil_append]
  -- The second edit is tried only where the first one made none.
  have second : editDefault style symbol name (editReference style symbol name ⟨text, [], []⟩) =
      editReference style symbol name ⟨text, [], []⟩ := by
    simp [editDefault, first]
  rw [edit, second, count_editFunction, first]
  constructor
  · unfold editFunction
    split
    · simp
    · split <;> simp
  · simp only [isText, toList_wrapCall, List.count_append, List.count_cons_self, List.count_nil,
      List.count_cons]
    omega

end Again

section Transform

variable {style : QuoteStyle} {text name : String} {target : ImportTarget}

/-- What a text becomes that is wrapped. -/
theorem transform_eq_wrapped {output : String} {rules : List Wrap.Rule}
    (answer : transform style text name target = .wrapped output rules) :
    isComponentName name.toList = true
      ∧ output.toList = ensureImport
        (withAppended (Snippet.newlineFor text).toList (edit style target.symbol name text.toList))
        target.symbol.toList (Snippet.importStatement style target.symbol target.module).toList
        (Snippet.newlineFor text).toList := by
  unfold transform at answer
  split at answer
  · cases answer
  · next isName =>
    dsimp only at answer
    split at answer
    · cases answer
    · split at answer
      · cases answer
      · cases answer
        exact ⟨by simpa using isName, String.toList_ofList⟩

/-- A text with a default export of the plain name is wrapped. -/
theorem wrapped_of_reference (isName : isComponentName name.toList = true)
    (readable : Readable target.symbol.toList name.toList)
    (found : (searchLines (defaultReference? name.toList) text.toList).isSome = true) :
    ∃ output rules, transform style text name target = .wrapped output rules := by
  obtain ⟨ruled, grown⟩ := count_edit style readable found
  have differs : ∀ newline statement, ensureImport
      (withAppended newline (edit style target.symbol name text.toList)) target.symbol.toList
        statement newline ≠ text.toList := by
    intro newline statement same
    have kept := ((sublist_withAppended newline _).trans (sublist_ensureImport
      (withAppended newline (edit style target.symbol name text.toList)) target.symbol.toList
        statement newline)).count_le '('
    rw [same] at kept
    omega
  simp only [transform, isName, Bool.not_true, Bool.false_eq_true, if_false, List.isEmpty_iff,
    ruled, beq_iff_eq, differs]
  exact ⟨_, _, rfl⟩

/-- A text that was wrapped is wrapped once more exactly if it still has a default export of the
plain name; else nothing matches. -/
theorem transform_again_iff (style : QuoteStyle) (text name : String) (target : ImportTarget)
    (identifier : isIdentifier target.symbol = true) (plain : '\n' ∉ target.module.toList)
    (bounded : name.toList.getLast? ≠ some '$') (closed : text.toList.getLast? ≠ some '\r')
    {output : String} {rules : List Wrap.Rule}
    (answer : transform style text name target = .wrapped output rules) :
    (transform style output name target = .untouched .noMatch ↔
        searchLines (defaultReference? name.toList) output.toList = none)
      ∧ ((∃ again rules', transform style output name target = .wrapped again rules') ↔
        (searchLines (defaultReference? name.toList) output.toList).isSome = true) := by
  obtain ⟨isName, isOutput⟩ := transform_eq_wrapped answer
  have readable := readable_of_names identifier isName bounded
  have isNewline := isNewline_newlineFor text
  obtain ⟨oneLine, inert⟩ := importStatement_plain style readable.smoothSymbol plain
  obtain ⟨defaults, functions, appended⟩ := settled_edit style readable text.toList
  have same : SameExports (edit style target.symbol name text.toList).lines
      (fronts true output.toList) := by
    rw [isOutput]
    exact (sameExports_withAppended isNewline appended (getLast?_edit style readable closed)).trans
      (sameExports_ensureImport isNewline oneLine inert _ _)
  have defaults' := defaults.of_sameExports Inert.wrappedDefault? Inert.defaultDeclaration? same
  have functions' := functions.of_sameExports Inert.wrappedConstant? Inert.namedFunction? same
  have settled : searchLines (defaultReference? name.toList) output.toList = none →
      transform style output name target = .untouched .noMatch := by
    intro unreferenced
    simp [transform, isName, edit_of_settled style readable unreferenced defaults' functions']
  have referenced : (searchLines (defaultReference? name.toList) output.toList).isSome = true →
      ∃ again rules', transform style output name target = .wrapped again rules' :=
    wrapped_of_reference isName readable
  cases found : searchLines (defaultReference? name.toList) output.toList with
  | none => simp [settled found]
  | some _ =>
    obtain ⟨again, rules', isWrapped⟩ := referenced (by rw [found]; rfl)
    simp [isWrapped]

/-- A function that is exported by default. -/
def defaultFunction : String :=
  "export default function A() \x7b\x7d\n"

/-- What a wrap makes of it. -/
def wrappedFunction : String :=
  "import \x7b w \x7d from 'm';\nfunction A() \x7b\x7d\nexport default w(A, 'A');\n"

/-- A function that is exported by default is wrapped, and then nothing matches. -/
theorem transform_again_default :
    transform .single defaultFunction "A" ⟨"w", "m"⟩
      = .wrapped wrappedFunction [.defaultDeclaration]
      ∧ transform .single wrappedFunction "A" ⟨"w", "m"⟩ = .untouched .noMatch := by
  have answer : transform .single defaultFunction "A" ⟨"w", "m"⟩ =
      .wrapped wrappedFunction [.defaultDeclaration] := by decide +kernel
  refine ⟨answer, ?_⟩
  exact (transform_again_iff .single _ "A" ⟨"w", "m"⟩ (by decide +kernel) (by decide +kernel)
    (by decide +kernel) (by decide +kernel) answer).1.mpr (by decide +kernel)

/-- Two default exports of the plain name. -/
def twoDefaults : String :=
  "export default A\nexport default A\n"

/-- What a wrap makes of them. -/
def oneWrapped : String :=
  "import \x7b w \x7d from 'm';\nexport default w(A, 'A')\nexport default A\n"

/-- Of two default exports of the plain name each wrap finds one, so the second wrap succeeds
too. -/
theorem transform_again_succeeds :
    ¬ ∀ (style : QuoteStyle) (text name : String) (target : ImportTarget) (output : String)
        (rules : List Wrap.Rule), isIdentifier target.symbol = true →
      '\n' ∉ target.module.toList → '\r' ∉ target.module.toList →
      transform style text name target = .wrapped output rules →
      ∃ reason, transform style output name target = .untouched reason := by
  intro settles
  have first : transform .single twoDefaults "A" ⟨"w", "m"⟩ =
      .wrapped oneWrapped [.defaultIdentifier] := by decide +kernel
  have second : transform .single oneWrapped "A" ⟨"w", "m"⟩ =
      .wrapped "import \x7b w \x7d from 'm';\nexport default w(A, 'A')\nexport default w(A, 'A')\n"
        [.defaultIdentifier] := by decide +kernel
  obtain ⟨reason, untouched⟩ := settles _ _ _ _ _ _ (by decide +kernel) (by decide +kernel)
    (by decide +kernel) first
  rw [second] at untouched
  cases untouched

end Transform

end RenderProbe.Fallback
