import RenderProbe.Proofs.Syntax.SittingTree
import RenderProbe.Proofs.Wrap.Conflict

/-!
# A wrap keeps the line style

The patches of a wrap start and stop where nodes of the tree do, at the blanks behind a keyword, or
where the import goes. None of these is inside a line break, and what the patches put in breaks
lines in the style of the source, so the output is of that style.

* `Patch.keeps_render`: patches at cuts of a source leave a text of its style.
* `Rewrite.sits_of_mem_rulePatches`: the patches of the rules are such patches.
* `keeps_transform`: the output of a wrap is of the style of its source, unless the import goes
  behind the line that names an interpreter.
-/

namespace RenderProbe.Patch

open Syntax (width width_append Cut cut_zero exists_between)
open Text (Parts StyledText)

/-- The patch starts and stops at cuts of the source, and puts in a text of its style. -/
structure Sits (source : StyledText) (patch : Patch) : Prop where
  start : ∃ offset : Nat, patch.start = offset ∧ Cut source.text offset
  stop : ∃ offset : Nat, patch.stop = offset ∧ Cut source.text offset
  text : source.style.Keeps patch.text.toList

section Splice

variable {source : StyledText} {before after : List Char} {patches : List Patch}

theorem encode_ofList_append (first second : List Char) :
    encode (String.ofList (first ++ second)) =
      encode (String.ofList first) ++ encode (String.ofList second) := by
  rw [String.ofList_append, encode_append]

theorem length_encode_ofList (text : List Char) :
    (encode (String.ofList text)).length = width text :=
  length_encode _

theorem sits_insert {offset : Nat} {text : String} (cut : Cut source.text offset)
    (keeps : source.style.Keeps text.toList) : (insert offset text).Sits source :=
  ⟨⟨offset, rfl, cut⟩, ⟨offset, rfl, cut⟩, keeps⟩

/-- The bytes of a text from one place in it up to another. -/
theorem slice_between {middle : List Char} :
    slice (encode (String.ofList (before ++ middle ++ after))) (width before)
      (width (before ++ middle)) = encode (String.ofList middle) := by
  rw [encode_ofList_append, encode_ofList_append, List.append_assoc, slice, width_append,
    Nat.add_sub_cancel_left, ← length_encode_ofList before, List.drop_left, ← length_encode_ofList,
    List.take_left]

/-- Patches at cuts, spliced into a text from a cut on, leave a text of its style. By induction on
the patches, with the text between two of them taken out at cuts. -/
theorem keeps_splice {size : Int} {output : List UInt8} (split : source.text = before ++ after)
    (whole : ¬ Parts before after) (sit : ∀ patch ∈ patches, patch.Sits source)
    (spliced : splice size (width before) (encode (String.ofList after)) patches = .ok output) :
    ∃ text, source.style.Keeps text ∧ output = encode (String.ofList text) := by
  induction patches generalizing before after output with
  | nil =>
    cases spliced
    have keeps := source.keeps
    rw [split] at keeps
    exact ⟨after, (keeps.of_append whole).2, rfl⟩
  | cons patch others ih =>
    obtain ⟨⟨start, isStart, front, rest, splitStart, rfl, whole'⟩,
      ⟨stop, isStop, front', rest', splitStop, rfl, whole''⟩, keeps⟩ := sit patch List.mem_cons_self
    unfold splice at spliced
    rw [isStart, isStop] at spliced
    split at spliced
    · cases spliced
    · next fits =>
      simp only [Bool.or_eq_true, decide_eq_true_eq, not_or, Int.not_lt] at fits
      obtain ⟨⟨reached, ordered⟩, -⟩ := fits
      obtain ⟨kept, rfl, rfl⟩ := exists_between (split.symm.trans splitStart) (by omega)
      obtain ⟨removed, rfl, rfl⟩ := exists_between (splitStart.symm.trans splitStop) (by omega)
      have lengthKept : ((width (before ++ kept) : Int) - width before).toNat
          = (encode (String.ofList kept)).length := by
        rw [length_encode_ofList, width_append]
        omega
      have lengthRemoved :
          ((width (before ++ kept ++ removed) : Int) - width (before ++ kept)).toNat
          = (encode (String.ofList removed)).length := by
        rw [length_encode_ofList, width_append (before ++ kept)]
        omega
      dsimp only at spliced
      rw [lengthKept, lengthRemoved, encode_ofList_append, encode_ofList_append, List.take_left,
        ← List.drop_drop, List.drop_left, List.drop_left] at spliced
      split at spliced
      · next further rendered =>
        cases spliced
        obtain ⟨text, keeps', rfl⟩ := ih splitStop whole''
          (fun other member => sit other (List.mem_cons_of_mem _ member)) rendered
        have keepsKept : source.style.Keeps kept := by
          have keepsAll := source.keeps
          rw [splitStart] at keepsAll
          exact keepsAll.middle whole whole'
        refine ⟨kept ++ patch.text.toList ++ text, (keepsKept.append keeps).append keeps', ?_⟩
        rw [encode_ofList_append, encode_ofList_append, String.ofList_toList]
      · cases spliced

/-- Patches at cuts of a source leave a text of its style. -/
theorem keeps_render {output : String} (sit : ∀ patch ∈ patches, patch.Sits source)
    (rendered : render (encode (String.ofList source.text)) patches = .ok output) :
    source.style.Keeps output.toList := by
  unfold render apply at rendered
  split at rendered
  · cases rendered
  · next bytes spliced =>
    split at rendered
    · next text decoded =>
      cases rendered
      have listed : ∀ patch ∈ arrange patches, patch.Sits source :=
        fun patch member => sit patch ((arrange_perm patches).subset member)
      have split : source.text = [] ++ source.text := rfl
      obtain ⟨text, keeps, same⟩ := keeps_splice split (Text.not_parts_nil _) listed spliced
      have spelled : encode output = encode (String.ofList text) :=
        (encode_of_decode decoded).trans same
      rwa [encode_injective spelled, String.toList_ofList]
    · cases rendered

end Splice

end RenderProbe.Patch

namespace RenderProbe.Syntax

open Patch (Boundary encode)
open Text (Parts StyledText not_parts_of_notMem parts_append)

/-- A blank is no carriage return, so the offset behind it is a cut too. -/
theorem Cut.behind_blank {text : List Char} {offset : Nat} {byte : UInt8} (cut : Cut text offset)
    (found : (encode (String.ofList text))[offset]? = some byte) (blank : isBlank byte = true) :
    Cut text (offset + 1) := by
  obtain ⟨before, after, split, rfl, -⟩ := cut
  obtain ⟨before', after', split', place⟩ :=
    boundary_iff.mp (Patch.Boundary.succ found (spelled_blank blank))
  obtain ⟨middle, rfl, rfl⟩ := exists_between (split.symm.trans split') (by omega)
  subst split'
  have size : width middle = 1 := by
    rw [width_append] at place
    omega
  have bytes : encode (String.ofList middle) = [byte] := by
    rw [Patch.encode_ofList_append, Patch.encode_ofList_append, List.append_assoc,
      ← Patch.length_encode_ofList before, List.getElem?_append_right (Nat.le_refl _),
      Nat.sub_self] at found
    have single := Patch.length_encode_ofList middle
    rw [size, List.length_eq_one_iff] at single
    obtain ⟨only, isOnly⟩ := single
    rw [isOnly] at found ⊢
    simpa using found
  have nonempty : middle ≠ [] := by
    rintro rfl
    cases bytes
  refine ⟨before ++ middle, after', rfl, place, ?_⟩
  rw [parts_append nonempty]
  refine not_parts_of_notMem fun member => ?_
  obtain ⟨front, back, rfl⟩ := List.append_of_mem member
  have carriage : (13 : UInt8) ∈ [byte] := by
    rw [← bytes, ← List.singleton_append, Patch.encode_ofList_append, Patch.encode_ofList_append]
    exact List.mem_append_right _ (List.mem_append_left _ (by decide))
  obtain rfl := List.mem_singleton.mp carriage
  cases blank

theorem cut_afterBlanks {text : List Char} {offset : Nat} (cut : Cut text offset) :
    Cut text (Wrap.afterBlanks (encode (String.ofList text)) offset) :=
  afterBlanks_induction (fun _ _ found blank cut => cut.behind_blank found blank) cut

/-- What stands between two cuts of a text is of its style. -/
theorem keeps_sliceText {source : StyledText} {start stop : Nat} (starts : Cut source.text start)
    (stops : Cut source.text stop) :
    source.style.Keeps
      (Patch.sliceText (encode (String.ofList source.text)) start stop).toList := by
  obtain ⟨before, after, split, rfl, whole⟩ := starts
  obtain ⟨before', after', split', rfl, whole'⟩ := stops
  by_cases le : width before ≤ width before'
  · obtain ⟨middle, rfl, rfl⟩ := exists_between (split.symm.trans split') le
    have keeps := source.keeps
    rw [split'] at keeps ⊢
    have bytes : Patch.slice (encode (String.ofList (before ++ middle ++ after'))) (width before)
        (width (before ++ middle)) = encode (String.ofList middle) := Patch.slice_between
    have spelled : Patch.Spelled (Patch.slice (encode (String.ofList (before ++ middle ++ after')))
        (width before) (width (before ++ middle))) := by
      rw [bytes]
      exact Patch.spelled_encode _
    have encoded := Patch.encode_sliceText spelled
    rw [bytes] at encoded
    rw [Patch.encode_injective encoded, String.toList_ofList]
    exact keeps.middle whole whole'
  · have none :
        Patch.sliceText (encode (String.ofList source.text)) (width before) (width before')
          = "" := by
      rw [Patch.sliceText, Nat.sub_eq_zero_of_le (by omega), List.take_zero]
      rfl
    rw [none]
    exact Text.LineStyle.keeps_nil

end RenderProbe.Syntax

namespace RenderProbe.Wrap

open Syntax (Node Cut cut_afterBlanks keeps_sliceText cut_zero cut_of_boundary)
open Patch (Boundary encode)
open Text (LineStyle StyledText)
open Text.LineStyle

/-! ## Patches of the rules -/

/-- The rewrite reads a text of a style, and what it repeats from elsewhere is of that style too. -/
structure Rewrite.Styled (source : StyledText) (rewrite : Rewrite) : Prop where
  bytes : rewrite.bytes = encode (String.ofList source.text)
  newline : source.style.Keeps rewrite.newline.toList
  symbol : source.style.Keeps rewrite.symbol.toList
  overloads : ∀ signature ∈ rewrite.overloads, signature.Sits source

section Rules

variable {source : StyledText} {rewrite : Rewrite} {aim : Aim} {root statement node : Node}
  {rule : Rule} {patch : Patch} {name : String}

theorem sits_of_mem_keywordDeletions (sits : statement.Sits source)
    (member : patch ∈ keywordDeletions (encode (String.ofList source.text)) statement) :
    patch.Sits source := by
  obtain ⟨keyword, isKeyword, rfl⟩ := List.mem_map.mp member
  have sits' := sits.children keyword (List.mem_filter.mp isKeyword).1
  exact ⟨⟨_, rfl, sits'.start⟩, ⟨_, rfl, cut_afterBlanks sits'.stop⟩, keeps_nil⟩

theorem keeps_of_declaredName? (sits : node.Sits source) (named : node.declaredName? = some name) :
    source.style.Keeps name.toList := by
  obtain ⟨child, found, spelled⟩ := Option.bind_eq_some_iff.mp named
  unfold Node.lexeme? at spelled
  split at spelled
  · cases spelled
  · cases spelled
    exact (sits.child found).lexeme

/-- A name that is wrapped is spelled in the source. -/
theorem Aim.keeps_name (sits : statement.Sits source) (wraps : node ∈ aim.wrapped statement rule) :
    source.style.Keeps aim.name.toList := by
  cases rule with
  | defaultDeclaration =>
    obtain ⟨-, found, accepted⟩ := Aim.defaultDeclaration?_eq_some.mp (Option.mem_toList.mp wraps)
    simp only [Aim.acceptsDefault, Bool.and_eq_true, beq_iff_eq] at accepted
    rcases of_defaultFunctionOrClass? found with ⟨declared, -⟩ | ⟨-, valued, -⟩
    · exact keeps_of_declaredName? (sits.child declared) accepted.1
    · exact keeps_of_declaredName? (sits.child valued) accepted.1
  | defaultIdentifier =>
    obtain ⟨-, -, valued, accepted⟩ := Aim.defaultValue?_eq_some.mp (Option.mem_toList.mp wraps)
    simp only [Aim.acceptsReference, Bool.and_eq_true] at accepted
    obtain ⟨reference, unwrapped, isName⟩ := (Option.any_eq_true _ _).mp accepted.1
    simp only [Bool.and_eq_true, beq_iff_eq] at isName
    rw [← isName.2]
    exact (Node.Sits.unwrap _ (sits.child valued) unwrapped).lexeme
  | namedVariable =>
    obtain ⟨-, declaration, declared, isDeclarator, accepted⟩ := Aim.mem_declarators.mp wraps
    simp only [Aim.wrapsDeclarator, Bool.and_eq_true, Option.any_eq_true, beq_iff_eq] at accepted
    obtain ⟨⟨binding, found, spelled⟩, -⟩ := accepted
    have sits' :=
      (sits.child declared).children node (Node.mem_children_of_mem_declarators isDeclarator)
    rw [← spelled]
    exact (sits'.child found).lexeme
  | namedFunction =>
    obtain ⟨-, declared, accepted⟩ := Aim.function?_eq_some.mp (Option.mem_toList.mp wraps)
    simp only [Aim.acceptsFunction, Bool.and_eq_true, beq_iff_eq] at accepted
    exact keeps_of_declaredName? (sits.child declared) accepted.1.2

variable (styled : rewrite.Styled source)

include styled

/-- A value is replaced from where it starts to where it stops. -/
theorem Rewrite.Styled.sits_valuePatch (sits : node.Sits source)
    (keepsName : source.style.Keeps rewrite.name.toList)
    (member : patch ∈ rewrite.valuePatch node) :
    patch.Sits source := by
  unfold Rewrite.valuePatch at member
  split at member
  · next value valued =>
    obtain rfl := List.mem_singleton.mp member
    have sits' := sits.child valued
    have keepsValue : source.style.Keeps (rewrite.textOf value).toList := by
      rw [Rewrite.textOf, styled.bytes]
      exact keeps_sliceText sits'.start sits'.stop
    exact ⟨⟨_, rfl, sits'.start⟩, ⟨_, rfl, sits'.stop⟩,
      keeps_wrapCall _ styled.symbol keepsValue keepsName⟩
  · cases member

/-- A line behind a statement starts where the statement stops. -/
theorem Rewrite.Styled.sits_append (sits : statement.Sits source) {line : String}
    (keeps : source.style.Keeps line.toList) :
    (Patch.insert statement.span.stop (rewrite.newline ++ line)).Sits source := by
  refine Patch.sits_insert sits.stop ?_
  rw [String.toList_append]
  exact styled.newline.append keeps

/-- The patches of a rule on a statement. -/
theorem Rewrite.Styled.sits_of_mem_patches (sits : statement.Sits source)
    (member : patch ∈ rewrite.patches statement rule) : patch.Sits source := by
  cases rule with
  | defaultDeclaration =>
    rw [Rewrite.patches_defaultDeclaration] at member
    obtain ⟨declaration, wraps, inPatches⟩ := List.mem_flatMap.mp member
    have keepsName : source.style.Keeps rewrite.name.toList := Aim.keeps_name sits wraps
    rcases List.mem_append.mp inPatches with deletion | appended
    · rw [styled.bytes] at deletion
      exact sits_of_mem_keywordDeletions sits deletion
    · obtain rfl := List.mem_singleton.mp appended
      exact styled.sits_append sits (keeps_defaultExport _ styled.symbol keepsName)
  | defaultIdentifier =>
    rw [Rewrite.patches_defaultIdentifier] at member
    obtain ⟨value, wraps, rfl⟩ := List.mem_map.mp member
    have keepsName : source.style.Keeps rewrite.name.toList := Aim.keeps_name sits wraps
    obtain ⟨-, -, valued, -⟩ := Aim.defaultValue?_eq_some.mp (Option.mem_toList.mp wraps)
    have sits' := sits.child valued
    exact ⟨⟨_, rfl, sits'.start⟩, ⟨_, rfl, sits'.stop⟩,
      keeps_wrapCall _ styled.symbol keepsName keepsName⟩
  | namedVariable =>
    rw [Rewrite.patches_namedVariable] at member
    obtain ⟨declarator, wraps, inPatch⟩ := List.mem_flatMap.mp member
    have keepsName : source.style.Keeps rewrite.name.toList := Aim.keeps_name sits wraps
    obtain ⟨-, declaration, declared, isDeclarator, -⟩ := Aim.mem_declarators.mp wraps
    have sits' := (sits.child declared).children declarator
      (Node.mem_children_of_mem_declarators isDeclarator)
    exact styled.sits_valuePatch sits' keepsName inPatch
  | namedFunction =>
    rw [Rewrite.patches_namedFunction] at member
    obtain ⟨function, wraps, inPatches⟩ := List.mem_flatMap.mp member
    have keepsName : source.style.Keeps rewrite.name.toList := Aim.keeps_name sits wraps
    rw [styled.bytes] at inPatches
    rcases List.mem_append.mp inPatches with deletions | appended
    · rcases List.mem_append.mp deletions with ofSignatures | ofStatement
      · obtain ⟨signature, isSignature, deletion⟩ := List.mem_flatMap.mp ofSignatures
        exact sits_of_mem_keywordDeletions (styled.overloads signature isSignature) deletion
      · exact sits_of_mem_keywordDeletions sits ofStatement
    · obtain rfl := List.mem_singleton.mp appended
      exact styled.sits_append sits (keeps_namedExport _ styled.symbol keepsName)

/-- The patches of the rules in a module. -/
theorem Rewrite.Styled.sits_of_mem_rulePatches
    (sit : ∀ statement ∈ root.children, statement.kind = .exportStatement → statement.Sits source)
    (member : patch ∈ rewrite.rulePatches root) : patch.Sits source := by
  obtain ⟨⟨statement, rule⟩, fires, inPatches⟩ := List.mem_flatMap.mp member
  simp only [Rewrite.firing, List.mem_filterMap, Option.map_eq_some_iff] at fires
  obtain ⟨_, isChild, _, fires, same⟩ := fires
  cases same
  exact styled.sits_of_mem_patches
    (sit statement (List.mem_filter.mp isChild).1 (Rewrite.fires?_eq_some_iff.mp fires).1) inPatches

end Rules

/-! ## The whole wrap -/

/-- A module that does not bind a name imports it behind the line that names an interpreter. -/
def ImportsBehindHashBang (root : Node) (symbol : String) : Prop :=
  (scanImports root symbol).hasBinding = false
    ∧ ∃ line ∈ root.children, line.kind = .hashBang
      ∧ (scanImports root symbol).offset = line.span.stop

instance (root : Node) (symbol : String) : Decidable (ImportsBehindHashBang root symbol) :=
  inferInstanceAs (Decidable (_ ∧ _))

section Transform

variable {source : StyledText} {text name : String} {root : Node} {target : ImportTarget}
  {criteria : Component.Criteria} {quotes : QuoteStyle} {output : String} {rules : List Rule}
  {markup : Bool}

/-- Otherwise the import goes to a cut of the source: behind a node, and all nodes but the line that
names an interpreter stop at cuts. -/
theorem cut_of_import {symbol : String} (isSource : source.text = text.toList)
    (parsed : Syntax.parse markup text = some root)
    (elsewhere : source.style = .carriage → ¬ ImportsBehindHashBang root symbol)
    (unbound : (scanImports root symbol).hasBinding = false) :
    Cut source.text (scanImports root symbol).offset := by
  rcases scanImports_offset root symbol with atStart | ⟨node, isChild, -, behind⟩
  · rw [atStart]
    exact cut_zero _
  · rw [behind]
    rcases Syntax.sits_of_parse isSource parsed node isChild with sits | ⟨isLine, boundary⟩
    · exact sits.stop
    · have hashBang : ImportsBehindHashBang root symbol := ⟨unbound, node, isChild, isLine, behind⟩
      have keeps := source.keeps
      cases style : source.style with
      | carriage => exact absurd hashBang (elsewhere style)
      | feed =>
        rw [style] at keeps
        exact cut_of_boundary boundary keeps

/-- The output of a wrap is of the style of its source, unless the import goes behind the line that
names an interpreter. -/
theorem keeps_transform {style : LineStyle} (shown : style.Shown text.toList)
    (keepsSymbol : style.Keeps target.symbol.toList)
    (keepsModule : style.Keeps target.module.toList) (parsed : Syntax.parse markup text = some root)
    (elsewhere : style = .carriage → ¬ ImportsBehindHashBang root target.symbol)
    (answer : transform criteria quotes text root name target = .ok (.wrapped output rules)) :
    style.Keeps output.toList := by
  obtain ⟨-, rendered, -⟩ := transform_eq_wrapped_iff.mp answer
  have isSource : shown.source.text = text.toList := rfl
  have sameText : String.ofList shown.source.text = text := String.ofList_toList
  have keepsNewline := keeps_newlineFor shown
  have exportsSit : ∀ statement ∈ root.children, statement.kind = .exportStatement →
      statement.Sits shown.source := by
    intro statement isChild exported
    rcases Syntax.sits_of_parse isSource parsed statement isChild with sits | ⟨isLine, -⟩
    · exact sits
    · simp [exported] at isLine
  have styled : (Rewrite.of criteria quotes text root name target.symbol).Styled shown.source := {
    bytes := by rw [sameText]; rfl
    newline := keepsNewline
    symbol := keepsSymbol
    overloads := by
      intro signature isSignature
      obtain ⟨isNamed, exports⟩ := List.mem_filter.mp isSignature
      simp only [exportsSignature, Bool.and_eq_true, beq_iff_eq] at exports
      exact exportsSit signature (List.mem_filter.mp isNamed).1 exports.1.1 }
  refine Patch.keeps_render (fun patch member => ?_) (by rwa [sameText])
  rcases List.mem_append.mp member with ofRules | isImport
  · exact styled.sits_of_mem_rulePatches exportsSit ofRules
  · unfold importPatches at isImport
    split at isImport
    · cases isImport
    · next unbound =>
      obtain rfl := List.mem_singleton.mp isImport
      refine Patch.sits_insert (cut_of_import isSource parsed elsewhere (by simpa using unbound)) ?_
      have keepsImport := keeps_importStatement quotes keepsSymbol keepsModule
      split <;> rw [String.toList_append]
      · exact keepsNewline.append keepsImport
      · exact keepsImport.append keepsNewline

end Transform

end RenderProbe.Wrap
