import Mathlib.Data.List.TakeWhile
import RenderProbe.Proofs.Wrap.PatchOrder

/-!
# What a wrap leaves as it was

The output of a wrap, read off the tree. `Rewrite.printed` walks over the top-level nodes of
a module and copies the bytes between them and the nodes themselves; only inside the nodes that
`Rewrite.edits` has edits for, and where the import goes, does it write something else.

* `Rewrite.weave_patchesInOrder`: what the patches in order weave is what is printed.
* `transform_conserves`: hence the output of a wrap is what is printed, and nothing is lost
  but export keywords and the blanks behind them.
-/

namespace RenderProbe.Wrap

open Syntax (Node Forest isBlank)
open Patch (Edit Chain Advances weave slice encode)

/-- The bytes from an offset on, with the nodes behind it edited and the import put in. -/
def Rewrite.printed (rewrite : Rewrite) (signatures : Bool) (imports : List Patch) :
    Forest → Nat → List UInt8
  | [], start => slice rewrite.bytes start rewrite.bytes.length
  | node :: rest, start =>
    slice rewrite.bytes start node.span.start
      ++ weave rewrite.bytes node.span.start node.span.stop (rewrite.edits signatures node)
      ++ (patchesAt imports node.span.stop).flatMap (fun patch => encode patch.text)
      ++ rewrite.printed signatures imports rest node.span.stop

section Order

variable {rewrite : Rewrite} {root : Node}


theorem grounded_insert (offset : Nat) (text : String) :
    Patch.Grounded (Patch.insert offset text) :=
  ⟨Int.natCast_nonneg offset, Int.natCast_nonneg offset⟩

theorem grounded_keywordDeletions {bytes : List UInt8} {statement : Node} {patch : Patch}
    (member : patch ∈ keywordDeletions bytes statement) : patch.Grounded := by
  obtain ⟨keyword, -, rfl⟩ := List.mem_map.mp member
  exact ⟨Int.natCast_nonneg _, Int.natCast_nonneg _⟩

theorem Rewrite.grounded_statementPatches {signatures : Bool} {node : Node} {patch : Patch}
    (member : patch ∈ rewrite.statementPatches signatures node) : patch.Grounded := by
  cases fires : rewrite.fires? node with
  | none =>
    simp only [Rewrite.statementPatches, fires] at member
    split at member
    · exact grounded_keywordDeletions member
    · cases member
  | some rule =>
    cases rule with
    | defaultDeclaration =>
      simp only [Rewrite.statementPatches, fires, Rewrite.patches_defaultDeclaration,
        List.mem_flatMap, List.mem_append, List.mem_singleton] at member
      obtain ⟨-, -, cut | rfl⟩ := member
      · exact grounded_keywordDeletions cut
      · exact grounded_insert _ _
    | namedFunction =>
      simp only [Rewrite.statementPatches, fires, List.mem_append, List.mem_singleton] at member
      rcases member with cut | rfl
      · exact grounded_keywordDeletions cut
      · exact grounded_insert _ _
    | defaultIdentifier =>
      simp only [Rewrite.statementPatches, fires, Rewrite.patches_defaultIdentifier,
        List.mem_map] at member
      obtain ⟨value, -, rfl⟩ := member
      exact ⟨Int.natCast_nonneg _, Int.natCast_nonneg _⟩
    | namedVariable =>
      simp only [Rewrite.statementPatches, fires, Rewrite.patches_namedVariable,
        List.mem_flatMap] at member
      obtain ⟨declarator, -, member⟩ := member
      unfold Rewrite.valuePatch at member
      split at member
      · obtain rfl := List.mem_singleton.mp member
        exact ⟨Int.natCast_nonneg _, Int.natCast_nonneg _⟩
      · cases member

section Imported

variable {symbol newline : String} {style : QuoteStyle} {target : ImportTarget}
  {imports : List Patch}
  (imported : importPatches (scanImports root symbol) style newline target = imports)

include imported

theorem insertion_of_mem {patch : Patch} (member : patch ∈ imports) :
    ∃ text, patch = Patch.insert (scanImports root symbol).offset text := by
  subst imported
  rcases importPatches_eq (scanImports root symbol) style newline target with none | ⟨text, one⟩
  · rw [none] at member
    cases member
  · rw [one] at member
    exact ⟨text, List.mem_singleton.mp member⟩

/-- The patches in a node and the import behind it stand one behind the other. -/
theorem Rewrite.advances_node {signatures : Bool} {node : Node}
    (wellFormed : root.WellFormed rewrite.bytes) (member : node ∈ root.children) :
    Advances node.span.start node.span.stop
      ((rewrite.statementPatches signatures node
        ++ patchesAt imports node.span.stop).map Patch.edit) := by
  obtain ⟨-, placed, -⟩ := wellFormed.of_mem member
  have inside : Advances node.span.start node.span.stop
      ((rewrite.statementPatches signatures node).map Patch.edit) := by
    rw [Rewrite.edit_statementPatches placed]
    exact Rewrite.advances_edits placed
  subst imported
  rcases importPatches_eq (scanImports root symbol) style newline target with none | ⟨text, one⟩
  · simpa [none, patchesAt] using inside
  · rw [one, patchesAt_insert]
    split
    · next here =>
      have nonempty := placed.nonempty
      rcases scanImports_offset root symbol with zero | ⟨anchor, isChild, may, ends⟩
      · omega
      · obtain rfl : node = anchor := wellFormed.eq_of_stop member isChild (here.symm.trans ends)
        rw [Rewrite.statementPatches_of_mayPrecedeImport may, here]
        exact ⟨Nat.le_of_lt nonempty, Nat.le_refl _, nonempty, Nat.le_refl _⟩
    · simpa using inside

/-- The patches behind the start of a module stand one behind the other. -/
theorem Rewrite.advances_patches (wellFormed : root.WellFormed rewrite.bytes) (signatures : Bool) :
    Advances 0 rewrite.bytes.length ((root.children.flatMap fun node =>
      rewrite.statementPatches signatures node
        ++ patchesAt imports node.span.stop).map Patch.edit) := by
  rw [List.map_flatMap]
  exact advances_flatMap wellFormed fun node member _ =>
    Rewrite.advances_node imported wellFormed member

/-- Where overload signatures are demoted once at most, the patches listed in order are the
arrangement of the patches. -/
theorem Rewrite.arrange_eq_of_demotesOnce (wellFormed : root.WellFormed rewrite.bytes)
    (overloads : rewrite.overloads = overloadSignatures root rewrite.name)
    (once : rewrite.DemotesOnce root) :
    Patch.arrange (rewrite.rulePatches root ++ imports) =
      rewrite.patchesInOrder (rewrite.demotesSignatures root) imports root.children := by
  have placedOnce := patchesAt_append wellFormed imported
  refine Patch.arrange_eq (Rewrite.perm_patchesInOrder overloads placedOnce once) ?_
  have advances := Rewrite.advances_patches imported wellFormed (rewrite.demotesSignatures root)
  have grounded : ∀ patch ∈ root.children.flatMap fun node =>
      rewrite.statementPatches (rewrite.demotesSignatures root) node
        ++ patchesAt imports node.span.stop, patch.Grounded := by
    intro patch member
    obtain ⟨node, -, inNode⟩ := List.mem_flatMap.mp member
    rcases List.mem_append.mp inNode with inside | behind
    · exact Rewrite.grounded_statementPatches inside
    · obtain ⟨text, rfl⟩ := insertion_of_mem imported (List.mem_filter.mp behind).1
      exact grounded_insert _ text
  refine List.pairwise_append.mpr ⟨?_, Patch.strict_of_advances grounded advances, ?_⟩
  · -- There is one import at most.
    refine List.Pairwise.sublist List.filter_sublist ?_
    subst imported
    rcases importPatches_eq (scanImports root symbol) style newline target with none | ⟨text, one⟩
    · rw [none]
      exact .nil
    · rw [one]
      exact List.pairwise_singleton _ _
  · intro first atStart later inNodes
    obtain ⟨starts, -, further⟩ := advances.of_mem (List.mem_map_of_mem inNodes)
    obtain ⟨isImport, atZero⟩ := List.mem_filter.mp atStart
    obtain ⟨text, rfl⟩ := insertion_of_mem imported isImport
    have zero : (scanImports root symbol).offset = 0 := by simpa [Patch.insert] using atZero
    rw [zero] at *
    exact Patch.precedes_of_advances (grounded_insert 0 text) (grounded later inNodes)
      (Nat.le_refl 0) (Nat.le_refl 0) starts further

/-- The patches listed in order are the arrangement of patches that can be rendered. -/
theorem Rewrite.arrange_eq_patchesInOrder {size : Nat} (wellFormed : root.WellFormed rewrite.bytes)
    (overloads : rewrite.overloads = overloadSignatures root rewrite.name)
    (chain : Chain 0 size
      ((Patch.arrange (rewrite.rulePatches root ++ imports)).map Patch.edit)) :
    Patch.arrange (rewrite.rulePatches root ++ imports) =
      rewrite.patchesInOrder (rewrite.demotesSignatures root) imports root.children :=
  Rewrite.arrange_eq_of_demotesOnce imported wellFormed overloads
    (Rewrite.demotesOnce_of_chain wellFormed overloads chain)

/-- Insertions at one offset are woven in one after the other. -/
theorem weave_patchesAt (bytes : List UInt8) (offset : Nat) :
    Chain offset offset ((patchesAt imports offset).map Patch.edit)
      ∧ weave bytes offset offset ((patchesAt imports offset).map Patch.edit) =
        (patchesAt imports offset).flatMap fun patch => encode patch.text := by
  have edited :
      ∀ patch ∈ patchesAt imports offset, patch.edit = ⟨offset, offset, encode patch.text⟩ := by
    intro patch member
    obtain ⟨isImport, here⟩ := List.mem_filter.mp member
    obtain ⟨text, rfl⟩ := insertion_of_mem imported isImport
    simp only [Patch.insert, beq_iff_eq] at here
    obtain rfl : (scanImports root symbol).offset = offset := by omega
    rfl
  generalize patchesAt imports offset = insertions at edited
  induction insertions with
  | nil => exact ⟨Nat.le_refl offset, by simp [weave]⟩
  | cons patch rest ih =>
    obtain ⟨chain, woven⟩ := ih fun other later => edited other (List.mem_cons_of_mem _ later)
    rw [List.map_cons, edited patch List.mem_cons_self]
    exact ⟨⟨Nat.le_refl _, Nat.le_refl _, chain⟩, by simp [weave, woven]⟩

theorem Rewrite.weave_nodes {signatures : Bool} {nodes : Forest} {start : Nat}
    (placed : Forest.Placed rewrite.bytes nodes start rewrite.bytes.length)
    (advances : ∀ node ∈ nodes, Advances node.span.start node.span.stop
      ((rewrite.statementPatches signatures node
        ++ patchesAt imports node.span.stop).map Patch.edit)) :
    weave rewrite.bytes start rewrite.bytes.length ((nodes.flatMap fun node =>
        rewrite.statementPatches signatures node
          ++ patchesAt imports node.span.stop).map Patch.edit) =
      rewrite.printed signatures imports nodes start := by
  induction nodes generalizing start with
  | nil => rfl
  | cons node rest ih =>
    obtain ⟨before, here, after⟩ := placed
    have advancesRest := fun other later => advances other (List.mem_cons_of_mem _ later)
    have chainNode := (advances node List.mem_cons_self).chain.of_le_start before
    have chainRest : Chain node.span.stop rewrite.bytes.length ((rest.flatMap fun node =>
        rewrite.statementPatches signatures node
          ++ patchesAt imports node.span.stop).map Patch.edit) := by
      rw [List.map_flatMap]
      exact (advances_flatMap after fun other later _ => advancesRest other later).chain
    obtain ⟨chainImport, wovenImport⟩ := weave_patchesAt imported rewrite.bytes node.span.stop
    have chainEdits : Chain node.span.start node.span.stop (rewrite.edits signatures node) :=
      (Rewrite.advances_edits here).chain
    rw [List.flatMap_cons, List.map_append, Patch.weave_append chainNode chainRest, List.map_append,
      Rewrite.edit_statementPatches here,
      Patch.weave_append (chainEdits.of_le_start before) chainImport,
      Patch.weave_of_le_start before chainEdits, wovenImport, ih after advancesRest]
    rfl

/-- What the patches in order weave is what is printed. -/
theorem Rewrite.weave_patchesInOrder (wellFormed : root.WellFormed rewrite.bytes)
    (signatures : Bool) :
    weave rewrite.bytes 0 rewrite.bytes.length
        ((rewrite.patchesInOrder signatures imports root.children).map Patch.edit) =
      (patchesAt imports 0).flatMap (fun patch => encode patch.text)
        ++ rewrite.printed signatures imports root.children 0 := by
  obtain ⟨chainImport, wovenImport⟩ := weave_patchesAt imported rewrite.bytes 0
  have chain := (Rewrite.advances_patches imported wellFormed signatures).chain
  rw [Rewrite.patchesInOrder, List.map_append, Patch.weave_append chainImport chain, wovenImport,
    Rewrite.weave_nodes imported wellFormed fun node member =>
      Rewrite.advances_node imported wellFormed member]

end Imported

/-- What stands between a keyword and the end of its cut is blank. -/
theorem isBlank_of_mem_slice {bytes : List UInt8} {offset : Nat} {byte : UInt8}
    (member : byte ∈ slice bytes offset (afterBlanks bytes offset)) : isBlank byte = true := by
  have run :
      slice bytes offset (afterBlanks bytes offset) = (bytes.drop offset).takeWhile isBlank := by
    have isPrefix :=
      List.prefix_iff_eq_take.mp (List.takeWhile_prefix isBlank (l := bytes.drop offset))
    rw [isPrefix]
    simp only [slice, afterBlanks, Nat.add_sub_cancel_left]
    rfl
  rw [run] at member
  exact List.mem_takeWhile_imp member

end Order

/-- What a wrap leaves as it was, and what it does to the rest. -/
structure Conserved (rewrite : Rewrite) (root : Node) (imports : List Patch) (output : String) :
    Prop where
  /-- The output is the source, node by node, with the edits of each node and the import. -/
  output_eq : encode output = (patchesAt imports 0).flatMap (fun patch => encode patch.text)
    ++ rewrite.printed (rewrite.demotesSignatures root) imports root.children 0
  /-- The import is put at the start or where a node ends, and inside no node. -/
  imported : ∀ patch ∈ imports, ∃ offset : Nat, patch.start = offset ∧ patch.stop = offset
    ∧ (offset = 0 ∨ ∃ node ∈ root.children, node.span.stop = offset)
    ∧ ∀ node ∈ root.children, ¬ (node.span.start < offset ∧ offset < node.span.stop)
  /-- Only what a rule wraps and the overload signatures are edited. -/
  untouched : ∀ node ∈ root.children, rewrite.fires? node = none →
    exportsSignature rewrite.name node = false →
      rewrite.edits (rewrite.demotesSignatures root) node = []
  /-- The edits of a node stand one behind the other inside it. -/
  ordered : ∀ node ∈ root.children,
    Chain node.span.start node.span.stop (rewrite.edits (rewrite.demotesSignatures root) node)
  /-- What is demoted loses export keywords and the blanks behind them, nothing else. -/
  demoted : ∀ node ∈ root.children, (rewrite.fires? node = some .defaultDeclaration
      ∨ rewrite.fires? node = some .namedFunction ∨ exportsSignature rewrite.name node = true) →
    ∀ edit ∈ rewrite.edits (rewrite.demotesSignatures root) node, edit.start < edit.stop →
      edit.new = [] ∧ ∃ keyword ∈ node.children, keyword.isExportKeyword = true
        ∧ edit.start = keyword.span.start ∧ keyword.span.stop ≤ edit.stop
        ∧ ∀ byte ∈ slice rewrite.bytes keyword.span.stop edit.stop, isBlank byte = true
  /-- Where variables are wrapped, each edit keeps the value of a variable of the name. -/
  wrapped : ∀ node ∈ root.children, rewrite.fires? node = some .namedVariable →
    ∀ edit ∈ rewrite.edits (rewrite.demotesSignatures root) node,
      ∃ declaration declarator value, node.child? .declaration = some declaration
        ∧ declarator ∈ declaration.declarators ∧ rewrite.aim.wrapsDeclarator declarator = true
        ∧ declarator.child? .value = some value
        ∧ edit.start = value.span.start ∧ edit.stop = value.span.stop
        ∧ edit.new = encode (rewrite.symbol ++ "(")
          ++ slice rewrite.bytes value.span.start value.span.stop
          ++ encode (", " ++ Snippet.stringLiteral rewrite.style rewrite.name ++ ")")

section Conserved

variable {rewrite : Rewrite} {root : Node} {signatures : Bool} {node : Node}

theorem cut_of_mem {bytes : List UInt8} {children : Forest} {edit : Edit}
    (member : edit ∈ cuts bytes children) :
    edit.new = [] ∧ ∃ keyword ∈ children, keyword.isExportKeyword = true
      ∧ edit.start = keyword.span.start ∧ keyword.span.stop ≤ edit.stop
      ∧ ∀ byte ∈ slice bytes keyword.span.stop edit.stop, isBlank byte = true := by
  obtain ⟨keyword, isKeyword, rfl⟩ := List.mem_map.mp member
  obtain ⟨isChild, isExport⟩ := List.mem_filter.mp isKeyword
  exact ⟨rfl, keyword, isChild, isExport, rfl, Nat.le_add_right _ _,
    fun byte => isBlank_of_mem_slice⟩

/-- An edit of a demoted statement that takes something away is a cut. -/
theorem Rewrite.mem_cuts {edit : Edit} (member : edit ∈ rewrite.edits signatures node)
    (demoted : rewrite.fires? node = some .defaultDeclaration
      ∨ rewrite.fires? node = some .namedFunction ∨ exportsSignature rewrite.name node = true)
    (removes : edit.start < edit.stop) : edit ∈ cuts rewrite.bytes node.children := by
  have appended : ∀ {text : String},
      edit ∈ cuts rewrite.bytes node.children ++ [rewrite.appendEdit node text] →
        edit ∈ cuts rewrite.bytes node.children := by
    intro text inBoth
    rcases List.mem_append.mp inBoth with cut | added
    · exact cut
    · obtain rfl := List.mem_singleton.mp added
      exact absurd removes (Nat.lt_irrefl _)
  rcases demoted with fires | fires | signature
  · simp only [Rewrite.edits, fires] at member
    exact appended member
  · simp only [Rewrite.edits, fires] at member
    exact appended member
  · simp only [Rewrite.edits, Rewrite.fires?_of_exportsSignature signature] at member
    split at member
    · exact member
    · cases member

theorem Rewrite.mem_valueEdits {edit : Edit} (fires : rewrite.fires? node = some .namedVariable)
    (member : edit ∈ rewrite.edits signatures node) :
    ∃ declaration declarator value, node.child? .declaration = some declaration
      ∧ declarator ∈ declaration.declarators ∧ rewrite.aim.wrapsDeclarator declarator = true
      ∧ declarator.child? .value = some value ∧ edit = rewrite.valueEdit value := by
  simp only [Rewrite.edits, fires, List.mem_flatMap, List.mem_map, Option.mem_toList] at member
  obtain ⟨declarator, isWrapped, value, valued, rfl⟩ := member
  obtain ⟨-, declaration, found, isDeclarator, wraps⟩ := Aim.mem_declarators.mp isWrapped
  exact ⟨declaration, declarator, value, found, isDeclarator, wraps, valued, rfl⟩

/-- The import is inside no node: it stands where one ends, and the others are apart from that
one. -/
theorem offset_not_inside {bytes : List UInt8} (wellFormed : root.WellFormed bytes)
    (member : node ∈ root.children) (symbol : String) :
    ¬ (node.span.start < (scanImports root symbol).offset
      ∧ (scanImports root symbol).offset < node.span.stop) := by
  rintro ⟨after, before⟩
  rcases scanImports_offset root symbol with zero | ⟨anchor, isChild, -, ends⟩
  · omega
  · have nonempty := (wellFormed.of_mem isChild).2.1.nonempty
    have differ : node ≠ anchor := by
      rintro rfl
      omega
    rcases wellFormed.apart member isChild differ with before' | after' <;> omega

end Conserved

/-- The output of a wrap is the source with an import put in at its start or behind a node, export
keywords and the blanks behind them taken out of what is demoted, wrapped values, and generated
exports behind the demoted statements; all other bytes stand in it unchanged and in order. -/
theorem transform_conserves {criteria : Component.Criteria} {style : QuoteStyle}
    {text name output : String} {root : Node} {target : ImportTarget} {rules : List Rule}
    (wellFormed : root.WellFormed (encode text))
    (answer : transform criteria style text root name target = .ok (.wrapped output rules)) :
    Conserved (.of criteria style text root name target.symbol) root
      (importPatches (scanImports root target.symbol) style (Snippet.newlineFor text) target)
      output := by
  obtain ⟨-, rendered, -, -⟩ := transform_eq_wrapped_iff.mp answer
  obtain ⟨chain, woven⟩ := Patch.render_eq_ok rendered
  have placed : root.WellFormed (Rewrite.of criteria style text root name target.symbol).bytes :=
    wellFormed
  refine ⟨?_, ?_, ?_, ?_, ?_, ?_⟩
  · rw [woven, Rewrite.arrange_eq_patchesInOrder rfl placed rfl chain]
    exact Rewrite.weave_patchesInOrder rfl placed _
  · intro patch member
    obtain ⟨_, rfl⟩ := insertion_of_mem rfl member
    refine ⟨_, rfl, rfl, ?_, fun node isChild => offset_not_inside wellFormed isChild target.symbol⟩
    rcases scanImports_offset root target.symbol with zero | ⟨anchor, isChild, -, ends⟩
    · exact .inl zero
    · exact .inr ⟨anchor, isChild, ends.symm⟩
  · intro node _ silent unsigned
    simp [Rewrite.edits, silent, unsigned]
  · intro node member
    exact (Rewrite.advances_edits (wellFormed.of_mem member).2.1).chain
  · intro node _ demoted edit isEdit removes
    exact cut_of_mem (Rewrite.mem_cuts isEdit demoted removes)
  · intro node _ fires edit isEdit
    obtain ⟨declaration, declarator, value, found, isDeclarator, wraps, valued, rfl⟩ :=
      Rewrite.mem_valueEdits fires isEdit
    exact ⟨declaration, declarator, value, found, isDeclarator, wraps, valued, rfl, rfl, rfl⟩

/-- An overloaded function behind an import, with a comment on the import's line. -/
def trailedOverload : String :=
  "import 'a';//b\nexport function A();export  function A()\x7b\x7d"

theorem transform_conserves_overloads :
    ∃ root output rules, Syntax.parse true trailedOverload = some root
      ∧ root.WellFormed (encode trailedOverload)
      ∧ transform .standard .single trailedOverload root "A" ⟨"w", "m"⟩
        = .ok (.wrapped output rules)
      ∧ Conserved (.of .standard .single trailedOverload root "A" "w") root
        (importPatches (scanImports root "w") .single "\n" ⟨"w", "m"⟩) output := by
  have passes : wrapPasses trailedOverload
      (fun root _ _ => decide (root.WellFormed (encode trailedOverload))) = true := by
    decide +kernel
  obtain ⟨root, output, rules, parsed, answer, placed⟩ := exists_of_wrapPasses passes
  have wellFormed := of_decide_eq_true placed
  exact ⟨root, output, rules, parsed, wellFormed, answer, transform_conserves wellFormed answer⟩

end RenderProbe.Wrap
