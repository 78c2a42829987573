import RenderProbe.Proofs.Source.Boundary
import RenderProbe.Proofs.Wrap.Conservation

/-!
# When a wrap fails

The patches of a wrap come from rules that look at one statement each, from the overload signatures
that go with a function, and from the import. In the tree of a source without errors they can meet
in one way only: a function that is wrapped takes the keywords off all overload signatures of its
name, so two such functions would take the same keyword away twice.

* `Rewrite.chain_of_demotesOnce`: otherwise the patches stand one behind the other.
* `Rewrite.onBoundaries_of_mem`: every patch starts and stops between characters.
* `fails_iff_demotes_twice`: hence a wrap fails in that one case, and in no other way.
-/

namespace RenderProbe.Syntax

open Patch (Boundary encode)

/-- The tree of a source without errors: it is placed in the bytes of the source, and no export
statement lacks its keyword. -/
structure Node.ErrorFree (bytes : List UInt8) (root : Node) : Prop where
  wellFormed : root.WellFormed bytes
  exported : ∀ statement ∈ root.children, statement.kind = .exportStatement →
    statement.hasKeyword "export" = true

instance (bytes : List UInt8) (root : Node) : Decidable (root.ErrorFree bytes) :=
  decidable_of_iff (root.WellFormed bytes ∧ ∀ statement ∈ root.children,
      statement.kind = .exportStatement → statement.hasKeyword "export" = true)
    ⟨fun both => ⟨both.1, both.2⟩, fun errorFree => ⟨errorFree.wellFormed, errorFree.exported⟩⟩

/-- A placed node starts and stops between characters. -/
theorem Node.Placed.boundaries {text : String} {node : Node} (placed : node.Placed (encode text))
    (inside : node.span.stop ≤ (encode text).length) :
    Boundary text node.span.start ∧ Boundary text node.span.stop :=
  Patch.boundary_of_spelled placed.nonempty inside placed.spelled

/-- What an offset behind a blank has if the offset before it has it, the offset behind a row of
blanks has. -/
theorem afterBlanks_induction {bytes : List UInt8} {offset : Nat} {motive : Nat → Prop}
    (blank : ∀ offset byte, bytes[offset]? = some byte → isBlank byte = true → motive offset →
      motive (offset + 1)) (start : motive offset) : motive (Wrap.afterBlanks bytes offset) := by
  unfold Wrap.afterBlanks
  generalize behind : bytes.drop offset = rest
  induction rest generalizing offset with
  | nil => exact start
  | cons byte rest ih =>
    rw [List.takeWhile_cons]
    split
    · next isBlank =>
      have found : bytes[offset]? = some byte := by
        rw [← List.head?_drop, behind, List.head?_cons]
      have next : bytes.drop (offset + 1) = rest := by
        rw [← List.drop_drop, behind, List.drop_one, List.tail_cons]
      rw [List.length_cons, Nat.add_comm _ 1, ← Nat.add_assoc]
      exact ih (blank offset byte found isBlank start) next
    · exact start

theorem spelled_blank {byte : UInt8} (blank : isBlank byte = true) : Patch.Spelled [byte] := by
  simp only [isBlank, Bool.or_eq_true, beq_iff_eq] at blank
  rcases blank with rfl | rfl <;> rfl

/-- Blanks are characters of their own, so the offset behind them is a boundary too. -/
theorem boundary_afterBlanks {text : String} {offset : Nat} (boundary : Boundary text offset) :
    Boundary text (Wrap.afterBlanks (encode text) offset) :=
  afterBlanks_induction (fun _ _ found blank _ => Patch.Boundary.succ found (spelled_blank blank))
    boundary

end RenderProbe.Syntax

namespace RenderProbe.Wrap

open Syntax (Node Forest)
open Patch (Edit Chain Boundary encode slice)

section Boundaries

variable {rewrite : Rewrite} {text : String} {statement : Node}

theorem onBoundaries_of_mem_cuts {edit : Edit} (placed : statement.Placed (encode text))
    (inside : statement.span.stop ≤ (encode text).length)
    (member : edit ∈ cuts (encode text) statement.children) : edit.OnBoundaries text := by
  obtain ⟨keyword, isKeyword, rfl⟩ := List.mem_map.mp member
  obtain ⟨-, placed', within⟩ := placed.children.of_mem (List.mem_filter.mp isKeyword).1
  have ends := placed'.boundaries (Nat.le_trans within inside)
  exact ⟨ends.1, Syntax.boundary_afterBlanks ends.2, rfl⟩

theorem onBoundaries_of_demoted {edit : Edit} (placed : statement.Placed (encode text))
    (inside : statement.span.stop ≤ (encode text).length) (added : String)
    (member : edit ∈ cuts (encode text) statement.children
      ++ [rewrite.appendEdit statement added]) : edit.OnBoundaries text := by
  rcases List.mem_append.mp member with cut | appended
  · exact onBoundaries_of_mem_cuts placed inside cut
  · obtain rfl := List.mem_singleton.mp appended
    have stops := (placed.boundaries inside).2
    exact ⟨stops, stops, Patch.spelled_encode _⟩

theorem onBoundaries_of_child {role : Syntax.Role} {child : Node} {new : List UInt8}
    (placed : statement.Placed (encode text))
    (inside : statement.span.stop ≤ (encode text).length)
    (found : statement.child? role = some child) (spelled : Patch.Spelled new) :
    (Edit.mk child.span.start child.span.stop new).OnBoundaries text := by
  obtain ⟨-, placed', within⟩ := placed.child found
  have ends := placed'.boundaries (Nat.le_trans within inside)
  exact ⟨ends.1, ends.2, spelled⟩

/-- Every edit of a top-level node starts and stops between characters. -/
theorem Rewrite.onBoundaries_of_mem_edits {signatures : Bool} {edit : Edit}
    (bytes : rewrite.bytes = encode text) (placed : statement.Placed (encode text))
    (inside : statement.span.stop ≤ (encode text).length)
    (member : edit ∈ rewrite.edits signatures statement) : edit.OnBoundaries text := by
  cases fires : rewrite.fires? statement with
  | none =>
    simp only [Rewrite.edits, fires, bytes] at member
    split at member
    · exact onBoundaries_of_mem_cuts placed inside member
    · cases member
  | some rule =>
    cases rule with
    | defaultDeclaration =>
      simp only [Rewrite.edits, fires, bytes] at member
      exact onBoundaries_of_demoted placed inside _ member
    | namedFunction =>
      simp only [Rewrite.edits, fires, bytes] at member
      exact onBoundaries_of_demoted placed inside _ member
    | defaultIdentifier =>
      simp only [Rewrite.edits, fires, List.mem_map, Option.mem_toList] at member
      obtain ⟨value, found, rfl⟩ := member
      obtain ⟨-, -, valued, -⟩ := Aim.defaultValue?_eq_some.mp found
      exact onBoundaries_of_child placed inside valued (Patch.spelled_encode _)
    | namedVariable =>
      obtain ⟨declaration, declarator, value, found, isDeclarator, -, valued, rfl⟩ :=
        Rewrite.mem_valueEdits fires member
      obtain ⟨-, placedDeclaration, within⟩ := placed.child found
      obtain ⟨-, placedDeclarator, within'⟩ :=
        placedDeclaration.children.of_mem (Node.mem_children_of_mem_declarators isDeclarator)
      have fits : declarator.span.stop ≤ (encode text).length := by omega
      have kept : Patch.Spelled (slice rewrite.bytes value.span.start value.span.stop) := by
        rw [bytes]
        exact (placedDeclarator.child valued).2.1.spelled
      exact onBoundaries_of_child placedDeclarator fits valued
        (((Patch.spelled_encode _).append kept).append (Patch.spelled_encode _))

end Boundaries

section Conflict

variable {rewrite : Rewrite} {text : String} {root : Node} {symbol newline : String}
  {style : QuoteStyle} {target : ImportTarget} {imports : List Patch}
  (imported : importPatches (scanImports root symbol) style newline target = imports)

include imported

/-- The import goes between characters. -/
theorem onBoundaries_of_import {patch : Patch} (wellFormed : root.WellFormed (encode text))
    (member : patch ∈ imports) : patch.edit.OnBoundaries text := by
  obtain ⟨added, rfl⟩ := insertion_of_mem imported member
  have offset : Boundary text (scanImports root symbol).offset := by
    rcases scanImports_offset root symbol with zero | ⟨node, isChild, -, ends⟩
    · rw [zero]
      exact Patch.boundary_zero text
    · obtain ⟨-, placed, inside⟩ := wellFormed.of_mem isChild
      rw [ends]
      exact (placed.boundaries inside).2
  exact ⟨offset, offset, Patch.spelled_encode added⟩

/-- A patch of a wrap that demotes signatures once at most is one of a node, or the import. -/
theorem Rewrite.mem_patches_cases {patch : Patch}
    (wellFormed : root.WellFormed rewrite.bytes)
    (overloads : rewrite.overloads = overloadSignatures root rewrite.name)
    (once : rewrite.DemotesOnce root) (member : patch ∈ rewrite.rulePatches root ++ imports) :
    patch ∈ imports ∨ ∃ node ∈ root.children,
      patch ∈ rewrite.statementPatches (rewrite.demotesSignatures root) node := by
  have placedOnce := patchesAt_append wellFormed imported
  have listed := (Rewrite.perm_patchesInOrder overloads placedOnce once).subset member
  rcases List.mem_append.mp listed with atStart | inNodes
  · exact .inl (List.mem_filter.mp atStart).1
  · obtain ⟨node, isChild, inNode⟩ := List.mem_flatMap.mp inNodes
    rcases List.mem_append.mp inNode with inside | behind
    · exact .inr ⟨node, isChild, inside⟩
    · exact .inl (List.mem_filter.mp behind).1

/-- Every patch of a wrap has its range in the source, and starts and stops between characters. -/
theorem Rewrite.onBoundaries_of_mem {patch : Patch} (bytes : rewrite.bytes = encode text)
    (wellFormed : root.WellFormed (encode text))
    (overloads : rewrite.overloads = overloadSignatures root rewrite.name)
    (once : rewrite.DemotesOnce root) (member : patch ∈ rewrite.rulePatches root ++ imports) :
    patch.Grounded ∧ patch.edit.OnBoundaries text := by
  rcases Rewrite.mem_patches_cases imported (by rwa [bytes]) overloads once member with
    isImport | ⟨node, isChild, inside⟩
  · obtain ⟨added, rfl⟩ := insertion_of_mem imported isImport
    exact ⟨grounded_insert _ added, onBoundaries_of_import imported wellFormed isImport⟩
  · obtain ⟨-, placed, within⟩ := wellFormed.of_mem isChild
    have isEdit := List.mem_map_of_mem (f := Patch.edit) inside
    rw [Rewrite.edit_statementPatches (by rwa [bytes])] at isEdit
    exact ⟨Rewrite.grounded_statementPatches inside,
      Rewrite.onBoundaries_of_mem_edits bytes placed within isEdit⟩

/-- Patches that demote signatures once at most stand one behind the other. -/
theorem Rewrite.chain_of_demotesOnce (wellFormed : root.WellFormed rewrite.bytes)
    (overloads : rewrite.overloads = overloadSignatures root rewrite.name)
    (once : rewrite.DemotesOnce root) :
    Chain 0 rewrite.bytes.length
      ((Patch.arrange (rewrite.rulePatches root ++ imports)).map Patch.edit) := by
  rw [Rewrite.arrange_eq_of_demotesOnce imported wellFormed overloads once, Rewrite.patchesInOrder,
    List.map_append]
  exact (weave_patchesAt imported rewrite.bytes 0).1.append
    (Rewrite.advances_patches imported wellFormed _).chain

end Conflict

/-- The firings of a rule are the top-level nodes on which it fires. -/
theorem Rewrite.count_firing (rewrite : Rewrite) (root : Node) (rule : Rule) :
    ((rewrite.firing root).map (·.2)).count rule =
      root.children.countP fun node => decide (rewrite.fires? node = some rule) := by
  rw [Rewrite.firing_eq]
  induction root.children with
  | nil => rfl
  | cons node rest ih =>
    cases fires : rewrite.fires? node with
    | none => simpa [fires] using ih
    | some other =>
      by_cases same : other = rule <;> simp [fires, same, ih]

/-- An exported overload signature has a keyword to cut. -/
theorem deletions_ne_nil {bytes : List UInt8} {root : Node} {name : String}
    (errorFree : root.ErrorFree bytes) (overloaded : overloadSignatures root name ≠ []) :
    (overloadSignatures root name).flatMap (keywordDeletions bytes) ≠ [] := by
  obtain ⟨signature, member⟩ := List.exists_mem_of_ne_nil _ overloaded
  intro nothing
  have uncut := List.flatMap_eq_nil_iff.mp nothing signature member
  rw [overloadSignatures_eq] at member
  obtain ⟨isChild, isSignature⟩ := List.mem_filter.mp member
  simp only [exportsSignature, Bool.and_eq_true, beq_iff_eq] at isSignature
  have keyword := errorFree.exported signature isChild isSignature.1.1
  obtain ⟨child, isToken, isExport⟩ := List.any_eq_true.mp keyword
  simp only [Bool.and_eq_true, beq_iff_eq] at isExport
  have kept := List.filter_eq_nil_iff.mp (List.map_eq_nil_iff.mp uncut) child isToken
  simp [isExport.1, isExport.2] at kept

/-- Overload signatures are demoted twice if there are some and two functions are wrapped. -/
theorem not_demotesOnce_iff {criteria : Component.Criteria} {style : QuoteStyle}
    {text name symbol : String} {root : Node} (errorFree : root.ErrorFree (encode text)) :
    ¬ (Rewrite.of criteria style text root name symbol).DemotesOnce root ↔
      overloadSignatures root name ≠ []
        ∧ 2 ≤ (((Rewrite.of criteria style text root name symbol).firing root).map (·.2)).count
          .namedFunction := by
  rw [Rewrite.count_firing]
  constructor
  · intro twice
    obtain ⟨something, more⟩ := not_or.mp twice
    refine ⟨?_, Nat.lt_of_not_le more⟩
    rintro none
    exact something (by simp [Rewrite.of, none])
  · rintro ⟨overloaded, more⟩ (nothing | atMostOne)
    · exact deletions_ne_nil errorFree overloaded nothing
    · omega

section Rendering

variable {criteria : Component.Criteria} {style : QuoteStyle} {text name : String} {root : Node}
  {target : ImportTarget}

/-- The patches of a wrap that demotes signatures once at most do not meet and can be rendered. -/
theorem render_of_demotesOnce (wellFormed : root.WellFormed (encode text))
    (once : (Rewrite.of criteria style text root name target.symbol).DemotesOnce root) :
    let patches := (Rewrite.of criteria style text root name target.symbol).rulePatches root
      ++ importPatches (scanImports root target.symbol) style (Snippet.newlineFor text) target
    patches.Pairwise Patch.Compatible ∧ ∃ output,
      Patch.render (encode text) patches = .ok output := by
  intro patches
  have chain : Chain 0 (encode text).length ((Patch.arrange patches).map Patch.edit) :=
    Rewrite.chain_of_demotesOnce rfl wellFormed rfl once
  have known : ∀ patch ∈ patches, patch.Grounded ∧ patch.edit.OnBoundaries text :=
    fun _ member => Rewrite.onBoundaries_of_mem rfl rfl wellFormed rfl once member
  exact ⟨Patch.pairwise_compatible (fun patch member => (known patch member).1) chain,
    Patch.render_of_chain (fun patch member => (known patch member).1)
      (fun patch member => (known patch member).2) chain⟩

/-- The patches of a wrap that demotes signatures twice conflict. -/
theorem render_of_demotesTwice (wellFormed : root.WellFormed (encode text))
    (twice : ¬ (Rewrite.of criteria style text root name target.symbol).DemotesOnce root) :
    ∃ start stop, Patch.render (encode text)
      ((Rewrite.of criteria style text root name target.symbol).rulePatches root
        ++ importPatches (scanImports root target.symbol) style (Snippet.newlineFor text) target) =
      .error (.conflict start stop) := by
  obtain ⟨start, stop, failed⟩ := Patch.apply_of_not_chain fun chain =>
    twice (Rewrite.demotesOnce_of_chain wellFormed rfl chain)
  exact ⟨start, stop, by rw [Patch.render, failed]⟩

/-- A wrap has an answer if its patches can be rendered. -/
theorem transform_of_render {output : String} (rendered : Patch.render (encode text)
      ((Rewrite.of criteria style text root name target.symbol).rulePatches root
        ++ importPatches (scanImports root target.symbol) style (Snippet.newlineFor text) target) =
      .ok output) : ∃ result, transform criteria style text root name target = .ok result := by
  by_cases silent : (Rewrite.of criteria style text root name target.symbol).firing root = []
  · exact ⟨_, transform_of_firing_eq_nil silent⟩
  · rw [transform_of_firing_ne_nil silent, rendered]
    dsimp only
    split
    · exact ⟨_, rfl⟩
    · exact ⟨_, rfl⟩

end Rendering

/-- A wrap fails exactly if the name has an exported overload signature and two functions of the
name are wrapped, and then by a conflict. In every other case the patches do not meet, they can be
rendered, and the wrap has an answer. -/
theorem fails_iff_demotes_twice {criteria : Component.Criteria} {style : QuoteStyle}
    {text name : String} {root : Node} {target : ImportTarget}
    (errorFree : root.ErrorFree (encode text)) :
    let rewrite := Rewrite.of criteria style text root name target.symbol
    let patches := rewrite.rulePatches root
      ++ importPatches (scanImports root target.symbol) style (Snippet.newlineFor text) target
    let demotesTwice := overloadSignatures root name ≠ []
      ∧ 2 ≤ ((rewrite.firing root).map (·.2)).count .namedFunction
    ((∃ start stop,
        transform criteria style text root name target = .error (.conflict start stop)) ↔
          demotesTwice)
      ∧ (¬ demotesTwice → patches.Pairwise Patch.Compatible
        ∧ (∃ output, Patch.render (encode text) patches = .ok output)
        ∧ ∃ result, transform criteria style text root name target = .ok result) := by
  intro rewrite patches demotesTwice
  have twice : ¬ rewrite.DemotesOnce root ↔ demotesTwice := not_demotesOnce_iff errorFree
  have succeeds : ¬ demotesTwice → patches.Pairwise Patch.Compatible
      ∧ (∃ output, Patch.render (encode text) patches = .ok output)
      ∧ ∃ result, transform criteria style text root name target = .ok result := by
    intro notTwice
    have once : rewrite.DemotesOnce root := Classical.not_not.mp (mt twice.mp notTwice)
    obtain ⟨compatible, output, rendered⟩ := render_of_demotesOnce errorFree.wellFormed once
    exact ⟨compatible, ⟨output, rendered⟩, transform_of_render rendered⟩
  refine ⟨⟨?_, ?_⟩, succeeds⟩
  · rintro ⟨start, stop, failed⟩
    refine Classical.byContradiction fun notTwice => ?_
    obtain ⟨-, -, result, answered⟩ := succeeds notTwice
    rw [answered] at failed
    cases failed
  · intro fails
    obtain ⟨start, stop, failed⟩ := render_of_demotesTwice errorFree.wellFormed (twice.mpr fails)
    have fires : rewrite.firing root ≠ [] := by
      intro silent
      have two := fails.2
      simp [silent] at two
    exact ⟨start, stop, by rw [transform_of_firing_ne_nil fires, failed]⟩

/-- A signature with two functions behind it. -/
def twoImplementations : String :=
  "export function A();export function A()\x7b\x7dexport function A()\x7b\x7d"

/-- Both functions take the keyword off the signature. -/
theorem fails_on_two_implementations :
    ∃ root, Syntax.parse true twoImplementations = some root
      ∧ ∃ start stop, transform .standard .single twoImplementations root "A" ⟨"w", "m"⟩ =
        .error (.conflict start stop) := by
  have evaluated : ((Syntax.parse true twoImplementations).any fun root =>
      decide (root.ErrorFree (encode twoImplementations) ∧ overloadSignatures root "A" ≠ []
        ∧ 2 ≤ (((Rewrite.of .standard .single twoImplementations root "A" "w").firing root).map
          (·.2)).count .namedFunction)) = true := by
    decide +kernel
  obtain ⟨root, parsed, holds⟩ := (Option.any_eq_true _ _).mp evaluated
  obtain ⟨errorFree, overloaded, two⟩ := of_decide_eq_true holds
  exact ⟨root, parsed, (fails_iff_demotes_twice errorFree).1.mpr ⟨overloaded, two⟩⟩

end RenderProbe.Wrap
