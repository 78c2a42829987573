import Mathlib.Data.List.Perm.Basic
import RenderProbe.Proofs.Syntax.Placement
import RenderProbe.Proofs.Wrap.EditedTree
import RenderProbe.Proofs.Wrap.ImportScan

/-!
# Patches in the order of the source

The patches of a wrap come from several rules and are sorted by offset before they are spliced in.
Here they are listed from the start of the module to its end: `Rewrite.statementPatches` are those
inside one top-level node, and `Rewrite.edits` says what they do to its bytes.

* `Rewrite.advances_edits`: the edits of a node stand one behind the other inside it.
* `scanImports_offset`: the import goes to the start or to the end of a top-level node.
* `Rewrite.demotesOnce_of_chain`: where patches can be rendered, no overload signature is demoted
  for two functions.
* `Rewrite.perm_patchesInOrder`: listed in order, the patches are then those of the rules and
  the import.
-/

namespace RenderProbe.Wrap

open Syntax (Node Forest isBlank)
open Patch (Edit Chain Advances weave slice encode)

/-! ## Edits of a statement -/

/-- The edits that take away export keywords, each with the blanks after it. -/
def cuts (bytes : List UInt8) (children : Forest) : List Edit :=
  (children.filter Node.isExportKeyword).map fun keyword =>
    ⟨keyword.span.start, afterBlanks bytes keyword.span.stop, []⟩

namespace Rewrite

variable (rewrite : Rewrite)

/-- The edit that adds a text behind a statement. -/
def appendEdit (statement : Node) (text : String) : Edit :=
  ⟨statement.span.stop, statement.span.stop, encode (rewrite.newline ++ text)⟩

/-- The edit that makes a value the first argument of the wrapper. -/
def valueEdit (value : Node) : Edit :=
  ⟨value.span.start, value.span.stop,
    encode (rewrite.symbol ++ "(") ++ slice rewrite.bytes value.span.start value.span.stop
      ++ encode (", " ++ Snippet.stringLiteral rewrite.style rewrite.name ++ ")")⟩

/-- The edits inside a top-level node; `signatures` says whether overload signatures are demoted. -/
def edits (signatures : Bool) (statement : Node) : List Edit :=
  match rewrite.fires? statement with
  | some .defaultDeclaration => cuts rewrite.bytes statement.children
      ++ [rewrite.appendEdit statement
        (Snippet.defaultExport rewrite.style rewrite.symbol rewrite.name)]
  | some .defaultIdentifier => (rewrite.aim.defaultValue? statement).toList.map fun value =>
      ⟨value.span.start, value.span.stop,
        encode (Snippet.wrapCall rewrite.style rewrite.symbol rewrite.name rewrite.name)⟩
  | some .namedVariable => (rewrite.aim.declarators statement).flatMap fun declarator =>
      (declarator.child? .value).toList.map rewrite.valueEdit
  | some .namedFunction => cuts rewrite.bytes statement.children
      ++ [rewrite.appendEdit statement
        (Snippet.namedExport rewrite.style rewrite.symbol rewrite.name)]
  | none =>
    if signatures && exportsSignature rewrite.name statement then
      cuts rewrite.bytes statement.children
    else []

/-- The patches inside a top-level node. -/
def statementPatches (signatures : Bool) (statement : Node) : List Patch :=
  match rewrite.fires? statement with
  | some .namedFunction => keywordDeletions rewrite.bytes statement
      ++ [Patch.insert statement.span.stop (rewrite.newline
        ++ Snippet.namedExport rewrite.style rewrite.symbol rewrite.name)]
  | some rule => rewrite.patches statement rule
  | none =>
    if signatures && exportsSignature rewrite.name statement then
      keywordDeletions rewrite.bytes statement
    else []

end Rewrite

section Edits

variable {rewrite : Rewrite} {signatures : Bool} {statement : Node} {bytes : List UInt8}

theorem edit_keywordDeletions (bytes : List UInt8) (statement : Node) :
    (keywordDeletions bytes statement).map Patch.edit = cuts bytes statement.children := by
  simp only [keywordDeletions, cuts, List.map_map]
  rfl

/-- A wrapped value is its own text between what the wrapper adds. -/
theorem Rewrite.edit_valuePatch {declarator : Node} (placed : declarator.Placed rewrite.bytes) :
    (rewrite.valuePatch declarator).map Patch.edit =
      (declarator.child? .value).toList.map rewrite.valueEdit := by
  cases valued : declarator.child? .value with
  | none => simp [Rewrite.valuePatch, valued]
  | some value =>
    have verbatim := Patch.encode_sliceText (placed.child valued).2.1.spelled
    have spelled : encode (Snippet.wrapCall rewrite.style rewrite.symbol (rewrite.textOf value)
        rewrite.name) = (rewrite.valueEdit value).new := by
      have call :
          Snippet.wrapCall rewrite.style rewrite.symbol (rewrite.textOf value) rewrite.name =
          (rewrite.symbol ++ "(") ++ rewrite.textOf value
            ++ (", " ++ Snippet.stringLiteral rewrite.style rewrite.name ++ ")") := by
        simp only [Snippet.wrapCall, String.append_assoc]
        rfl
      rw [call, Patch.encode_append, Patch.encode_append, Rewrite.textOf, verbatim]
      rfl
    simp only [Rewrite.valuePatch, valued, List.map_cons, List.map_nil, Option.toList_some]
    exact congrArg (fun new => [Edit.mk value.span.start value.span.stop new]) spelled

/-- The declarators that are wrapped in a placed statement are placed. -/
theorem placed_of_mem_declarators {declarator : Node} {aim : Aim} (placed : statement.Placed bytes)
    (member : declarator ∈ aim.declarators statement) : declarator.Placed bytes := by
  obtain ⟨-, declaration, found, isDeclarator, -⟩ := Aim.mem_declarators.mp member
  have isChild := Node.mem_children_of_mem_declarators isDeclarator
  exact ((placed.child found).2.1.children.of_mem isChild).2.1

theorem Rewrite.edit_statementPatches (placed : statement.Placed rewrite.bytes) :
    (rewrite.statementPatches signatures statement).map Patch.edit =
      rewrite.edits signatures statement := by
  cases fires : rewrite.fires? statement with
  | none =>
    simp only [Rewrite.statementPatches, Rewrite.edits, fires]
    split
    · exact edit_keywordDeletions _ _
    · rfl
  | some rule =>
    obtain ⟨-, wraps⟩ := Rewrite.fires?_eq_some_iff.mp fires
    cases rule with
    | defaultDeclaration =>
      obtain ⟨declaration, isWrapped⟩ := List.exists_mem_of_ne_nil _ wraps
      have only : rewrite.aim.wrapped statement .defaultDeclaration = [declaration] := by
        simp only [Aim.wrapped, Option.mem_toList] at isWrapped ⊢
        simp [isWrapped]
      simp only [Rewrite.statementPatches, Rewrite.edits, fires, Rewrite.patches_defaultDeclaration,
        only, List.flatMap_cons, List.flatMap_nil, List.append_nil, List.map_append,
        edit_keywordDeletions]
      rfl
    | defaultIdentifier =>
      simp only [Rewrite.statementPatches, Rewrite.edits, fires, Rewrite.patches_defaultIdentifier,
        Aim.wrapped, List.map_map]
      rfl
    | namedVariable =>
      simp only [Rewrite.statementPatches, Rewrite.edits, fires, Rewrite.patches_namedVariable,
        Aim.wrapped, List.map_flatMap]
      refine List.flatMap_congr fun declarator member => ?_
      exact Rewrite.edit_valuePatch (placed_of_mem_declarators placed member)
    | namedFunction =>
      simp only [Rewrite.statementPatches, Rewrite.edits, fires, List.map_append,
        edit_keywordDeletions]
      rfl

/-! ## Order -/

/-- Edits that advance inside each node of a row advance along the row. -/
theorem advances_flatMap {nodes : Forest} {start stop : Nat} {edits : Node → List Edit}
    (placed : Forest.Placed bytes nodes start stop)
    (inside : ∀ node ∈ nodes, node.Placed bytes →
      Advances node.span.start node.span.stop (edits node)) :
    Advances start stop (nodes.flatMap edits) := by
  induction nodes generalizing start with
  | nil => exact placed
  | cons node rest ih =>
    obtain ⟨before, here, after⟩ := placed
    have first := (inside node List.mem_cons_self here).of_le_start before
    exact first.append (ih after fun other later => inside other (List.mem_cons_of_mem _ later))

/-- The keywords of a statement are cut one behind the other, and something follows the last. -/
theorem advances_cuts {children : Forest} {start stop : Nat} (nonempty : start < stop)
    (placed : Forest.Placed bytes children start stop) (lead : Forest.KeywordsLead bytes children) :
    ∃ middle, middle < stop ∧ Advances start middle (cuts bytes children) := by
  induction children generalizing start with
  | nil => exact ⟨start, nonempty, Nat.le_refl start⟩
  | cons child rest ih =>
    obtain ⟨crisp, last⟩ := lead
    cases rest with
    | nil =>
      have kept : child.isExportKeyword = false := last child rfl
      exact ⟨start, nonempty, by simp [cuts, kept, Advances]⟩
    | cons next others =>
      obtain ⟨before, here, after⟩ := placed
      have lead' : Forest.KeywordsLead bytes (next :: others) :=
        ⟨fun other later => crisp other (List.mem_cons_of_mem _ later), by simpa using last⟩
      obtain ⟨gap, here', -⟩ := id after
      have behind : next.span.start < stop :=
        Nat.lt_of_lt_of_le here'.nonempty (after.of_mem List.mem_cons_self).2.2
      cases keyword : child.isExportKeyword with
      | false =>
        obtain ⟨middle, ends, advances⟩ := ih (Nat.lt_of_le_of_lt gap behind) after lead'
        have moved := advances.of_le_start (Nat.le_trans before (Nat.le_of_lt here.nonempty))
        exact ⟨middle, ends, by simpa [cuts, keyword] using moved⟩
      | true =>
        -- The next node is not blank where it starts, so the cut ends there at the latest.
        have blanks : afterBlanks bytes child.span.stop ≤ next.span.start :=
          Syntax.afterBlanks_le gap (crisp next (by simp))
        have cut : child.span.stop ≤ afterBlanks bytes child.span.stop := Nat.le_add_right _ _
        have nonempty' := here.nonempty
        obtain ⟨middle, ends, advances⟩ :=
          ih (Nat.lt_of_le_of_lt blanks behind) (after.of_le blanks) lead'
        refine ⟨middle, ends, ?_⟩
        have split : cuts bytes (child :: next :: others) =
            ⟨child.span.start, afterBlanks bytes child.span.stop, []⟩
              :: cuts bytes (next :: others) := by
          rw [cuts, List.filter_cons, if_pos keyword]
          rfl
        rw [split]
        exact ⟨before, by simp only; omega, by simp only; omega, advances⟩

/-- What is cut from a statement and what is added behind it stand in order. -/
theorem advances_demoted (placed : statement.Placed bytes)
    (exported : statement.kind = .exportStatement) (new : List UInt8) :
    Advances statement.span.start statement.span.stop (cuts bytes statement.children)
      ∧ Advances statement.span.start statement.span.stop
        (cuts bytes statement.children ++ [⟨statement.span.stop, statement.span.stop, new⟩]) := by
  obtain ⟨middle, ends, advances⟩ :=
    advances_cuts placed.nonempty placed.children (placed.keywordsLead exported)
  exact ⟨advances.of_stop_le (Nat.le_of_lt ends),
    advances.append ⟨Nat.le_of_lt ends, Nat.le_refl _, ends, Nat.le_refl _⟩⟩

/-- An edit of a child stands inside its parent. -/
theorem advances_child {role : Syntax.Role} {child : Node} (placed : statement.Placed bytes)
    (found : statement.child? role = some child) (new : List UInt8) :
    Advances statement.span.start statement.span.stop
      [⟨child.span.start, child.span.stop, new⟩] := by
  obtain ⟨before, here, after⟩ := placed.child found
  exact ⟨before, Nat.le_of_lt here.nonempty, Nat.lt_of_le_of_lt before here.nonempty, after⟩

theorem Rewrite.advances_namedVariable (placed : statement.Placed rewrite.bytes)
    (wraps : rewrite.aim.wrapped statement .namedVariable ≠ []) :
    Advances statement.span.start statement.span.stop
      ((rewrite.aim.declarators statement).flatMap fun declarator =>
        (declarator.child? .value).toList.map rewrite.valueEdit) := by
  obtain ⟨declarator, isWrapped⟩ := List.exists_mem_of_ne_nil _ wraps
  obtain ⟨keyword, declaration, found, isDeclarator, -⟩ := Aim.mem_declarators.mp isWrapped
  obtain ⟨before, here, after⟩ := placed.child found
  have isVariables := Node.kind_of_mem_declarators isDeclarator
  have listed : rewrite.aim.declarators statement = (declaration.children.filter
      (·.kind == .declarator)).filter rewrite.aim.wrapsDeclarator := by
    simp [Aim.declarators, keyword, found, Node.declarators, isVariables]
  have row : Forest.Placed rewrite.bytes (rewrite.aim.declarators statement)
      declaration.span.start declaration.span.stop := by
    rw [listed]
    exact (here.children.filter _).filter _
  have inside : Advances declaration.span.start declaration.span.stop
      ((rewrite.aim.declarators statement).flatMap fun declarator =>
        (declarator.child? .value).toList.map rewrite.valueEdit) := by
    refine advances_flatMap row fun declarator _ placed' => ?_
    cases valued : declarator.child? .value with
    | none => exact Nat.le_of_lt placed'.nonempty
    | some value => exact advances_child placed' valued _
  exact (inside.of_le_start before).of_stop_le after

/-- The edits of a node stand one behind the other inside it. Each rule has a case of its own, which
lists its edits in the order of the text. -/
theorem Rewrite.advances_edits (placed : statement.Placed rewrite.bytes) :
    Advances statement.span.start statement.span.stop (rewrite.edits signatures statement) := by
  cases fires : rewrite.fires? statement with
  | none =>
    simp only [Rewrite.edits, fires]
    split
    · next signature =>
      simp only [exportsSignature, Bool.and_eq_true, beq_iff_eq] at signature
      exact (advances_demoted placed signature.2.1.1 []).1
    · exact Nat.le_of_lt placed.nonempty
  | some rule =>
    obtain ⟨exported, wraps⟩ := Rewrite.fires?_eq_some_iff.mp fires
    cases rule with
    | defaultDeclaration =>
      simp only [Rewrite.edits, fires]
      exact (advances_demoted placed exported _).2
    | namedFunction =>
      simp only [Rewrite.edits, fires]
      exact (advances_demoted placed exported _).2
    | namedVariable =>
      simp only [Rewrite.edits, fires]
      exact Rewrite.advances_namedVariable placed wraps
    | defaultIdentifier =>
      obtain ⟨value, replaces⟩ := List.exists_mem_of_ne_nil _ wraps
      have found := Option.mem_toList.mp replaces
      obtain ⟨-, -, valued, -⟩ := Aim.defaultValue?_eq_some.mp found
      simp only [Rewrite.edits, fires, Option.mem_def.mp found, Option.toList_some, List.map_cons,
        List.map_nil]
      exact advances_child placed valued _

end Edits

/-! ## The import -/

/-- A node behind which an import may go: an import, a comment, a hash-bang line or a directive. -/
def mayPrecedeImport (node : Node) : Bool :=
  node.kind == .importStatement || node.kind == .comment || node.kind == .hashBang
    || isDirective node

/-- The import goes to the start of a module or behind one of its top-level nodes. -/
theorem scanImports_offset (root : Node) (symbol : String) :
    (scanImports root symbol).offset = 0
      ∨ ∃ node ∈ root.children, mayPrecedeImport node = true
          ∧ (scanImports root symbol).offset = node.span.stop := by
  unfold scanImports
  have isChild : ∀ node ∈ root.namedChildren, node ∈ root.children :=
    fun node member => (List.mem_filter.mp member).1
  split
  · next statement behind found =>
    obtain ⟨before, isRow, isImport, -⟩ := lastImport?_eq_some found
    obtain ⟨trailing, after, rfl, trails, -, ends⟩ := endOfComments_eq_stop statement behind
    have isLast := lastOf_mem statement trailing
    refine .inr ⟨lastOf statement trailing, isChild _ ?_, ?_, ends⟩
    · rw [isRow, ← List.cons_append]
      exact List.mem_append_right _ (List.mem_append_left _ isLast)
    · rcases List.mem_cons.mp isLast with same | inTrailing
      · simp [mayPrecedeImport, same, isImport]
      · simp [mayPrecedeImport, trails.isComment _ inTrailing]
  · obtain ⟨prologue, others, longest,
      ⟨here, -⟩ | ⟨earlier, last, comments, rfl, leads, -, here⟩⟩ :=
      endOfPrologue_eq_stop 0 root.namedChildren
    · exact .inl here
    · refine .inr ⟨last, isChild _ (longest.split ▸ by simp), ?_, here⟩
      rcases leads with hashBang | directive
      · simp [mayPrecedeImport, hashBang]
      · simp [mayPrecedeImport, isDirective_iff.mpr directive]

/-- No edit is made in a node that the import may go behind. -/
theorem Rewrite.statementPatches_of_mayPrecedeImport {rewrite : Rewrite} {signatures : Bool}
    {node : Node} (may : mayPrecedeImport node = true) :
    rewrite.statementPatches signatures node = [] := by
  have notExport : node.kind ≠ .exportStatement := by
    intro exported
    simp [mayPrecedeImport, isDirective, exported] at may
  simp [Rewrite.statementPatches, Rewrite.fires?, exportsSignature, notExport]

/-! ## All patches in order -/

/-- The patches of a list that start at an offset. -/
def patchesAt (patches : List Patch) (offset : Nat) : List Patch :=
  patches.filter (·.start == offset)

/-- The patches of a module from its start to its end: those that insert the import stand at the
start or behind the node that they go behind. -/
def Rewrite.patchesInOrder (rewrite : Rewrite) (signatures : Bool) (imports : List Patch)
    (nodes : Forest) : List Patch :=
  patchesAt imports 0 ++ nodes.flatMap fun node =>
    rewrite.statementPatches signatures node ++ patchesAt imports node.span.stop

theorem importPatches_eq (imports : ImportState) (style : QuoteStyle) (newline : String)
    (target : ImportTarget) :
    importPatches imports style newline target = []
      ∨ ∃ text, importPatches imports style newline target
        = [Patch.insert imports.offset text] := by
  unfold importPatches
  split
  · exact .inl rfl
  · exact .inr ⟨_, rfl⟩

theorem patchesAt_insert (offset other : Nat) (text : String) :
    patchesAt [Patch.insert offset text] other =
      if offset = other then [Patch.insert offset text] else [] := by
  by_cases same : offset = other
  · simp [patchesAt, Patch.insert, same]
  · have differ : ((offset : Int) == (other : Int)) = false := by
      simp only [beq_eq_false_iff_ne, ne_eq, Int.natCast_inj]
      exact same
    simp [patchesAt, Patch.insert, same, differ]

/-- Exactly one node of a placed row ends where a node of it ends. So an import behind a node has
one place in the order of all patches. -/
theorem flatMap_patchesAt {bytes : List UInt8} {nodes : Forest} {start stop : Nat} {node : Node}
    (placed : Forest.Placed bytes nodes start stop) (member : node ∈ nodes) (text : String) :
    (nodes.flatMap fun other => patchesAt [Patch.insert node.span.stop text] other.span.stop) =
      [Patch.insert node.span.stop text] := by
  induction nodes generalizing start with
  | nil => cases member
  | cons first rest ih =>
    obtain ⟨-, here, after⟩ := placed
    rw [List.flatMap_cons, patchesAt_insert]
    rcases List.mem_cons.mp member with rfl | later
    · have none : (rest.flatMap fun other =>
          patchesAt [Patch.insert node.span.stop text] other.span.stop) = [] := by
        refine List.flatMap_eq_nil_iff.mpr fun other inRest => ?_
        obtain ⟨behind, placed', -⟩ := after.of_mem inRest
        have nonempty := placed'.nonempty
        rw [patchesAt_insert, if_neg (by omega)]
      rw [if_pos rfl, none]
      rfl
    · obtain ⟨behind, placed', -⟩ := after.of_mem later
      have nonempty := placed'.nonempty
      rw [if_neg (by omega), ih after later]
      rfl

/-- The import has one place among the nodes of a module. -/
theorem patchesAt_append {bytes : List UInt8} {root : Node} {symbol newline : String}
    {style : QuoteStyle} {target : ImportTarget} {imports : List Patch}
    (wellFormed : root.WellFormed bytes)
    (imported : importPatches (scanImports root symbol) style newline target = imports) :
    patchesAt imports 0 ++ (root.children.flatMap fun node => patchesAt imports node.span.stop) =
      imports := by
  subst imported
  rcases importPatches_eq (scanImports root symbol) style newline target with none | ⟨text, one⟩
  · simp [none, patchesAt]
  · rw [one]
    rcases scanImports_offset root symbol with zero | ⟨node, member, -, ends⟩
    · have none : (root.children.flatMap fun node =>
          patchesAt [Patch.insert 0 text] node.span.stop) = [] := by
        refine List.flatMap_eq_nil_iff.mpr fun node member => ?_
        have nonempty := (wellFormed.of_mem member).2.1.nonempty
        rw [patchesAt_insert, if_neg (by omega)]
      rw [zero, none, patchesAt_insert, if_pos rfl, List.append_nil]
    · have nonempty := (wellFormed.of_mem member).2.1.nonempty
      rw [ends, flatMap_patchesAt wellFormed member, patchesAt_insert, if_neg (by omega)]
      rfl

section Rules

variable {rewrite : Rewrite} {root : Node}

theorem isNamed_of_exported {node : Node} (exported : node.kind = .exportStatement) :
    node.isNamed = true := by
  simp [Node.isNamed, exported]

/-- Rules look at all children: keywords and marks are no export statements. -/
theorem Rewrite.firing_eq (rewrite : Rewrite) (root : Node) :
    rewrite.firing root = root.children.filterMap fun statement =>
      (rewrite.fires? statement).map fun rule => (statement, rule) := by
  rw [Rewrite.firing, Node.namedChildren, List.filterMap_filter]
  refine List.filterMap_congr fun node _ => ?_
  cases fires : rewrite.fires? node with
  | none => simp
  | some rule => simp [isNamed_of_exported (Rewrite.fires?_eq_some_iff.mp fires).1]

theorem overloadSignatures_eq (root : Node) (name : String) :
    overloadSignatures root name = root.children.filter (exportsSignature name) := by
  rw [overloadSignatures, Node.namedChildren, List.filter_filter]
  refine List.filter_congr fun node _ => ?_
  cases signature : exportsSignature name node with
  | false => rfl
  | true =>
    simp only [exportsSignature, Bool.and_eq_true, beq_iff_eq] at signature
    simp [isNamed_of_exported signature.1.1]

theorem Rewrite.rulePatches_eq (rewrite : Rewrite) (root : Node) :
    rewrite.rulePatches root = root.children.flatMap fun node =>
      (rewrite.fires? node).toList.flatMap (rewrite.patches node) := by
  rw [Rewrite.rulePatches, Rewrite.firing_eq]
  induction root.children with
  | nil => rfl
  | cons node rest ih => cases fires : rewrite.fires? node <;> simp [fires, ih]

/-- No rule fires on the export of a signature. -/
theorem Rewrite.fires?_signature {node declaration : Node}
    (found : node.child? .declaration = some declaration)
    (isSignature : declaration.kind = .functionSignature) : rewrite.fires? node = none := by
  refine Rewrite.fires?_eq_none_iff.mpr fun _ rule => ?_
  cases rule <;>
    simp [Aim.wrapped, Aim.defaultDeclaration?, Aim.defaultValue?, Aim.declarators, Aim.function?,
      found, Node.declarators, isSignature, Option.filter_some, Aim.acceptsFunction,
      defaultFunctionOrClass?, Declaration.isClassKind]

theorem Rewrite.fires?_of_exportsSignature {node : Node}
    (signature : exportsSignature rewrite.name node = true) : rewrite.fires? node = none := by
  obtain ⟨-, -, declaration, found, isSignature, -⟩ := of_exportsSignature signature
  exact Rewrite.fires?_signature found isSignature

/-- The patches of a statement are those inside it, and for a named function those of the overload
signatures. -/
theorem Rewrite.patches_of_fires (node : Node) :
    (rewrite.fires? node).toList.flatMap (rewrite.patches node) =
      (if rewrite.fires? node = some .namedFunction then
        rewrite.overloads.flatMap (keywordDeletions rewrite.bytes) else [])
      ++ rewrite.statementPatches false node := by
  cases fires : rewrite.fires? node with
  | none => simp [Rewrite.statementPatches, fires]
  | some rule =>
    cases rule with
    | namedFunction =>
      obtain ⟨-, wraps⟩ := Rewrite.fires?_eq_some_iff.mp fires
      obtain ⟨declaration, isWrapped⟩ := List.exists_mem_of_ne_nil _ wraps
      have only : rewrite.aim.wrapped node .namedFunction = [declaration] := by
        simp only [Aim.wrapped, Option.mem_toList] at isWrapped ⊢
        simp [isWrapped]
      simp [Rewrite.statementPatches, fires, Rewrite.patches_namedFunction, only]
    | defaultDeclaration => simp [Rewrite.statementPatches, fires]
    | defaultIdentifier => simp [Rewrite.statementPatches, fires]
    | namedVariable => simp [Rewrite.statementPatches, fires]

theorem Rewrite.statementPatches_true (node : Node) :
    rewrite.statementPatches true node =
      (if exportsSignature rewrite.name node then keywordDeletions rewrite.bytes node else [])
        ++ rewrite.statementPatches false node := by
  cases signature : exportsSignature rewrite.name node with
  | false => cases fires : rewrite.fires? node <;> simp [Rewrite.statementPatches, fires, signature]
  | true =>
    have none := Rewrite.fires?_of_exportsSignature signature
    simp [Rewrite.statementPatches, none, signature]

theorem Rewrite.demotesSignatures_eq_any (rewrite : Rewrite) (root : Node) :
    rewrite.demotesSignatures root =
      root.children.any fun node => decide (rewrite.fires? node = some .namedFunction) := by
  rw [Rewrite.demotesSignatures, Rewrite.firing_eq, List.any_filterMap]
  congr 1
  funext node
  cases rewrite.fires? node with
  | none => rfl
  | some rule => cases rule <;> rfl

/-- The keywords of overload signatures, node by node. -/
theorem overloadSignatures_flatMap (root : Node) (name : String) (bytes : List UInt8) :
    (overloadSignatures root name).flatMap (keywordDeletions bytes) = root.children.flatMap
      fun node =>
      if exportsSignature name node then keywordDeletions bytes node else [] := by
  rw [overloadSignatures_eq]
  induction root.children with
  | nil => rfl
  | cons node rest ih => cases signature : exportsSignature name node <;> simp [signature, ih]

theorem flatMap_ite_const (nodes : Forest) (test : Node → Prop) [DecidablePred test]
    (patches : List Patch) :
    (nodes.flatMap fun node => if test node then patches else []) =
      (List.replicate (nodes.countP fun node => decide (test node)) patches).flatten := by
  induction nodes with
  | nil => rfl
  | cons node rest ih =>
    by_cases passes : test node <;> simp [passes, ih, List.replicate_succ]

/-- A patch that takes something away occurs at most once among patches that can be rendered. -/
theorem count_le_one {patches : List Patch} {patch : Patch} {size : Nat}
    (chain : Chain 0 size ((Patch.arrange patches).map Patch.edit))
    (removes : patch.edit.start < patch.edit.stop) : patches.count patch ≤ 1 := by
  refine Nat.le_of_not_lt fun twice => ?_
  rw [← (Patch.arrange_perm patches).count_eq] at twice
  have pair : [patch, patch].Sublist (Patch.arrange patches) :=
    List.replicate_sublist_iff.mpr twice
  have apart := (chain.pairwise.sublist (pair.map Patch.edit))
  simp only [List.map_cons, List.map_nil, List.pairwise_cons, List.mem_singleton,
    forall_eq] at apart
  omega

/-- A cut takes its keyword away. -/
theorem removes_of_mem_keywordDeletions {bytes : List UInt8} {statement : Node} {patch : Patch}
    (placed : statement.Placed bytes) (member : patch ∈ keywordDeletions bytes statement) :
    patch.edit.start < patch.edit.stop := by
  obtain ⟨keyword, isKeyword, rfl⟩ := List.mem_map.mp member
  have nonempty := (placed.children.of_mem (List.mem_filter.mp isKeyword).1).2.1.nonempty
  exact Nat.lt_of_lt_of_le nonempty (Nat.le_add_right _ _)

/-- Overload signatures have keywords to cut for at most one function. -/
def Rewrite.DemotesOnce (rewrite : Rewrite) (root : Node) : Prop :=
  rewrite.overloads.flatMap (keywordDeletions rewrite.bytes) = []
    ∨ (root.children.countP fun node => decide (rewrite.fires? node = some .namedFunction)) ≤ 1

/-- Signatures that are demoted once at most are demoted if some function is. -/
theorem Rewrite.flatMap_overloads (once : rewrite.DemotesOnce root) :
    (root.children.flatMap fun node => if rewrite.fires? node = some .namedFunction then
        rewrite.overloads.flatMap (keywordDeletions rewrite.bytes) else []) =
      if rewrite.demotesSignatures root then
        rewrite.overloads.flatMap (keywordDeletions rewrite.bytes) else [] := by
  rcases once with nothing | atMostOne
  · simp [nothing]
  · rw [flatMap_ite_const, Rewrite.demotesSignatures_eq_any]
    match count : root.children.countP fun node =>
        decide (rewrite.fires? node = some .namedFunction) with
    | 0 =>
      have none : (root.children.any fun node =>
          decide (rewrite.fires? node = some .namedFunction)) = false := by
        rw [List.any_eq_false]
        exact List.countP_eq_zero.mp count
      simp [none]
    | 1 =>
      have some : (root.children.any fun node =>
          decide (rewrite.fires? node = some .namedFunction)) = true := by
        rw [List.any_eq_true, ← List.countP_pos_iff, count]
        exact Nat.one_pos
      simp [some]
    | more + 2 => omega

/-- The patches of the rules, with those of the overload signatures apart. -/
theorem Rewrite.rulePatches_perm (rewrite : Rewrite) (root : Node) :
    (rewrite.rulePatches root).Perm
      ((root.children.flatMap fun node => if rewrite.fires? node = some .namedFunction then
          rewrite.overloads.flatMap (keywordDeletions rewrite.bytes) else [])
        ++ root.children.flatMap (rewrite.statementPatches false)) := by
  have listed : rewrite.rulePatches root = root.children.flatMap fun node =>
      (if rewrite.fires? node = some .namedFunction then
        rewrite.overloads.flatMap (keywordDeletions rewrite.bytes) else [])
      ++ rewrite.statementPatches false node := by
    rw [Rewrite.rulePatches_eq]
    exact List.flatMap_congr fun node _ => Rewrite.patches_of_fires node
  rw [listed]
  exact (List.flatMap_append_perm root.children _ _).symm

/-- Where patches can be rendered, the overload signatures are demoted once if at all. -/
theorem Rewrite.demotesOnce_of_chain {imports : List Patch} {size : Nat}
    (wellFormed : root.WellFormed rewrite.bytes)
    (overloads : rewrite.overloads = overloadSignatures root rewrite.name)
    (chain : Chain 0 size
      ((Patch.arrange (rewrite.rulePatches root ++ imports)).map Patch.edit)) :
    rewrite.DemotesOnce root := by
  refine Classical.or_iff_not_imp_left.mpr fun something => Nat.le_of_not_lt fun twice => ?_
  obtain ⟨patch, member⟩ := List.exists_mem_of_ne_nil _ something
  obtain ⟨signature, isSignature, isDeletion⟩ := List.mem_flatMap.mp member
  rw [overloads, overloadSignatures_eq] at isSignature
  have placed := (wellFormed.of_mem (List.mem_filter.mp isSignature).1).2.1
  have once := count_le_one chain (removes_of_mem_keywordDeletions placed isDeletion)
  -- Two functions that both demote the signatures would cut the same keyword twice.
  rw [List.count_append, (rewrite.rulePatches_perm root).count_eq, List.count_append,
    flatMap_ite_const, List.count_flatten, List.map_replicate, List.sum_replicate_nat] at once
  have positive := List.count_pos_iff.mpr member
  have more := Nat.mul_le_mul twice positive
  omega

/-- The patches of the rules are those inside the nodes of a module. -/
theorem Rewrite.rulePatches_perm_statements
    (overloads : rewrite.overloads = overloadSignatures root rewrite.name)
    (once : rewrite.DemotesOnce root) :
    (rewrite.rulePatches root).Perm
      (root.children.flatMap (rewrite.statementPatches (rewrite.demotesSignatures root))) := by
  have perm := rewrite.rulePatches_perm root
  rw [Rewrite.flatMap_overloads once] at perm
  cases demotes : rewrite.demotesSignatures root with
  | false => simpa [demotes] using perm
  | true =>
    rw [demotes, if_pos rfl, overloads, overloadSignatures_flatMap] at perm
    refine perm.trans ((List.flatMap_append_perm root.children _ _).trans (.of_eq ?_))
    exact List.flatMap_congr fun node _ => (Rewrite.statementPatches_true node).symm

/-- The patches of a module are those that stand in its nodes from its start to its end. The rules
list those of signatures first, which only the order shows. -/
theorem Rewrite.perm_patchesInOrder {imports : List Patch}
    (overloads : rewrite.overloads = overloadSignatures root rewrite.name)
    (placedOnce : patchesAt imports 0 ++ (root.children.flatMap fun node =>
      patchesAt imports node.span.stop) = imports)
    (once : rewrite.DemotesOnce root) :
    (rewrite.rulePatches root ++ imports).Perm
      (rewrite.patchesInOrder (rewrite.demotesSignatures root) imports root.children) := by
  have rules := Rewrite.rulePatches_perm_statements overloads once
  refine (rules.append_right imports).trans ?_
  have split : root.children.flatMap (rewrite.statementPatches (rewrite.demotesSignatures root))
      ++ imports = root.children.flatMap
        (rewrite.statementPatches (rewrite.demotesSignatures root))
      ++ (patchesAt imports 0 ++ root.children.flatMap fun node =>
        patchesAt imports node.span.stop) := by
    rw [placedOnce]
  rw [split]
  refine (List.perm_append_comm_assoc _ _ _).trans ?_
  exact (List.flatMap_append_perm root.children _ _).append_left _

end Rules

end RenderProbe.Wrap
