import RenderProbe.Proofs.Wrap.Landmarks

/-!
# The second wrap

A wrap of another name, on the text that a first wrap has written, makes the edits that it would
make in the source, each where the first wrap has moved it.

* `afterBlanks_moved`: a statement that the first wrap has no edit in moves as a whole.
* `Rewrite.edits_moved`: the edits of one statement in the second wrap.
* `ReadsAsEdited.edits_moved`: the edits of the module.
-/

namespace RenderProbe.Patch

variable {bytes : List UInt8} {edits : List Edit} {start stop offset : Nat}

/-- A run that ends within the front of a list is the same whatever follows the front. -/
theorem takeWhile_append_of_lt {test : UInt8 → Bool} {front back : List UInt8}
    (ends : ((front ++ back).takeWhile test).length < front.length) (other : List UInt8) :
    (front ++ other).takeWhile test = (front ++ back).takeWhile test := by
  have stops : ¬ (front.takeWhile test).length = front.length := by
    intro whole
    rw [List.takeWhile_append, if_pos whole, List.length_append] at ends
    omega
  rw [List.takeWhile_append, if_neg stops, List.takeWhile_append, if_neg stops]

/-- The blanks behind an offset of a stretch that no edit meets move with it, if the stretch goes on
behind them. -/
theorem afterBlanks_moved (row : Row bytes.length edits) (clear : Clear edits start stop)
    (inside : stop ≤ bytes.length) (gt : start < offset)
    (ends : Wrap.afterBlanks bytes offset < stop) :
    Wrap.afterBlanks (weave bytes 0 bytes.length edits) (stopAfter bytes edits offset) =
      stopAfter bytes edits (Wrap.afterBlanks bytes offset) := by
  have reach : offset ≤ Wrap.afterBlanks bytes offset := Nat.le_add_right _ _
  have before := stopAfter_of_clear row clear inside gt (by omega)
  have behind := stopAfter_of_clear row clear inside (by omega) (Nat.le_of_lt ends)
  obtain ⟨rest, stands⟩ := copied row clear (by omega) inside
  have there : (weave bytes 0 bytes.length edits).drop (stopAfter bytes edits offset) =
      slice bytes offset stop ++ rest := by
    have length : (slice bytes start offset).length = offset - start := length_slice (by omega)
    rw [before, ← List.drop_drop, stands, ← slice_append bytes (Nat.le_of_lt gt) (by omega),
      List.append_assoc, ← length, List.drop_left]
  have here : bytes.drop offset = slice bytes offset stop ++ slice bytes stop bytes.length := by
    rw [slice_append bytes (by omega) inside, slice, List.take_of_length_le (by simp)]
  have short : ((slice bytes offset stop ++ slice bytes stop bytes.length).takeWhile
      fun byte => byte == 32 || byte == 9).length < (slice bytes offset stop).length := by
    rw [← here, length_slice inside]
    unfold Wrap.afterBlanks at ends
    omega
  have run := congrArg List.length (takeWhile_append_of_lt short rest)
  rw [← here, ← there] at run
  rw [behind, Wrap.afterBlanks, run, before]
  unfold Wrap.afterBlanks
  omega

end RenderProbe.Patch

namespace RenderProbe.Wrap

open Syntax (Node Span)
open Patch (Edit Row Clear weave slice encode startAfter stopAfter)

/-- The rules that append an export. -/
def Rule.appends (rule : Rule) : Bool :=
  rule == .defaultDeclaration || rule == .namedFunction

/-- The same wrap on a text, and on the text with edits made. The two agree on the name, the wrapper
and the criteria, and read different bytes. -/
structure Rewrite.CarriedTo (other other' : Rewrite) (edits : List Edit) : Prop where
  aim : other'.aim = other.aim
  style : other'.style = other.style
  bytes : other'.bytes = weave other.bytes 0 other.bytes.length edits

section Statement

variable {rewrite other other' : Rewrite} {edits : List Edit} {statement read : Node}
  {signatures : Bool}

/-- The keywords of a statement in which no edit was made are cut where they have moved to. -/
theorem cuts_moved {bytes : List UInt8} (row : Row bytes.length edits)
    (clear : Clear edits statement.span.start statement.span.stop)
    (placed : statement.Placed bytes) (exported : statement.kind = .exportStatement)
    (inside : statement.span.stop ≤ bytes.length)
    (landmarks : read.landmarks Span.range = statement.landmarks (Span.moved bytes edits)) :
    cuts (weave bytes 0 bytes.length edits) read.children =
      (cuts bytes statement.children).map (Edit.moved bytes edits) := by
  have keywords := congrArg Syntax.Landmarks.keywords landmarks
  simp only [Node.landmarks] at keywords
  have cutAt : ∀ (bytes : List UInt8) (children : List Node), cuts bytes children =
      ((children.filter Node.isExportKeyword).map (Span.range ·.span)).map
        fun range => ⟨range.1, afterBlanks bytes range.2, []⟩ := by
    intro bytes children
    rw [List.map_map]
    rfl
  obtain ⟨middle, ends, advances⟩ :=
    advances_cuts placed.nonempty placed.children (placed.keywordsLead exported)
  rw [cutAt, keywords, cuts, List.map_map, List.map_map]
  refine List.map_congr_left fun keyword isKeyword => ?_
  have isCut : Edit.mk keyword.span.start (afterBlanks bytes keyword.span.stop) [] ∈
      cuts bytes statement.children := List.mem_map_of_mem isKeyword
  have before := ((Row.of_advances advances).bounded _ isCut).2
  obtain ⟨starts, placed', -⟩ := placed.children.of_mem (List.mem_filter.mp isKeyword).1
  have blanks := Patch.afterBlanks_moved row clear inside
    (Nat.lt_of_le_of_lt starts placed'.nonempty) (Nat.lt_of_le_of_lt before ends)
  simp only [Function.comp_apply, Span.moved, blanks]
  rfl

/-- What is appended to a statement goes where its end has moved to. -/
theorem Rewrite.appendEdit_moved {added : String}
    (row : Row other.bytes.length edits) (newline : other'.newline = other.newline)
    (apart : ∀ made ∈ edits, (other.appendEdit statement added).Apart made)
    (landmarks : read.landmarks Span.range = statement.landmarks (Span.moved other.bytes edits)) :
    other'.appendEdit read added =
      Edit.moved other.bytes edits (other.appendEdit statement added) := by
  have stop : read.span.stop = stopAfter other.bytes edits statement.span.stop :=
    congrArg Syntax.Landmarks.stop landmarks
  have start : startAfter other.bytes edits statement.span.stop =
      stopAfter other.bytes edits statement.span.stop := by
    refine Patch.startAfter_eq_stopAfter fun made member => ?_
    have fits := (row.bounded made member).1
    rcases apart made member with ⟨behind, further⟩ | ⟨before, further⟩ <;>
      simp only [Rewrite.appendEdit] at * <;> omega
  simp only [Rewrite.appendEdit, Edit.moved, stop, start, newline]

/-- A value is wrapped where it has moved to, with the text that it had. -/
theorem Rewrite.valueEdit_moved {value value' : Node} (carried : other.CarriedTo other' edits)
    (row : Row other.bytes.length edits) (placed : value.Placed other.bytes)
    (inside : value.span.stop ≤ other.bytes.length)
    (apart : ∀ made ∈ edits, (other.valueEdit value).Apart made)
    (range : value'.span.range = value.span.moved other.bytes edits) :
    other'.valueEdit value' = Edit.moved other.bytes edits (other.valueEdit value) := by
  have clear : Clear edits value.span.start value.span.stop := by
    intro made member
    rcases apart made member with ⟨before, -⟩ | ⟨behind, -⟩
    · exact .inr before
    · exact .inl behind
  have symbol : other'.symbol = other.symbol := congrArg Aim.symbol carried.aim
  have name : other'.name = other.name := congrArg Aim.name carried.aim
  have start : value'.span.start = startAfter other.bytes edits value.span.start :=
    congrArg Prod.fst range
  have stop : value'.span.stop = stopAfter other.bytes edits value.span.stop :=
    congrArg Prod.snd range
  simp only [Rewrite.valueEdit, Edit.moved, symbol, name, start, stop, carried.style, carried.bytes,
    Patch.slice_of_clear row clear placed.nonempty inside]

/-- Where variables are wrapped, these are the exported ones of the name. -/
theorem Aim.declarators_of_fires (fires : other.fires? statement = some .namedVariable) :
    other.aim.declarators statement =
      statement.exportedDeclarators.filter other.aim.wrapsDeclarator := by
  obtain ⟨-, wraps⟩ := Rewrite.fires?_eq_some_iff.mp fires
  obtain ⟨declarator, isWrapped⟩ := List.exists_mem_of_ne_nil _ wraps
  obtain ⟨keyword, declaration, found, -⟩ := Aim.mem_declarators.mp isWrapped
  simp [Aim.declarators, Node.exportedDeclarators, keyword, found]

/-- The values of the variables of a name are wrapped where they have moved to. -/
theorem Rewrite.valueEdits_moved (carried : other.CarriedTo other' edits)
    (row : Row other.bytes.length edits) (placed : statement.Placed other.bytes)
    (inside : statement.span.stop ≤ other.bytes.length)
    (landmarks : read.landmarks Span.range = statement.landmarks (Span.moved other.bytes edits))
    (fires : other.fires? statement = some .namedVariable)
    (fires' : other'.fires? read = some .namedVariable)
    (wraps : read.exportedDeclarators.map other.aim.wrapsDeclarator =
      statement.exportedDeclarators.map other.aim.wrapsDeclarator)
    (apart : ∀ edit ∈ (other.aim.declarators statement).flatMap fun declarator =>
      (declarator.child? .value).toList.map other.valueEdit, ∀ made ∈ edits, edit.Apart made) :
    ((other'.aim.declarators read).flatMap fun declarator =>
        (declarator.child? .value).toList.map other'.valueEdit) =
      ((other.aim.declarators statement).flatMap fun declarator =>
        (declarator.child? .value).toList.map other.valueEdit).map
          (Edit.moved other.bytes edits) := by
  have ranges := congrArg Syntax.Landmarks.values landmarks
  have all := List.Forall₂.mp (fun _ _ => And.intro) (forall₂_of_map_eq wraps.symm)
    (forall₂_of_map_eq ranges.symm)
  have related := List.rel_filter (fun _ _ both => Bool.eq_iff_iff.mp both.1) all
  have listed : read.exportedDeclarators.filter other.aim.wrapsDeclarator =
      other'.aim.declarators read := by
    rw [Aim.declarators_of_fires fires', carried.aim]
  rw [← Aim.declarators_of_fires fires, listed] at related
  rw [List.map_flatMap]
  refine flatMap_eq_of_forall₂ related fun declarator isWrapped declarator' both => ?_
  have range := both.2
  cases valued : declarator.child? .value with
  | none =>
    have unvalued := Option.map_eq_none_iff.mp (range.symm.trans (by rw [valued]; rfl))
    simp [unvalued]
  | some value =>
    cases valued' : declarator'.child? .value with
    | none => simp [valued, valued'] at range
    | some value' =>
      simp only [valued, valued', Option.map_some, Option.some.injEq] at range
      have isEdit : other.valueEdit value ∈ (other.aim.declarators statement).flatMap
          fun declarator => (declarator.child? .value).toList.map other.valueEdit :=
        List.mem_flatMap.mpr ⟨declarator, isWrapped, by simp [valued]⟩
      have placedValue := ((placed_of_mem_declarators placed isWrapped).child valued).2.1
      have within : value.span.stop ≤ other.bytes.length := by
        have isEdit' : other.valueEdit value ∈ other.edits false statement := by
          simpa only [Rewrite.edits, fires] using isEdit
        exact Nat.le_trans (Rewrite.inside_of_mem_edits placed isEdit').2.2 inside
      simp only [Option.toList_some, List.map_cons, List.map_nil,
        Rewrite.valueEdit_moved carried row placedValue within (apart _ isEdit) range.symm]

theorem Rewrite.edits_of_silent
    (silent : rewrite.fires? statement = none ∧ exportsSignature rewrite.name statement = false) :
    rewrite.edits signatures statement = [] := by
  simp [Rewrite.edits, silent.1, silent.2]

/-- A default export of the name has its value replaced where the value has moved to. -/
theorem Rewrite.referenceEdits_moved (carried : other.CarriedTo other' edits)
    (landmarks : read.landmarks Span.range = statement.landmarks (Span.moved other.bytes edits))
    (fires : other.fires? statement = some .defaultIdentifier)
    (fires' : other'.fires? read = some .defaultIdentifier) :
    other'.edits signatures read =
      (other.edits signatures statement).map (Edit.moved other.bytes edits) := by
  obtain ⟨-, wrapped⟩ := Rewrite.fires?_eq_some_iff.mp fires
  obtain ⟨value, found⟩ := List.exists_mem_of_ne_nil _ wrapped
  obtain ⟨-, wrapped'⟩ := Rewrite.fires?_eq_some_iff.mp fires'
  obtain ⟨value', found'⟩ := List.exists_mem_of_ne_nil _ wrapped'
  have found := Option.mem_toList.mp found
  have found' := Option.mem_toList.mp found'
  have range := congrArg Syntax.Landmarks.value landmarks
  simp only [Node.landmarks, (Aim.defaultValue?_eq_some.mp found).2.2.1,
    (Aim.defaultValue?_eq_some.mp found').2.2.1, Option.map_some, Option.some.injEq] at range
  have start : value'.span.start = startAfter other.bytes edits value.span.start :=
    congrArg Prod.fst range
  have stop : value'.span.stop = stopAfter other.bytes edits value.span.stop :=
    congrArg Prod.snd range
  have symbol : other'.symbol = other.symbol := congrArg Aim.symbol carried.aim
  have name : other'.name = other.name := congrArg Aim.name carried.aim
  simp only [Rewrite.edits, fires, fires', Option.mem_def.mp found, Option.mem_def.mp found',
    Option.toList_some, List.map_cons, List.map_nil, symbol, name, carried.style, start, stop]
  rfl

/-- A declaration of the name is demoted where it has moved to, and its wrapped export goes behind
it. -/
theorem Rewrite.declarationEdits_moved {rule : Rule} (carried : other.CarriedTo other' edits)
    (row : Row other.bytes.length edits)
    (landmarks : read.landmarks Span.range = statement.landmarks (Span.moved other.bytes edits))
    (isDeclared : rule = .defaultDeclaration ∨ rule = .namedFunction)
    (fires : other.fires? statement = some rule) (fires' : other'.fires? read = some rule)
    (demoted : cuts other'.bytes read.children =
      (cuts other.bytes statement.children).map (Edit.moved other.bytes edits))
    (newline : other'.newline = other.newline)
    (apart : ∀ edit ∈ other.edits signatures statement, ∀ made ∈ edits, edit.Apart made) :
    other'.edits signatures read =
      (other.edits signatures statement).map (Edit.moved other.bytes edits) := by
  have symbol : other'.symbol = other.symbol := congrArg Aim.symbol carried.aim
  have name : other'.name = other.name := congrArg Aim.name carried.aim
  rcases isDeclared with rfl | rfl <;>
  · simp only [Rewrite.edits, fires] at apart
    simp only [Rewrite.edits, fires, fires', List.map_append, symbol, name, carried.style, demoted,
      List.map_cons, List.map_nil]
    rw [Rewrite.appendEdit_moved row newline (apart _ (by simp)) landmarks]

/-- The edits of a statement in the second wrap are those that it would have had in the source,
where the first wrap has moved them. -/
theorem Rewrite.edits_moved (carried : other.CarriedTo other' edits)
    (row : Row other.bytes.length edits) (placed : statement.Placed other.bytes)
    (inside : statement.span.stop ≤ other.bytes.length)
    (landmarks : read.landmarks Span.range = statement.landmarks (Span.moved other.bytes edits))
    (same : other'.fires? read = other.fires? statement)
    (signature : exportsSignature other.name read = exportsSignature other.name statement)
    (wraps : read.exportedDeclarators.map other.aim.wrapsDeclarator =
      statement.exportedDeclarators.map other.aim.wrapsDeclarator)
    (apart : ∀ edit ∈ other.edits signatures statement, ∀ made ∈ edits, edit.Apart made)
    (clear : subject? statement = some other.name →
      Clear edits statement.span.start statement.span.stop)
    (newline : ∀ rule, other.fires? statement = some rule → rule.appends = true →
      other'.newline = other.newline) :
    other'.edits signatures read =
      (other.edits signatures statement).map (Edit.moved other.bytes edits) := by
  have demoted : statement.kind = .exportStatement → subject? statement = some other.name →
      cuts other'.bytes read.children =
        (cuts other.bytes statement.children).map (Edit.moved other.bytes edits) := by
    intro exported about
    rw [carried.bytes]
    exact cuts_moved row (clear about) placed exported inside landmarks
  cases fires : other.fires? statement with
  | none =>
    have name : other'.name = other.name := congrArg Aim.name carried.aim
    simp only [Rewrite.edits, same, fires, name, signature]
    split
    · next isSignature =>
      have isSignature := (Bool.and_eq_true_iff.mp isSignature).2
      exact demoted (of_exportsSignature isSignature).1 (subject?_of_exportsSignature isSignature)
    · rfl
  | some rule =>
    have fires' := same.trans fires
    have exported := (Rewrite.fires?_eq_some_iff.mp fires).1
    have about := Rewrite.subject?_of_fires fires
    have newline := newline rule fires
    cases rule with
    | defaultDeclaration =>
      exact Rewrite.declarationEdits_moved carried row landmarks (.inl rfl) fires fires'
        (demoted exported (by simpa using about)) (newline rfl) apart
    | namedFunction =>
      exact Rewrite.declarationEdits_moved carried row landmarks (.inr rfl) fires fires'
        (demoted exported (by simpa using about)) (newline rfl) apart
    | defaultIdentifier => exact Rewrite.referenceEdits_moved carried landmarks fires fires'
    | namedVariable =>
      simp only [Rewrite.edits, same, fires]
      refine Rewrite.valueEdits_moved carried row placed inside landmarks fires fires' wraps
        fun edit member => apart edit ?_
      simpa only [Rewrite.edits, fires] using member

end Statement

section Module

variable {rewrite other other' : Rewrite} {root read statement edited found : Node}
  {target : ImportTarget} {imports : List Patch} {text symbol newline : String} {style : QuoteStyle}
  {aim : Aim} {signatures : Bool}

/-! ## What the second wrap finds -/

/-- The variables of another name are wrapped in what is read as they would have been in the
source. -/
theorem wraps_of_read (symbol : aim.symbol = rewrite.symbol) (differ : rewrite.name ≠ aim.name)
    (keeps : rewrite.keeps statement = true) (member : edited ∈ rewrite.edit signatures statement)
    (exported : edited.kind = .exportStatement) (outline : found.outline = edited.outline) :
    found.exportedDeclarators.map aim.wrapsDeclarator =
      statement.exportedDeclarators.map aim.wrapsDeclarator := by
  have outlined : ∀ node : Node, node.outline.exportedDeclarators.map aim.wrapsDeclarator =
      node.exportedDeclarators.map aim.wrapsDeclarator := by
    intro node
    rw [Node.exportedDeclarators, Node.child?_outline node (by decide), Node.exportedDeclarators]
    cases declared : node.child? .declaration <;>
      simp [Function.comp_def, Aim.wrapsDeclarator_outline]
  rw [← outlined, outline, outlined]
  rcases Rewrite.of_mem_edit_of_keeps keeps member exported with rfl | ⟨-, rfl⟩
  · rfl
  · have changed := Node.child?_mapChild statement
      (fun child => (rfl : (rewrite.wrapDeclarators child).role = .declaration))
    rw [Node.exportedDeclarators, changed, Node.exportedDeclarators]
    cases declared : statement.child? .declaration with
    | none => rfl
    | some declaration =>
      simp only [Option.map_some, Option.toList_some, List.flatMap_singleton,
        Rewrite.declarators_wrapDeclarators, List.map_map]
      exact List.map_congr_left fun declarator member =>
        Aim.wrapsDeclarator_wrapDeclarator symbol differ (Node.kind_of_mem_declarators' member)

/-- In the text of a first wrap the rules fire that would have fired for the name in the source, so
a name is wrapped there if and only if it would have been. -/
theorem ReadsAsEdited.rules (reads : ReadsAsEdited rewrite root target imports text read)
    (aims : other'.aim = other.aim) (symbol : other.aim.symbol = rewrite.symbol)
    (differ : rewrite.name ≠ other.name) :
    (other'.firing read).map (·.2) = (other.firing root).map (·.2) := by
  have listed : ∀ (rewrite : Rewrite) (root : Node), (rewrite.firing root).map (·.2) =
      root.children.flatMap fun node => (rewrite.fires? node).toList := by
    intro rewrite root
    rw [Rewrite.firing_eq]
    induction root.children with
    | nil => rfl
    | cons node rest ih => cases fires : rewrite.fires? node <;> simp [fires, ih]
  rw [listed, listed]
  refine reads.flatMap_eq (fun node other => ?_) (fun node about => ?_) ?_
  · simp [Rewrite.fires?, other]
  · simp [(Rewrite.silent_of_subject? about differ).1]
  · intro statement _ edited member exported found outline _
    cases keeps : rewrite.keeps statement with
    | true =>
      simp [(Rewrite.same_of_read aims symbol differ keeps member exported outline).1]
    | false =>
      simp [(Rewrite.silent_of_read aims symbol keeps member exported outline).1]

/-- In the text of a first wrap another name has the overload signatures that it has in the
source. -/
theorem ReadsAsEdited.overloads (reads : ReadsAsEdited rewrite root target imports text read)
    (symbol : other.aim.symbol = rewrite.symbol) (differ : rewrite.name ≠ other.name) :
    overloadSignatures read other.name = [] ↔ overloadSignatures root other.name = [] := by
  have listed : ∀ root : Node, overloadSignatures root other.name = [] ↔
      (root.children.flatMap fun node =>
        if exportsSignature other.name node then [()] else []) = [] := by
    intro root
    simp [overloadSignatures_eq, List.filter_eq_nil_iff, List.flatMap_eq_nil_iff]
  rw [listed, listed]
  refine iff_of_eq (congrArg (· = [])
    (reads.flatMap_eq (fun node other => ?_) (fun node about => ?_) ?_))
  · simp [exportsSignature, other]
  · simp [(Rewrite.silent_of_subject? about differ).2]
  · intro statement _ edited member exported found outline _
    cases keeps : rewrite.keeps statement with
    | true =>
      simp [(Rewrite.same_of_read rfl symbol differ keeps member exported outline).2]
    | false =>
      simp [(Rewrite.silent_of_read rfl symbol keeps member exported outline).2]

/-! ## Where the first wrap has edits -/

section Imported

variable (imported : importPatches (scanImports root symbol) style newline target = imports)

include imported

/-- A statement in which a wrap has no edits is met by none. -/
theorem Rewrite.Renderable.clear (renderable : rewrite.Renderable root)
    (isChild : statement ∈ root.children)
    (none : rewrite.edits (rewrite.demotesSignatures root) statement = []) :
    Clear (rewrite.made root imports) statement.span.start statement.span.stop := by
  have wellFormed := renderable.wellFormed
  intro edit member
  rcases renderable.mem_made imported member with inNode | ⟨text, rfl⟩
  · obtain ⟨node, isChild', isEdit⟩ := List.mem_flatMap.mp inNode
    have differ : node ≠ statement := by
      rintro rfl
      rw [none] at isEdit
      cases isEdit
    obtain ⟨starts, -, stops⟩ := Rewrite.inside_of_mem_edits (wellFormed.of_mem isChild').2.1 isEdit
    rcases wellFormed.apart isChild' isChild differ with before | after
    · exact .inl (Nat.le_trans stops before)
    · exact .inr (Nat.le_trans after starts)
  · have outside := offset_not_inside wellFormed isChild symbol
    simp only [Patch.insert, Patch.edit, Int.toNat_natCast]
    omega

/-- The edits of a kept statement in the second wrap are those it would have had in the source, each
moved by the first wrap. -/
theorem Rewrite.Beside.edits_moved (beside : rewrite.Beside other root)
    (carried : other.CarriedTo other' (rewrite.made root imports))
    (symbols : other.aim.symbol = rewrite.symbol)
    (breaks : (other.firing root).any (·.2.appends) = true → other'.newline = other.newline)
    (isChild : statement ∈ root.children) (keeps : rewrite.keeps statement = true)
    (member : edited ∈ rewrite.edit (rewrite.demotesSignatures root) statement)
    (exported : edited.kind = .exportStatement) (outline : found.outline = edited.outline)
    (landmarks : found.landmarks Span.range =
      statement.landmarks (Span.moved rewrite.bytes (rewrite.made root imports))) :
    other'.edits (other.demotesSignatures root) found =
      (other.edits (other.demotesSignatures root) statement).map
        (Edit.moved rewrite.bytes (rewrite.made root imports)) := by
  have row := beside.here.row imported
  obtain ⟨-, placed, inside⟩ := beside.here.wellFormed.of_mem isChild
  obtain ⟨fires, signature⟩ :=
    Rewrite.same_of_read carried.aim symbols beside.differ keeps member exported outline
  have wraps := wraps_of_read symbols beside.differ keeps member exported outline
  rw [← beside.bytes] at row placed inside landmarks ⊢
  refine Rewrite.edits_moved carried row placed inside landmarks fires signature wraps ?_ ?_ ?_
  · intro edit isEdit made isMade
    exact beside.apart_of_mem_made imported (List.mem_flatMap.mpr ⟨statement, isChild, isEdit⟩)
      isMade
  · intro about
    exact beside.here.clear imported isChild
      (Rewrite.edits_of_silent (Rewrite.silent_of_subject? about beside.differ.symm))
  · intro rule fires appends
    refine breaks (List.any_eq_true.mpr ⟨(statement, rule), ?_, appends⟩)
    rw [Rewrite.firing_eq]
    exact List.mem_filterMap.mpr ⟨statement, isChild, by rw [fires]; rfl⟩

/-- The edits of the second wrap are those that the name would have had in the source, where the
first wrap has moved them. -/
theorem ReadsAsEdited.edits_moved (reads : ReadsAsEdited rewrite root target imports text read)
    (beside : rewrite.Beside other root)
    (carried : other.CarriedTo other' (rewrite.made root imports))
    (symbols : other.aim.symbol = rewrite.symbol)
    (breaks : (other.firing root).any (·.2.appends) = true → other'.newline = other.newline) :
    read.children.flatMap (other'.edits (other.demotesSignatures root)) =
      (root.children.flatMap (other.edits (other.demotesSignatures root))).map
        (Edit.moved rewrite.bytes (rewrite.made root imports)) := by
  have name : other'.name = other.name := congrArg Aim.name carried.aim
  rw [List.map_flatMap]
  refine reads.flatMap_eq (fun node other => ?_) (fun node about => ?_) ?_
  · have silent : ∀ rewrite : Rewrite,
        rewrite.fires? node = none ∧ exportsSignature rewrite.name node = false := by
      simp [Rewrite.fires?, exportsSignature, other]
    rw [Rewrite.edits_of_silent (silent _), Rewrite.edits_of_silent (silent _)]
    exact ⟨rfl, rfl⟩
  · rw [Rewrite.edits_of_silent (Rewrite.silent_of_subject? about beside.differ)]
    rfl
  · intro statement isChild edited member exported found outline landmarks
    cases keeps : rewrite.keeps statement with
    | false =>
      have silent := Rewrite.silent_of_read carried.aim symbols keeps member exported outline
      rw [← name] at silent
      rw [Rewrite.edits_of_silent silent]
      rfl
    | true =>
      exact beside.edits_moved imported carried symbols breaks isChild keeps member exported outline
        (landmarks keeps)

end Imported

end Module

end RenderProbe.Wrap
