import RenderProbe.Proofs.Source.Rounds
import RenderProbe.Proofs.Wrap.Conflict

/-!
# Patches for two names

The wraps of two names edit one module at different places. Different statements are apart, and only
variables of both names can be wrapped in one statement: every other edit belongs to the one name
that the statement is about.

* `Rewrite.Renderable.row`: the edits of one wrap and its import stand one before the other.
* `Rewrite.subject?_of_edits`: the name that the edits of a statement belong to.
* `Rewrite.Beside.apart_patches`: the patches for two names and one import stand apart.
* `Rewrite.Beside.render_together`: hence they can be rendered together, however they are listed.
-/

namespace RenderProbe.Wrap

open Syntax (Node Forest)
open Patch (Edit Chain Advances Row encode)

/-! ## Edits of one wrap -/

/-- A wrap in a well-formed module that demotes signatures once at most, so that its patches can be
rendered. -/
structure Rewrite.Renderable (rewrite : Rewrite) (root : Node) : Prop where
  wellFormed : root.WellFormed rewrite.bytes
  overloads : rewrite.overloads = overloadSignatures root rewrite.name
  once : rewrite.DemotesOnce root

/-- The edits of a wrap and its import, in order. -/
def Rewrite.made (rewrite : Rewrite) (root : Node) (imports : List Patch) : List Edit :=
  (Patch.arrange (rewrite.rulePatches root ++ imports)).map Patch.edit

section OneName

variable {rewrite : Rewrite} {root statement : Node} {signatures : Bool} {edit : Edit}

/-- An edit of a node is inside it and reaches behind its start. -/
theorem Rewrite.inside_of_mem_edits (placed : statement.Placed rewrite.bytes)
    (member : edit ∈ rewrite.edits signatures statement) :
    statement.span.start ≤ edit.start ∧ statement.span.start < edit.stop
      ∧ edit.stop ≤ statement.span.stop := by
  have advances : Advances statement.span.start statement.span.stop
      (rewrite.edits signatures statement) := Rewrite.advances_edits placed
  obtain ⟨starts, -, reaches⟩ := advances.of_mem member
  exact ⟨starts, reaches, ((Row.of_advances advances).bounded edit member).2⟩

/-- The edits of the nodes of a module stand one before the other. -/
theorem Rewrite.row_edits (wellFormed : root.WellFormed rewrite.bytes) (signatures : Bool) :
    Row rewrite.bytes.length (root.children.flatMap (rewrite.edits signatures)) := by
  have advances : Advances 0 rewrite.bytes.length
      (root.children.flatMap (rewrite.edits signatures)) :=
    advances_flatMap wellFormed fun node _ placed => Rewrite.advances_edits placed
  exact Row.of_advances advances

/-- The edits of the patches of the rules are those of the nodes. -/
theorem Rewrite.Renderable.edits_perm (renderable : rewrite.Renderable root) :
    ((rewrite.rulePatches root).map Patch.edit).Perm
      (root.children.flatMap (rewrite.edits (rewrite.demotesSignatures root))) := by
  refine ((Rewrite.rulePatches_perm_statements renderable.overloads renderable.once).map
    Patch.edit).trans (.of_eq ?_)
  rw [List.map_flatMap]
  exact List.flatMap_congr fun node member =>
    Rewrite.edit_statementPatches (renderable.wellFormed.of_mem member).2.1

section Imported

variable {symbol newline : String} {style : QuoteStyle} {target : ImportTarget}
  {imports : List Patch}
  (imported : importPatches (scanImports root symbol) style newline target = imports)

include imported

/-- The edits of a wrap and its import stand one before the other. -/
theorem Rewrite.Renderable.row (renderable : rewrite.Renderable root) :
    Row rewrite.bytes.length (rewrite.made root imports) := by
  have wellFormed := renderable.wellFormed
  have advances := Rewrite.advances_patches imported wellFormed (rewrite.demotesSignatures root)
  have row := Row.of_advances advances
  rw [Rewrite.made, Rewrite.arrange_eq_of_demotesOnce imported wellFormed renderable.overloads
    renderable.once, Rewrite.patchesInOrder, List.map_append]
  -- An import at the start of the module stands before all that is edited.
  have atStart :
      patchesAt imports 0 = [] ∨ ∃ text, patchesAt imports 0 = [Patch.insert 0 text] := by
    subst imported
    rcases importPatches_eq (scanImports root symbol) style newline target with none | ⟨text, one⟩
    · exact .inl (by simp [none, patchesAt])
    · rw [one, patchesAt_insert]
      split
      · next zero => exact .inr ⟨text, by rw [zero]⟩
      · exact .inl rfl
  rcases atStart with none | ⟨text, one⟩
  · simpa [none] using row
  · rw [one]
    refine ⟨.cons (fun edit member => ?_) row.ordered, fun edit member => ?_⟩
    · exact ⟨Nat.zero_le _, (advances.of_mem member).2.2⟩
    · rcases List.mem_cons.mp member with rfl | later
      · exact ⟨Nat.le_refl _, Nat.zero_le _⟩
      · exact row.bounded edit later

/-- An edit of a wrap is one of a node, or the import. -/
theorem Rewrite.Renderable.mem_made (renderable : rewrite.Renderable root)
    (member : edit ∈ rewrite.made root imports) :
    edit ∈ root.children.flatMap (rewrite.edits (rewrite.demotesSignatures root))
      ∨ ∃ text, edit = (Patch.insert (scanImports root symbol).offset text).edit := by
  obtain ⟨patch, isPatch, rfl⟩ := List.mem_map.mp member
  rcases List.mem_append.mp ((Patch.arrange_perm _).subset isPatch) with ofRules | isImport
  · exact .inl (renderable.edits_perm.subset (List.mem_map_of_mem ofRules))
  · obtain ⟨text, rfl⟩ := insertion_of_mem imported isImport
    exact .inr ⟨text, rfl⟩

end Imported

/-- The edits of a wrap without an import are those of the nodes. -/
theorem Rewrite.Renderable.made_nil (renderable : rewrite.Renderable root)
    (row : Row rewrite.bytes.length (rewrite.made root [])) :
    rewrite.made root [] =
      root.children.flatMap (rewrite.edits (rewrite.demotesSignatures root)) := by
  refine row.eq_of_perm (Rewrite.row_edits renderable.wellFormed _)
    (((Patch.arrange_perm _).map Patch.edit).trans ?_)
  rw [List.append_nil]
  exact renderable.edits_perm

end OneName

/-! ## What a statement is about -/

/-- The name that an export statement is about, unless it declares variables. -/
def subject? (statement : Node) : Option String :=
  if statement.hasKeyword "default" then
    match defaultFunctionOrClass? statement with
    | some declaration => declaration.declaredName?
    | none => ((statement.child? .value).bind Node.unwrap).map (·.lexeme)
  else
    ((statement.child? .declaration).filter (·.kind != .variableDeclaration)).bind
      Node.declaredName?

section Subjects

variable {rewrite : Rewrite} {statement : Node} {signatures : Bool}

/-- What a rule wraps in a statement is what the statement is about, or variables. -/
theorem Rewrite.subject?_of_fires {rule : Rule} (fires : rewrite.fires? statement = some rule) :
    subject? statement = if rule = .namedVariable then none else some rewrite.name := by
  obtain ⟨-, wraps⟩ := Rewrite.fires?_eq_some_iff.mp fires
  have edit := Rewrite.editShape wraps
  generalize rewrite.editBy statement rule = statements at edit
  cases edit with
  | defaultDeclaration keyword found accepted =>
    simp only [Aim.acceptsDefault, Bool.and_eq_true, beq_iff_eq] at accepted
    simp [subject?, keyword, found, accepted.1, Rewrite.aim]
  | @defaultIdentifier value _ _ keyword undeclared valued unwrapped isName =>
    have unlike : defaultFunctionOrClass? statement = none := by
      refine Option.eq_none_iff_forall_ne_some.mpr fun node found => ?_
      rcases of_defaultFunctionOrClass? found with ⟨declared, -⟩ | ⟨-, valued', shape⟩
      · simp [undeclared] at declared
      · -- A function or class is not looked through, so it is no reference.
        obtain rfl := Option.some.inj (valued.symm.trans valued')
        have solid : value.unwrap = some value :=
          Node.unwrap_of_not_transparent (by rcases shape with same | same <;> rw [same] <;> rfl)
        have isReference := congrArg Node.kind (Option.some.inj (unwrapped.symm.trans solid))
        simp [isName.1, ← isReference] at shape
    simp [subject?, keyword, unlike, valued, unwrapped, isName.2]
  | namedVariable keyword found isVariables =>
    simp [subject?, keyword, found, Option.filter_some, isVariables]
  | namedFunction keyword found accepted =>
    simp only [Aim.acceptsFunction, Bool.and_eq_true, beq_iff_eq] at accepted
    simp [subject?, keyword, found, Option.filter_some, accepted.1, Rewrite.aim]

/-- An overload signature is about the name that it declares. -/
theorem subject?_of_exportsSignature {name : String}
    (signature : exportsSignature name statement = true) : subject? statement = some name := by
  obtain ⟨-, keyword, declaration, found, isSignature, isName⟩ := of_exportsSignature signature
  simp [subject?, keyword, found, Option.filter_some, isSignature, isName]

/-- A statement is edited for the name that it is about, or variables are wrapped in it. -/
theorem Rewrite.subject?_of_edits (edited : rewrite.edits signatures statement ≠ []) :
    rewrite.fires? statement = some .namedVariable ∧ subject? statement = none
      ∨ subject? statement = some rewrite.name := by
  cases fires : rewrite.fires? statement with
  | some rule =>
    have about := Rewrite.subject?_of_fires fires
    by_cases isVariables : rule = .namedVariable
    · exact .inl ⟨congrArg some isVariables, by simpa [isVariables] using about⟩
    · exact .inr (by simpa [isVariables] using about)
  | none =>
    simp only [Rewrite.edits, fires] at edited
    split at edited
    · next signature =>
      exact .inr (subject?_of_exportsSignature (Bool.and_eq_true_iff.mp signature).2)
    · exact absurd rfl edited

/-- One statement is edited for two names only if variables of both are wrapped in it. All other
edits take a whole statement, which is about one name. -/
theorem Rewrite.variables_of_edits {other : Rewrite} {signatures' : Bool}
    (differ : rewrite.name ≠ other.name) (edited : rewrite.edits signatures statement ≠ [])
    (edited' : other.edits signatures' statement ≠ []) :
    rewrite.fires? statement = some .namedVariable
      ∧ other.fires? statement = some .namedVariable := by
  rcases Rewrite.subject?_of_edits edited with ⟨fires, none⟩ | some <;>
    rcases Rewrite.subject?_of_edits edited' with ⟨fires', none'⟩ | some'
  · exact ⟨fires, fires'⟩
  · cases none.symm.trans some'
  · cases none'.symm.trans some
  · exact absurd (Option.some.inj (some.symm.trans some')) differ

end Subjects

/-! ## Edits for two names -/

/-- Wraps of two names in one module, each of which can be rendered by itself. -/
structure Rewrite.Beside (rewrite other : Rewrite) (root : Node) : Prop where
  here : rewrite.Renderable root
  there : other.Renderable root
  bytes : other.bytes = rewrite.bytes
  differ : rewrite.name ≠ other.name

section TwoNames

variable {rewrite other : Rewrite} {statement root : Node} {signatures signatures' : Bool}
  {edit edit' : Edit}

/-- No declarator is wrapped for two names. -/
theorem Aim.wrapsDeclarator_of_ne {aim aim' : Aim} {declarator : Node}
    (differ : aim.name ≠ aim'.name) (wraps : aim.wrapsDeclarator declarator = true) :
    aim'.wrapsDeclarator declarator = false := by
  simp only [Aim.wrapsDeclarator, Bool.and_eq_true, Option.any_eq_true, beq_iff_eq] at wraps
  obtain ⟨⟨name, named, isName⟩, -⟩ := wraps
  simp [Aim.wrapsDeclarator, named, isName, differ]

/-- Edits inside two stretches that do not meet are apart. -/
theorem apart_of_ranges {start stop start' stop' : Nat}
    (here : start ≤ edit.start ∧ start < edit.stop ∧ edit.stop ≤ stop)
    (there : start' ≤ edit'.start ∧ start' < edit'.stop ∧ edit'.stop ≤ stop')
    (apart : stop ≤ start' ∨ stop' ≤ start) : edit.Apart edit' := by
  rcases apart with before | after
  · exact .inl ⟨by omega, by omega⟩
  · exact .inr ⟨by omega, by omega⟩

/-- Wrapped values of variables of two names stand apart. -/
theorem Rewrite.apart_of_variables (placed : statement.Placed rewrite.bytes)
    (differ : rewrite.name ≠ other.name)
    (fires : rewrite.fires? statement = some .namedVariable)
    (fires' : other.fires? statement = some .namedVariable)
    (member : edit ∈ rewrite.edits signatures statement)
    (member' : edit' ∈ other.edits signatures' statement) : edit.Apart edit' := by
  obtain ⟨declaration, declarator, value, found, isDeclarator, wraps, valued, rfl⟩ :=
    Rewrite.mem_valueEdits fires member
  obtain ⟨declaration', declarator', value', found', isDeclarator', wraps', valued', rfl⟩ :=
    Rewrite.mem_valueEdits fires' member'
  obtain rfl := Option.some.inj (found.symm.trans found')
  have row := (placed.child found).2.1.children
  have isChild := Node.mem_children_of_mem_declarators isDeclarator
  have isChild' := Node.mem_children_of_mem_declarators isDeclarator'
  have differ : rewrite.aim.name ≠ other.aim.name := differ
  have distinct : declarator ≠ declarator' := by
    rintro rfl
    have rejected := Aim.wrapsDeclarator_of_ne differ wraps
    rw [rejected] at wraps'
    cases wraps'
  obtain ⟨ahead, here, upto⟩ := (row.of_mem isChild).2.1.child valued
  obtain ⟨behind, there, upto'⟩ := (row.of_mem isChild').2.1.child valued'
  have nonempty := here.nonempty
  have nonempty' := there.nonempty
  exact apart_of_ranges ⟨ahead, by simp only [Rewrite.valueEdit]; omega, upto⟩
    ⟨behind, by simp only [Rewrite.valueEdit]; omega, upto'⟩ (row.apart isChild isChild' distinct)

namespace Rewrite.Beside

/-- Edits for two names stand apart. -/
theorem apart_of_edits (beside : rewrite.Beside other root)
    (member : edit ∈ root.children.flatMap (rewrite.edits signatures))
    (member' : edit' ∈ root.children.flatMap (other.edits signatures')) : edit.Apart edit' := by
  obtain ⟨statement, isChild, isEdit⟩ := List.mem_flatMap.mp member
  obtain ⟨statement', isChild', isEdit'⟩ := List.mem_flatMap.mp member'
  have wellFormed := beside.here.wellFormed
  have placed := (wellFormed.of_mem isChild).2.1
  by_cases same : statement = statement'
  · subst same
    obtain ⟨fires, fires'⟩ := variables_of_edits beside.differ (List.ne_nil_of_mem isEdit)
      (List.ne_nil_of_mem isEdit')
    exact apart_of_variables placed beside.differ fires fires' isEdit isEdit'
  · exact apart_of_ranges (inside_of_mem_edits placed isEdit)
      (inside_of_mem_edits (beside.there.wellFormed.of_mem isChild').2.1 isEdit')
      (wellFormed.apart isChild isChild' same)

section Imported

variable {symbol newline : String} {style : QuoteStyle} {target : ImportTarget}
  {imports : List Patch}
  (imported : importPatches (scanImports root symbol) style newline target = imports)

include imported

/-- The patches for two names and one import stand apart. So they can be rendered together, and in
whichever order they are listed. -/
theorem apart_patches (beside : rewrite.Beside other root) :
    (rewrite.rulePatches root ++ other.rulePatches root ++ imports).Pairwise
      fun p q => p.edit.Apart q.edit := by
  obtain ⟨apart, ofImport, besideImport⟩ := List.pairwise_append.mp
    (Patch.apart_of_row (beside.here.row imported))
  obtain ⟨apart', -, besideImport'⟩ := List.pairwise_append.mp
    (Patch.apart_of_row (beside.there.row imported))
  have both : (rewrite.rulePatches root ++ other.rulePatches root).Pairwise
      fun p q => p.edit.Apart q.edit :=
    List.pairwise_append.mpr ⟨apart, apart', fun patch member patch' member' =>
      beside.apart_of_edits (beside.here.edits_perm.subset (List.mem_map_of_mem member))
        (beside.there.edits_perm.subset (List.mem_map_of_mem member'))⟩
  refine List.pairwise_append.mpr ⟨both, ofImport, fun patch member insertion isImport => ?_⟩
  rcases List.mem_append.mp member with first | second
  · exact besideImport patch first insertion isImport
  · exact besideImport' patch second insertion isImport

/-- The edits for another name stand apart from those of a wrap and its import. -/
theorem apart_of_mem_made {made : Edit} (beside : rewrite.Beside other root)
    (member : edit ∈ root.children.flatMap (other.edits (other.demotesSignatures root)))
    (isMade : made ∈ rewrite.made root imports) : edit.Apart made := by
  obtain ⟨both, -, besideImport⟩ := List.pairwise_append.mp (beside.apart_patches imported)
  obtain ⟨-, -, across⟩ := List.pairwise_append.mp both
  obtain ⟨patch, isPatch, rfl⟩ := List.mem_map.mp (beside.there.edits_perm.symm.subset member)
  obtain ⟨patch', isPatch', rfl⟩ := List.mem_map.mp isMade
  rcases List.mem_append.mp ((Patch.arrange_perm _).subset isPatch') with ofRules | isImport
  · exact (across patch' ofRules patch isPatch).symm
  · exact besideImport patch (List.mem_append_right _ isPatch) patch' isImport

end Imported

end Rewrite.Beside

end TwoNames

/-! ## Rendering -/

section Rendering

variable {criteria : Component.Criteria} {style : QuoteStyle} {text name first second : String}
  {root : Node} {target : ImportTarget}

/-- A wrap of which the patches of the rules are rendered. -/
theorem renderable_of_render {output : String} (wellFormed : root.WellFormed (encode text))
    (rendered : Patch.render (encode text)
      ((Rewrite.of criteria style text root name target.symbol).rulePatches root) = .ok output) :
    (Rewrite.of criteria style text root name target.symbol).Renderable root := by
  have chain := (Patch.render_eq_ok rendered).1
  rw [← List.append_nil (Rewrite.rulePatches _ root)] at chain
  exact ⟨wellFormed, rfl, Rewrite.demotesOnce_of_chain wellFormed rfl chain⟩

/-- A patch of a wrap has its range in the source, and starts and stops between characters. -/
theorem Rewrite.Renderable.of_mem {patch : Patch}
    (renderable : (Rewrite.of criteria style text root name target.symbol).Renderable root)
    (member : patch ∈ (Rewrite.of criteria style text root name target.symbol).rulePatches root
      ++ importPatches (scanImports root target.symbol) style (Snippet.newlineFor text) target) :
    patch.Fits (encode text).length ∧ patch.edit.OnBoundaries text := by
  obtain ⟨grounded, aligned⟩ :=
    Rewrite.onBoundaries_of_mem rfl rfl renderable.wellFormed rfl renderable.once member
  exact ⟨Patch.fits_of_row (renderable.row rfl) grounded member, aligned⟩

/-- The patches for two names do not meet. Together with the import of the wrapper they can be
rendered to one text, however they are listed. -/
theorem Rewrite.Beside.render_together
    (beside : (Rewrite.of criteria style text root first target.symbol).Beside
      (.of criteria style text root second target.symbol) root) :
    let patches name := (Rewrite.of criteria style text root name target.symbol).rulePatches root
    let imports :=
      importPatches (scanImports root target.symbol) style (Snippet.newlineFor text) target
    Row (encode text).length
        ((Patch.arrange (patches first ++ patches second ++ imports)).map Patch.edit)
      ∧ ∃ joint, ∀ listed : List Patch, listed.Perm (patches first ++ patches second ++ imports) →
        Patch.render (encode text) listed = .ok joint := by
  intro patches imports
  have known : ∀ patch ∈ patches first ++ patches second ++ imports,
      patch.Fits (encode text).length ∧ patch.edit.OnBoundaries text := by
    intro patch member
    have ofOne : patch ∈ patches first ++ imports ∨ patch ∈ patches second ++ imports := by
      simp only [List.mem_append] at member ⊢
      tauto
    rcases ofOne with here | there
    · exact beside.here.of_mem here
    · exact beside.there.of_mem there
  have fits := fun patch member => (known patch member).1
  have apart : (patches first ++ patches second ++ imports).Pairwise
      fun p q => p.edit.Apart q.edit := beside.apart_patches rfl
  have row := Patch.arrange_of_apart fits apart
  have chain := row.chain (Nat.zero_le _) fun _ _ => Nat.zero_le _
  obtain ⟨joint, rendered⟩ := Patch.render_of_chain (fun patch member => (fits patch member).1)
    (fun patch member => (known patch member).2) chain
  refine ⟨row, joint, fun listed perm => ?_⟩
  rw [Patch.render, Patch.apply, Patch.arrange_swap fits apart perm]
  exact rendered

end Rendering

end RenderProbe.Wrap
