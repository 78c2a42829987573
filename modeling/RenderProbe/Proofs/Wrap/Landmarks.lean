import Mathlib.Data.List.Forall2
import RenderProbe.Proofs.Wrap.TwoNames

/-!
# The tree between two wraps

A second wrap reads the tree of the text that the first one wrote. `ReadsAsEdited` says what is
assumed of that tree: it is the edited tree up to layout, and what is left of the source stands
where the edits have moved it. Then a wrap of another name finds what it found in the source.

* `Rewrite.of_mem_edit_of_keeps` and `Rewrite.silent_of_mem_edit`: the export statements of an
  edited tree are those of the source, with the values of variables wrapped, or nothing that another
  name is wrapped in.
* `Aim.wrapped_wrapDeclarators`: a wrapped value leaves the variables of other names as they are.
* `ReadsAsEdited.flatMap_eq`: hence what is gathered from the statements for another name is what is
  gathered from those of the source.
-/

namespace RenderProbe.Syntax

/-- The first and the last offset of a span. -/
def Span.range (span : Span) : Nat × Nat :=
  (span.start, span.stop)

/-- Where edits have moved a span. -/
def Span.moved (bytes : List UInt8) (edits : List Patch.Edit) (span : Span) : Nat × Nat :=
  (Patch.startAfter bytes edits span.start, Patch.stopAfter bytes edits span.stop)

/-- The offsets of an export statement that rules look at. Two statements with the same landmarks in
the same text get the same patches. -/
structure Landmarks where
  stop : Nat
  /-- Where the export keywords stand. -/
  keywords : List (Nat × Nat)
  /-- Where the value of a default export stands. -/
  value : Option (Nat × Nat)
  /-- Where the values of the exported variables stand. -/
  values : List (Option (Nat × Nat))
  deriving DecidableEq

/-- The declarators of an export statement. -/
def Node.exportedDeclarators (statement : Node) : List Node :=
  (statement.child? .declaration).toList.flatMap Node.declarators

/-- The landmarks of a statement, for spans that stand at a place. -/
def Node.landmarks (place : Span → Nat × Nat) (statement : Node) : Landmarks where
  stop := (place statement.span).2
  keywords := (statement.children.filter Node.isExportKeyword).map (place ·.span)
  value := (statement.child? .value).map (place ·.span)
  values := statement.exportedDeclarators.map fun declarator =>
    (declarator.child? .value).map (place ·.span)

/-- The export statements of a module. -/
def Node.exportStatements (root : Node) : List Node :=
  root.children.filter (·.kind == .exportStatement)

end RenderProbe.Syntax

namespace RenderProbe.Wrap

open Syntax (Node Span)
open Patch (Edit encode)

/-! ## What is left of a statement -/

/-- Whether a statement stays an export statement that is made of what the source has there. -/
def Rewrite.keeps (rewrite : Rewrite) (statement : Node) : Bool :=
  (rewrite.fires? statement).all (· == .namedVariable)

/-- The export statements of an edited module, each with the statement that it is an edit of. -/
def Rewrite.editedExports (rewrite : Rewrite) (root : Node) : List (Node × Node) :=
  root.children.flatMap fun statement =>
    ((rewrite.edit (rewrite.demotesSignatures root) statement).filter
      (·.kind == .exportStatement)).map fun edited => (statement, edited)

/-- A text reads as the edited tree: up to layout it has that tree, without errors, and what the
edits have left of the source stands where they have moved it. -/
structure ReadsAsEdited (rewrite : Rewrite) (root : Node) (target : ImportTarget)
    (imports : List Patch) (text : String) (read : Node) : Prop where
  errorFree : read.ErrorFree (encode text)
  outline : read.outline = (rewrite.edited root target).outline
  landmarks : List.Forall₂ (fun (origin : Node × Node) statement => rewrite.keeps origin.1 = true →
      statement.landmarks Span.range =
        origin.1.landmarks (Span.moved rewrite.bytes (rewrite.made root imports)))
    (rewrite.editedExports root) read.exportStatements

instance (rewrite : Rewrite) (root : Node) (target : ImportTarget) (imports : List Patch)
    (text : String) (read : Node) :
    Decidable (ReadsAsEdited rewrite root target imports text read) :=
  decidable_of_iff (read.ErrorFree (encode text)
      ∧ read.outline = (rewrite.edited root target).outline
      ∧ List.Forall₂ (fun (origin : Node × Node) statement => rewrite.keeps origin.1 = true →
          statement.landmarks Span.range =
            origin.1.landmarks (Span.moved rewrite.bytes (rewrite.made root imports)))
        (rewrite.editedExports root) read.exportStatements)
    ⟨fun ⟨errorFree, outline, landmarks⟩ => ⟨errorFree, outline, landmarks⟩,
      fun reads => ⟨reads.errorFree, reads.outline, reads.landmarks⟩⟩

section Statements

variable {rewrite other other' : Rewrite} {aim : Aim} {statement edited read : Node}
  {signatures : Bool} {rule : Rule} {name : String}

/-! ## Other names -/

/-- In a statement that is about one name nothing is done for another. -/
theorem Rewrite.silent_of_subject? (about : subject? statement = some name)
    (differ : name ≠ other.name) :
    other.fires? statement = none ∧ exportsSignature other.name statement = false := by
  constructor
  · refine Option.eq_none_iff_forall_ne_some.mpr fun rule fires => ?_
    have about' := (Rewrite.subject?_of_fires fires).symm.trans about
    split at about'
    · cases about'
    · exact differ (Option.some.inj about').symm
  · refine Bool.eq_false_iff.mpr fun signature => ?_
    exact differ (Option.some.inj (about.symm.trans (subject?_of_exportsSignature signature)))

/-- A statement that is not kept is about the wrapped name. -/
theorem Rewrite.subject?_of_not_keeps (lost : rewrite.keeps statement = false) :
    subject? statement = some rewrite.name := by
  cases fires : rewrite.fires? statement with
  | none => simp [Rewrite.keeps, fires] at lost
  | some rule =>
    have other : rule ≠ .namedVariable := by simpa [Rewrite.keeps, fires] using lost
    rw [Rewrite.subject?_of_fires fires, if_neg other]

/-- An export statement that an edit keeps is as it was, or has values of variables wrapped. -/
theorem Rewrite.of_mem_edit_of_keeps (keeps : rewrite.keeps statement = true)
    (member : edited ∈ rewrite.edit signatures statement)
    (exported : edited.kind = .exportStatement) :
    edited = statement ∨ rewrite.fires? statement = some .namedVariable
      ∧ edited = statement.mapChild .declaration rewrite.wrapDeclarators := by
  cases fires : rewrite.fires? statement with
  | some rule =>
    have isVariables : rule = .namedVariable := by simpa [Rewrite.keeps, fires] using keeps
    subst isVariables
    simp only [Rewrite.edit, fires, Rewrite.editBy] at member
    exact .inr ⟨rfl, List.mem_singleton.mp member⟩
  | none =>
    simp only [Rewrite.edit, fires] at member
    split at member
    · next signature =>
      obtain ⟨-, -, declaration, found, isSignature, -⟩ :=
        of_exportsSignature (Bool.and_eq_true_iff.mp signature).2
      simp only [found, Option.map_some, Option.toList_some, List.mem_singleton] at member
      rw [member] at exported
      cases isSignature.symm.trans (Rewrite.kind_of_demoted exported)
    · exact .inl (List.mem_singleton.mp member)

/-- In an export statement that an edit has not kept nothing is done for any name. -/
theorem Rewrite.silent_of_mem_edit (name : String) (symbol : aim.symbol = rewrite.symbol)
    (lost : rewrite.keeps statement = false) (member : edited ∈ rewrite.edit signatures statement)
    (exported : edited.kind = .exportStatement) :
    (∀ rule, aim.wrapped edited rule = []) ∧ exportsSignature name edited = false := by
  cases fires : rewrite.fires? statement with
  | none => simp [Rewrite.keeps, fires] at lost
  | some fired =>
    have other : fired ≠ .namedVariable := by simpa [Rewrite.keeps, fires] using lost
    obtain ⟨-, wraps⟩ := Rewrite.fires?_eq_some_iff.mp fires
    simp only [Rewrite.edit, fires] at member
    refine ⟨fun rule => Aim.wrapped_of_mem_editBy symbol other wraps member exported, ?_⟩
    have edit := Rewrite.editShape wraps
    generalize rewrite.editBy statement fired = statements at edit member
    cases edit with
    | namedVariable => exact absurd rfl other
    | defaultIdentifier keyword undeclared valued unwrapped isName kind keywords =>
      obtain rfl := List.mem_singleton.mp member
      simp [exportsSignature, keywords, keyword]
    | defaultDeclaration keyword found =>
      obtain ⟨unexported, -⟩ := unlike_of_defaultFunctionOrClass? found
      rcases List.mem_cons.mp member with rfl | generated
      · exact absurd (Rewrite.kind_of_demoted exported) unexported
      · obtain rfl := List.mem_singleton.mp generated
        rfl
    | namedFunction keyword found accepted =>
      simp only [Aim.acceptsFunction, Bool.and_eq_true, beq_iff_eq] at accepted
      rcases List.mem_cons.mp member with rfl | generated
      · cases accepted.1.1.symm.trans (Rewrite.kind_of_demoted exported)
      · obtain rfl := List.mem_singleton.mp generated
        rfl

/-! ## Variables -/

/-- What is wrapped for another name is left alone. -/
theorem Aim.wrapDeclarator_of_wraps {declarator : Node} (differ : rewrite.name ≠ aim.name)
    (wraps : aim.wrapsDeclarator declarator = true) :
    rewrite.wrapDeclarator declarator = declarator := by
  have differ : aim.name ≠ rewrite.aim.name := differ.symm
  simp [Rewrite.wrapDeclarator, Aim.wrapsDeclarator_of_ne differ wraps]

/-- A declarator is wrapped for another name if it was before an edit. -/
theorem Aim.wrapsDeclarator_wrapDeclarator {declarator : Node}
    (symbol : aim.symbol = rewrite.symbol) (differ : rewrite.name ≠ aim.name)
    (isDeclarator : declarator.kind = .declarator) :
    aim.wrapsDeclarator (rewrite.wrapDeclarator declarator) = aim.wrapsDeclarator declarator := by
  cases wraps : aim.wrapsDeclarator declarator with
  | true => rw [Aim.wrapDeclarator_of_wraps differ wraps, wraps]
  | false =>
    refine Bool.eq_false_iff.mpr fun wraps' => ?_
    have before := (Aim.of_wrapsDeclarator_wrapDeclarator symbol isDeclarator wraps').1
    rw [wraps] at before
    cases before

/-- The declarators that are wrapped for another name are those of before an edit. -/
theorem Aim.filter_wrapDeclarator {declarators : List Node} (symbol : aim.symbol = rewrite.symbol)
    (differ : rewrite.name ≠ aim.name) (kind : ∀ node ∈ declarators, node.kind = .declarator) :
    (declarators.map rewrite.wrapDeclarator).filter aim.wrapsDeclarator =
      declarators.filter aim.wrapsDeclarator := by
  have same : declarators.filter (aim.wrapsDeclarator ∘ rewrite.wrapDeclarator) =
      declarators.filter aim.wrapsDeclarator :=
    List.filter_congr fun node member =>
      Aim.wrapsDeclarator_wrapDeclarator symbol differ (kind node member)
  rw [List.filter_map, same]
  refine (List.map_congr_left fun node member => ?_).trans (List.map_id _)
  exact Aim.wrapDeclarator_of_wraps differ (List.mem_filter.mp member).2

/-- Where values of variables are wrapped, a rule wraps for another name what it wrapped before. -/
theorem Aim.wrapped_wrapDeclarators (symbol : aim.symbol = rewrite.symbol)
    (differ : rewrite.name ≠ aim.name) (fires : rewrite.fires? statement = some .namedVariable)
    (rule : Rule) :
    aim.wrapped (statement.mapChild .declaration rewrite.wrapDeclarators) rule =
      aim.wrapped statement rule := by
  obtain ⟨-, wraps⟩ := Rewrite.fires?_eq_some_iff.mp fires
  have edit := Rewrite.editShape wraps
  simp only [Rewrite.editBy] at edit
  generalize statement.mapChild .declaration rewrite.wrapDeclarators = edited at edit ⊢
  cases edit with
  | namedVariable keyword found isVariables kind keywords others changed =>
    by_cases isVariable : rule = .namedVariable
    · subst isVariable
      simp only [Aim.wrapped, Aim.declarators, keywords, keyword, found, changed,
        Rewrite.declarators_wrapDeclarators]
      exact Aim.filter_wrapDeclarator symbol differ fun node => Node.kind_of_mem_declarators'
    · rw [Aim.wrapped_of_variables changed isVariables isVariable,
        Aim.wrapped_of_variables found isVariables isVariable]

/-- In a statement that an edit keeps, a rule wraps for another name what it wrapped before, and
signatures are where they were. -/
theorem Rewrite.same_of_mem_edit (name : String) (symbol : aim.symbol = rewrite.symbol)
    (differ : rewrite.name ≠ aim.name) (keeps : rewrite.keeps statement = true)
    (member : edited ∈ rewrite.edit signatures statement)
    (exported : edited.kind = .exportStatement) :
    statement.kind = .exportStatement
      ∧ (∀ rule, aim.wrapped edited rule = aim.wrapped statement rule)
      ∧ exportsSignature name edited = exportsSignature name statement := by
  rcases Rewrite.of_mem_edit_of_keeps keeps member exported with rfl | ⟨fires, rfl⟩
  · exact ⟨exported, fun _ => rfl, rfl⟩
  · refine ⟨exported, Aim.wrapped_wrapDeclarators symbol differ fires, ?_⟩
    obtain ⟨-, wraps⟩ := Rewrite.fires?_eq_some_iff.mp fires
    have edit := Rewrite.editShape wraps
    simp only [Rewrite.editBy] at edit
    generalize statement.mapChild .declaration rewrite.wrapDeclarators = edited at edit ⊢
    cases edit with
    | @namedVariable declaration _ keyword found isVariables kind keywords others changed =>
      have unlike : (Syntax.Kind.variableDeclaration == .functionSignature) = false := rfl
      simp [exportsSignature, found, changed, isVariables, unlike]

/-! ## Reading the edited tree -/

theorem exportsSignature_outline (node : Node) :
    exportsSignature name node.outline = exportsSignature name node := by
  rw [exportsSignature, Node.child?_outline node (by decide)]
  cases found : node.child? .declaration <;> simp [exportsSignature, found]

/-- A rule wraps something in statements of one outline, or in none of them. -/
theorem Aim.wrapped_eq_nil_of_outline (outline : read.outline = edited.outline) (rule : Rule) :
    aim.wrapped read rule = [] ↔ aim.wrapped edited rule = [] := by
  rw [← List.map_eq_nil_iff (f := Node.outline), ← Aim.wrapped_outline, outline,
    Aim.wrapped_outline, List.map_eq_nil_iff]

/-- Whether and how a statement is wrapped depends on what rules wrap in it. -/
theorem Rewrite.fires?_congr (kind : read.kind = statement.kind)
    (same : ∀ rule, other'.aim.wrapped read rule = [] ↔ other.aim.wrapped statement rule = []) :
    other'.fires? read = other.fires? statement := by
  refine Option.ext fun rule => ?_
  simp only [Rewrite.fires?_eq_some_iff, kind, ne_eq, same]

/-- What is read of a statement that an edit keeps is for another name what the source has there.
This carries a wrap over to the text of an earlier one. -/
theorem Rewrite.same_of_read (aims : other'.aim = other.aim)
    (symbol : other.aim.symbol = rewrite.symbol) (differ : rewrite.name ≠ other.name)
    (keeps : rewrite.keeps statement = true) (member : edited ∈ rewrite.edit signatures statement)
    (exported : edited.kind = .exportStatement) (outline : read.outline = edited.outline) :
    other'.fires? read = other.fires? statement
      ∧ exportsSignature other.name read = exportsSignature other.name statement := by
  obtain ⟨exported', wraps, signature⟩ :=
    Rewrite.same_of_mem_edit other.name symbol differ keeps member exported
  have kind := congrArg Node.kind outline
  simp only [Node.outline_kind] at kind
  constructor
  · refine Rewrite.fires?_congr (kind.trans (exported.trans exported'.symm)) fun rule => ?_
    rw [aims, Aim.wrapped_eq_nil_of_outline outline, wraps]
  · rw [← exportsSignature_outline, outline, exportsSignature_outline, signature]

/-- In what is read of a statement that an edit has not kept nothing is done for another name. -/
theorem Rewrite.silent_of_read (aims : other'.aim = other.aim)
    (symbol : other.aim.symbol = rewrite.symbol) (lost : rewrite.keeps statement = false)
    (member : edited ∈ rewrite.edit signatures statement)
    (exported : edited.kind = .exportStatement) (outline : read.outline = edited.outline) :
    other'.fires? read = none ∧ exportsSignature other.name read = false := by
  obtain ⟨wraps, signature⟩ :=
    Rewrite.silent_of_mem_edit other.name symbol lost member exported
  constructor
  · refine Rewrite.fires?_eq_none_iff.mpr fun _ rule => ?_
    rw [aims, Aim.wrapped_eq_nil_of_outline outline, wraps]
  · rw [← exportsSignature_outline, outline, exportsSignature_outline, signature]

end Statements

/-! ## Gathering -/

section Gathering

variable {rewrite : Rewrite} {root read : Node} {target : ImportTarget} {imports : List Patch}
  {text : String} {α : Type} {gather gather' : Node → List α}

/-- What is gathered from the statements that are kept is all that is gathered for another name. -/
theorem Rewrite.flatMap_edit_exports (signatures : Bool)
    (unexported : ∀ node : Node, node.kind ≠ .exportStatement → gather node = [])
    (own : ∀ node, subject? node = some rewrite.name → gather node = []) (statement : Node) :
    (((rewrite.edit signatures statement).filter (·.kind == .exportStatement)).flatMap fun _ =>
        if rewrite.keeps statement then gather statement else []) = gather statement := by
  by_cases nothing : gather statement = []
  · simp [nothing]
  · have exported : statement.kind = .exportStatement :=
      Classical.not_not.mp fun other => nothing (unexported statement other)
    have keeps : rewrite.keeps statement = true := by
      refine (Bool.eq_false_or_eq_true _).resolve_right fun lost => nothing (own statement ?_)
      exact Rewrite.subject?_of_not_keeps lost
    cases fires : rewrite.fires? statement with
    | some rule =>
      have isVariables : rule = .namedVariable := by simpa [Rewrite.keeps, fires] using keeps
      simp [Rewrite.edit, fires, isVariables, Rewrite.editBy, exported, keeps]
    | none =>
      have unsigned : exportsSignature rewrite.name statement = false :=
        Bool.eq_false_iff.mpr fun signature =>
          nothing (own statement (subject?_of_exportsSignature signature))
      simp [Rewrite.edit, fires, unsigned, exported, keeps]

theorem flatMap_eq_of_forall₂ {β γ : Type} {R : β → γ → Prop} {l : List β} {l' : List γ}
    {f : β → List α} {g : γ → List α} (related : List.Forall₂ R l l')
    (same : ∀ a ∈ l, ∀ b, R a b → g b = f a) : l'.flatMap g = l.flatMap f := by
  induction related with
  | nil => rfl
  | cons here _ ih =>
    rw [List.flatMap_cons, List.flatMap_cons, same _ List.mem_cons_self _ here,
      ih fun a member => same a (List.mem_cons_of_mem _ member)]

theorem forall₂_of_map_eq {β γ δ : Type} {l : List β} {l' : List γ} {f : β → δ} {g : γ → δ}
    (equal : l.map f = l'.map g) : List.Forall₂ (fun a b => f a = g b) l l' := by
  rw [← List.forall₂_eq_eq_eq] at equal
  exact List.forall₂_map_right_iff.mp (List.forall₂_map_left_iff.mp equal)

/-- The export statements of an edited module. -/
theorem Rewrite.exportStatements_edited (rewrite : Rewrite) (root : Node) (target : ImportTarget) :
    (rewrite.edited root target).exportStatements = (rewrite.editedExports root).map (·.2) := by
  have imported : (rewrite.importNodes (scanImports root target.symbol) target).filter
      (·.kind == .exportStatement) = [] := by
    unfold Rewrite.importNodes
    split <;> rfl
  rw [Node.exportStatements, Rewrite.edited, List.filter_append, List.filter_append, imported,
    List.append_nil, List.filter_flatMap, List.filter_flatMap, ← List.flatMap_append,
    List.takeWhile_append_dropWhile, Rewrite.editedExports, List.map_flatMap]
  refine List.flatMap_congr fun statement _ => ?_
  rw [List.map_map]
  exact (List.map_id _).symm

theorem flatMap_exportStatements (unexported : ∀ node : Node, node.kind ≠ .exportStatement →
    gather node = []) (root : Node) :
    root.exportStatements.flatMap gather = root.children.flatMap gather := by
  rw [Node.exportStatements]
  induction root.children with
  | nil => rfl
  | cons node rest ih =>
    by_cases exported : node.kind = .exportStatement <;> simp [exported, ih, unexported]

/-- What is read of an edited module gives for another name what the source gives. The generated
statements give nothing, and those that are kept give the same. -/
theorem ReadsAsEdited.flatMap_eq (reads : ReadsAsEdited rewrite root target imports text read)
    (unexported : ∀ node : Node, node.kind ≠ .exportStatement →
      gather node = [] ∧ gather' node = [])
    (own : ∀ node, subject? node = some rewrite.name → gather node = [])
    (same : ∀ statement ∈ root.children,
      ∀ edited ∈ rewrite.edit (rewrite.demotesSignatures root) statement,
        edited.kind = .exportStatement → ∀ found : Node, found.outline = edited.outline →
          (rewrite.keeps statement = true → found.landmarks Span.range =
            statement.landmarks (Span.moved rewrite.bytes (rewrite.made root imports))) →
          gather' found = if rewrite.keeps statement then gather statement else []) :
    read.children.flatMap gather' = root.children.flatMap gather := by
  have outlines : (rewrite.editedExports root).map (fun origin => origin.2.outline) =
      read.exportStatements.map Node.outline := by
    have isExport := Syntax.Node.outlined_kind (by decide : Syntax.Kind.exportStatement ≠ .comment)
    have listed := congrArg Node.exportStatements reads.outline
    simp only [Node.exportStatements, Node.outline_children, isExport.filter] at listed
    rw [Node.exportStatements, listed, ← Node.exportStatements, Rewrite.exportStatements_edited,
      List.map_map]
    rfl
  have related :=
    List.Forall₂.mp (fun _ _ => And.intro) (forall₂_of_map_eq outlines) reads.landmarks
  rw [← flatMap_exportStatements fun node other => (unexported node other).2]
  rw [flatMap_eq_of_forall₂
    (f := fun origin => if rewrite.keeps origin.1 then gather origin.1 else []) related]
  · rw [Rewrite.editedExports, List.flatMap_assoc]
    refine List.flatMap_congr fun statement _ => ?_
    rw [List.flatMap_map]
    exact Rewrite.flatMap_edit_exports _ (fun node other => (unexported node other).1) own statement
  · rintro ⟨statement, edited⟩ member found ⟨outline, landmarks⟩
    obtain ⟨_, isChild, member⟩ := List.mem_flatMap.mp member
    obtain ⟨_, isEdit, pair⟩ := List.mem_map.mp member
    cases pair
    obtain ⟨isEdit, exported⟩ := List.mem_filter.mp isEdit
    exact same statement isChild edited isEdit (by simpa using exported)
      found outline.symm landmarks

end Gathering

end RenderProbe.Wrap
