import RenderProbe.Proofs.Wrap.SecondWrap

/-!
# Wraps in either order

Two names of one module can be wrapped at once, or one after the other. A second wrap reads the tree
of the first one's text and finds the wrapper imported, so it makes the edits that are left.

* `Rewrite.Beside.weave_both`: the edits of two wraps, one after the other, weave what all weave at
  once.
* `handedOn_second`: what the second of two wraps hands on is what both make at once.
* `wraps_commute`: hence the order of two wraps makes no difference, unless the first one takes the
  line breaks away that the second one goes by.
-/

namespace RenderProbe.Wrap

open Syntax (Node Forest)
open Patch (Edit Row encode weave)
open Component (Criteria)

/-- The text that a wrap hands on: its output, or the text itself where it leaves it as it is. -/
def handedOn (criteria : Criteria) (style : QuoteStyle) (text : String) (root : Node)
    (name : String) (target : ImportTarget) : Except Patch.Error String :=
  match transform criteria style text root name target with
  | .ok (.wrapped output _) => .ok output
  | .ok (.untouched _) => .ok text
  | .error e => .error e

/-- The tree that the text of a wrap is assumed to have: the edited tree where something is wrapped,
and the tree of the text itself where nothing is. -/
def ReadsNext (rewrite : Rewrite) (root : Node) (target : ImportTarget) (imports : List Patch)
    (output : String) (read : Node) : Prop :=
  (rewrite.firing root = [] → read = root)
    ∧ (rewrite.firing root ≠ [] → ReadsAsEdited rewrite root target imports output read)

instance (rewrite : Rewrite) (root : Node) (target : ImportTarget) (imports : List Patch)
    (output : String) (read : Node) :
    Decidable (ReadsNext rewrite root target imports output read) :=
  inferInstanceAs (Decidable ((_ → _) ∧ (_ → _)))

section Edits

variable {rewrite other : Rewrite} {root : Node}

theorem Rewrite.demotesSignatures_eq (rewrite : Rewrite) (root : Node) :
    rewrite.demotesSignatures root
      = ((rewrite.firing root).map (·.2)).any (· == .namedFunction) := by
  rw [Rewrite.demotesSignatures, List.any_map]
  rfl

/-- The edits of one wrap and then those for another name, each where the wrap has moved it, weave
what the edits of both weave at once. -/
theorem Rewrite.Beside.weave_both {symbol newline : String} {style : QuoteStyle}
    {target : ImportTarget} {imports : List Patch} {between : List UInt8}
    (imported : importPatches (scanImports root symbol) style newline target = imports)
    (beside : rewrite.Beside other root)
    (row : Row rewrite.bytes.length ((Patch.arrange
      (rewrite.rulePatches root ++ other.rulePatches root ++ imports)).map Patch.edit))
    (written : between = weave rewrite.bytes 0 rewrite.bytes.length (rewrite.made root imports)) :
    weave between 0 between.length
        ((root.children.flatMap (other.edits (other.demotesSignatures root))).map
          (Edit.moved rewrite.bytes (rewrite.made root imports))) =
      weave rewrite.bytes 0 rewrite.bytes.length ((Patch.arrange
        (rewrite.rulePatches root ++ other.rulePatches root ++ imports)).map Patch.edit) := by
  subst written
  have second := Rewrite.row_edits beside.there.wellFormed (other.demotesSignatures root)
  rw [beside.bytes] at second
  refine Patch.weave_moved row (beside.here.row imported) second ?_ fun edit member isMade =>
    (beside.apart_of_mem_made imported member isMade).ne rfl
  have listed : (Patch.arrange
      (rewrite.rulePatches root ++ other.rulePatches root ++ imports)).Perm
        (Patch.arrange (rewrite.rulePatches root ++ imports) ++ other.rulePatches root) := by
    refine (Patch.arrange_perm _).trans ?_
    rw [List.append_assoc]
    refine (List.perm_append_comm.append_left _).trans ?_
    rw [← List.append_assoc]
    exact (Patch.arrange_perm _).symm.append_right _
  refine (listed.map Patch.edit).trans ?_
  rw [List.map_append]
  exact beside.there.edits_perm.append_left _

end Edits

section Orders

variable {criteria : Criteria} {style : QuoteStyle} {text name : String} {root : Node}
  {target : ImportTarget}

theorem handedOn_of_silent
    (silent : (Rewrite.of criteria style text root name target.symbol).firing root = []) :
    handedOn criteria style text root name target = .ok text := by
  rw [handedOn, transform_of_firing_eq_nil silent]

/-- Where a rule fires, the text with the patches is handed on, even if they leave it as it is. -/
theorem handedOn_of_fires
    (fires : (Rewrite.of criteria style text root name target.symbol).firing root ≠ []) :
    handedOn criteria style text root name target =
      Patch.render (encode text)
        ((Rewrite.of criteria style text root name target.symbol).rulePatches root
          ++ importPatches (scanImports root target.symbol) style
            (Snippet.newlineFor text) target) := by
  rw [handedOn, transform_of_firing_ne_nil fires]
  cases rendered : Patch.render (encode text)
      ((Rewrite.of criteria style text root name target.symbol).rulePatches root
        ++ importPatches (scanImports root target.symbol) style
          (Snippet.newlineFor text) target) with
  | error e => rfl
  | ok output =>
    by_cases same : output = text <;> simp [same]

/-- A text that reads as an edited tree imports the wrapper. -/
theorem ReadsAsEdited.hasBinding {rewrite : Rewrite} {imports : List Patch} {read : Node}
    (reads : ReadsAsEdited rewrite root target imports text read) :
    (scanImports read target.symbol).hasBinding = true := by
  rw [← hasBinding_outline, reads.outline, hasBinding_outline]
  exact hasBinding_edited rewrite root target

/-- In the text of a first wrap another name can be wrapped if it could be in the source. -/
theorem ReadsAsEdited.renderable {rewrite : Rewrite} {imports : List Patch} {read : Node}
    {output : String} (reads : ReadsAsEdited rewrite root target imports output read)
    (errorFree : root.ErrorFree (encode text)) (symbols : target.symbol = rewrite.symbol)
    (differ : rewrite.name ≠ name)
    (renderable : (Rewrite.of criteria style text root name target.symbol).Renderable root) :
    (Rewrite.of criteria style output read name target.symbol).Renderable read := by
  have rules : ((Rewrite.of criteria style output read name target.symbol).firing read).map (·.2) =
      ((Rewrite.of criteria style text root name target.symbol).firing root).map (·.2) :=
    reads.rules rfl symbols differ
  have symbols :
      (Rewrite.of criteria style text root name target.symbol).aim.symbol = rewrite.symbol :=
    symbols
  have overloads : overloadSignatures read name = [] ↔ overloadSignatures root name = [] :=
    reads.overloads symbols differ
  refine ⟨reads.errorFree.wellFormed, rfl, Classical.not_not.mp fun twice => ?_⟩
  obtain ⟨overloaded, two⟩ := (not_demotesOnce_iff reads.errorFree).mp twice
  exact (not_demotesOnce_iff errorFree).mpr ⟨mt overloads.mpr overloaded,
    rules ▸ two⟩ renderable.once

/-- What a wrap of another name makes of the text of a first wrap is what both make at once. -/
theorem handedOn_second {first second output joint : String} {read : Node}
    (errorFree : root.ErrorFree (encode text))
    (beside : (Rewrite.of criteria style text root first target.symbol).Beside
      (.of criteria style text root second target.symbol) root)
    (rendered : Patch.render (encode text)
      ((Rewrite.of criteria style text root first target.symbol).rulePatches root
        ++ importPatches (scanImports root target.symbol) style (Snippet.newlineFor text) target) =
      .ok output)
    (reads : ReadsAsEdited (.of criteria style text root first target.symbol) root target
      (importPatches (scanImports root target.symbol) style (Snippet.newlineFor text) target) output
        read)
    (breaks : ((Rewrite.of criteria style text root second target.symbol).firing root).any
        (·.2.appends) = true → Snippet.newlineFor output = Snippet.newlineFor text)
    (together : Patch.render (encode text)
      ((Rewrite.of criteria style text root first target.symbol).rulePatches root
        ++ (Rewrite.of criteria style text root second target.symbol).rulePatches root
        ++ importPatches (scanImports root target.symbol) style (Snippet.newlineFor text) target) =
      .ok joint) :
    handedOn criteria style output read second target = .ok joint := by
  let rewrite := Rewrite.of criteria style text root first target.symbol
  let other := Rewrite.of criteria style text root second target.symbol
  let other' := Rewrite.of criteria style output read second target.symbol
  have rules : (other'.firing read).map (·.2) = (other.firing root).map (·.2) :=
    reads.rules rfl rfl beside.differ
  by_cases silent : other.firing root = []
  · -- Nothing is left to wrap, and there was nothing.
    have silent' : other'.firing read = [] := by simpa [silent] using rules
    rw [(other.rulePatches_eq_nil_iff root).mpr silent, List.append_nil, rendered] at together
    rw [handedOn_of_silent silent', together]
  · have fires' : other'.firing read ≠ [] := fun silent' => silent (by simpa [silent'] using rules)
    have renderable : other'.Renderable read :=
      reads.renderable errorFree rfl beside.differ beside.there
    have imported : importPatches (scanImports read target.symbol) style (Snippet.newlineFor output)
        target = [] := by
      simp [importPatches, reads.hasBinding]
    obtain ⟨-, output', rendered'⟩ := render_of_demotesOnce renderable.wellFormed renderable.once
    rw [handedOn_of_fires fires', rendered']
    refine congrArg Except.ok (Patch.encode_injective ?_)
    have between := (Patch.render_eq_ok rendered).2
    have woven : encode output' =
        weave (encode output) 0 (encode output).length (other'.made read []) := by
      rw [← imported]
      exact (Patch.render_eq_ok rendered').2
    -- The second wrap makes the edits that are left, each where the first has moved it.
    have signatures : other'.demotesSignatures read = other.demotesSignatures root := by
      rw [Rewrite.demotesSignatures_eq, rules, ← Rewrite.demotesSignatures_eq]
    have carried : other.CarriedTo other' (rewrite.made root _) := ⟨rfl, rfl, between⟩
    have made := renderable.made_nil (renderable.row imported)
    rw [signatures, reads.edits_moved rfl beside carried rfl breaks] at made
    rw [woven, made, (Patch.render_eq_ok together).2]
    exact beside.weave_both rfl beside.render_together.1 between

/-- A wrap that can be rendered hands on a text. -/
theorem Rewrite.Renderable.handedOn
    (renderable : (Rewrite.of criteria style text root name target.symbol).Renderable root) :
    ∃ output, Wrap.handedOn criteria style text root name target = .ok output := by
  by_cases silent : (Rewrite.of criteria style text root name target.symbol).firing root = []
  · exact ⟨text, handedOn_of_silent silent⟩
  · rw [handedOn_of_fires silent]
    exact (render_of_demotesOnce renderable.wellFormed renderable.once).2

/-- Two wraps hand on what they make at once, unless there is nothing to wrap for either. -/
theorem handedOn_next {first second output joint : String} {read : Node}
    (errorFree : root.ErrorFree (encode text))
    (beside : (Rewrite.of criteria style text root first target.symbol).Beside
      (.of criteria style text root second target.symbol) root)
    (answer : handedOn criteria style text root first target = .ok output)
    (reads : ReadsNext (.of criteria style text root first target.symbol) root target
      (importPatches (scanImports root target.symbol) style (Snippet.newlineFor text) target) output
        read)
    (breaks : ((Rewrite.of criteria style text root second target.symbol).firing root).any
        (·.2.appends) = true → Snippet.newlineFor output = Snippet.newlineFor text)
    (together : Patch.render (encode text)
      ((Rewrite.of criteria style text root first target.symbol).rulePatches root
        ++ (Rewrite.of criteria style text root second target.symbol).rulePatches root
        ++ importPatches (scanImports root target.symbol) style (Snippet.newlineFor text) target) =
      .ok joint) :
    ∃ both, handedOn criteria style output read second target = .ok both
      ∧ ((Rewrite.of criteria style text root first target.symbol).rulePatches root = []
        → (Rewrite.of criteria style text root second target.symbol).rulePatches root = []
        → both = text)
      ∧ ((Rewrite.of criteria style text root first target.symbol).rulePatches root ≠ []
        ∨ (Rewrite.of criteria style text root second target.symbol).rulePatches root ≠ []
        → both = joint) := by
  simp only [ne_eq, Rewrite.rulePatches_eq_nil_iff]
  by_cases silent : (Rewrite.of criteria style text root first target.symbol).firing root = []
  · obtain rfl := reads.1 silent
    rw [handedOn_of_silent silent, Except.ok.injEq] at answer
    subst answer
    by_cases silent' : (Rewrite.of criteria style text read second target.symbol).firing read = []
    · exact ⟨text, handedOn_of_silent silent', by simp [silent, silent']⟩
    · rw [(Rewrite.rulePatches_eq_nil_iff _ read).mpr silent, List.nil_append] at together
      exact ⟨joint, (handedOn_of_fires silent').trans together, by simp [silent']⟩
  · rw [handedOn_of_fires silent] at answer
    exact ⟨joint, handedOn_second errorFree beside answer (reads.2 silent) breaks together,
      by simp [silent]⟩

/-- Wraps of two names commute. Where the patches for each can be rendered, those for both and
the import of the wrapper can be rendered too, to one text, however they are listed. And wrapping
the one name and then the other hands on the same text in either order, the text of both at once if
there is anything to wrap. It is assumed of the texts in between that they read as the edited trees
and, where the second wrap appends an export, that the first one has left the line break that
exports are appended with. -/
theorem wraps_commute {criteria : Criteria} {style : QuoteStyle} {text first second : String}
    {root : Node} {alone alone' : String} (target : ImportTarget)
    (errorFree : root.ErrorFree (encode text)) (differ : first ≠ second)
    (rendered : Patch.render (encode text)
      ((Rewrite.of criteria style text root first target.symbol).rulePatches root) = .ok alone)
    (rendered' : Patch.render (encode text)
      ((Rewrite.of criteria style text root second target.symbol).rulePatches root) = .ok alone') :
    let rewrite name := Rewrite.of criteria style text root name target.symbol
    let patches name := (rewrite name).rulePatches root
    let appends name := ((rewrite name).firing root).any (·.2.appends) = true
    let imports :=
      importPatches (scanImports root target.symbol) style (Snippet.newlineFor text) target
    ∃ joint output output',
      (∀ listed : List Patch, listed.Perm (patches first ++ patches second ++ imports) →
        Patch.render (encode text) listed = .ok joint)
      ∧ handedOn criteria style text root first target = .ok output
      ∧ handedOn criteria style text root second target = .ok output'
      ∧ ∀ read read', ReadsNext (rewrite first) root target imports output read →
        ReadsNext (rewrite second) root target imports output' read' →
        (appends second → Snippet.newlineFor output = Snippet.newlineFor text) →
        (appends first → Snippet.newlineFor output' = Snippet.newlineFor text) →
        ∃ both, handedOn criteria style output read second target = .ok both
          ∧ handedOn criteria style output' read' first target = .ok both
          ∧ (patches first ≠ [] ∨ patches second ≠ [] → both = joint) := by
  intro rewrite patches appends imports
  have here := renderable_of_render errorFree.wellFormed rendered
  have there := renderable_of_render errorFree.wellFormed rendered'
  have beside : (rewrite first).Beside (rewrite second) root := ⟨here, there, rfl, differ⟩
  have beside' : (rewrite second).Beside (rewrite first) root := ⟨there, here, rfl, differ.symm⟩
  obtain ⟨-, joint, listed⟩ := beside.render_together
  obtain ⟨output, answer⟩ := here.handedOn
  obtain ⟨output', answer'⟩ := there.handedOn
  refine ⟨joint, output, output', listed, answer, answer',
    fun read read' reads reads' breaks breaks' => ?_⟩
  obtain ⟨both, handed, neither, either⟩ :=
    handedOn_next errorFree beside answer reads breaks (listed _ (.refl _))
  obtain ⟨both', handed', neither', either'⟩ :=
    handedOn_next errorFree beside' answer' reads' breaks'
    (listed _ (List.perm_append_comm.append_right _))
  have same : both' = both := by
    by_cases none : patches first = [] ∧ patches second = []
    · rw [neither none.1 none.2, neither' none.2 none.1]
    · rw [not_and_or] at none
      rw [either none, either' none.symm]
  exact ⟨both, handed, same ▸ handed', either⟩

end Orders

theorem ok_of_toOption {ε α : Type} {answer : Except ε α} {result : α}
    (found : answer.toOption = some result) : answer = .ok result := by
  cases answer with
  | error e => cases found
  | ok value => exact congrArg Except.ok (Option.some.inj found)

/-- Two wraps of a text that can be made, for `A` and for `B`, with what they hand on and how that
is read: all that the two orders start from. -/
structure Started (text : String) (root : Node) (output output' : String)
    (read read' : Node) : Prop where
  parsed : Syntax.parse true text = some root
  errorFree : root.ErrorFree (encode text)
  renders : ∃ alone, Patch.render (encode text)
    ((Rewrite.of .standard .single text root "A" "w").rulePatches root) = .ok alone
  renders' : ∃ alone, Patch.render (encode text)
    ((Rewrite.of .standard .single text root "B" "w").rulePatches root) = .ok alone
  answer : handedOn .standard .single text root "A" ⟨"w", "m"⟩ = .ok output
  answer' : handedOn .standard .single text root "B" ⟨"w", "m"⟩ = .ok output'
  parses : Syntax.parse true output = some read
  parses' : Syntax.parse true output' = some read'
  reads : ReadsNext (Rewrite.of .standard .single text root "A" "w") root ⟨"w", "m"⟩
    (importPatches (scanImports root "w") .single (Snippet.newlineFor text) ⟨"w", "m"⟩) output read
  reads' : ReadsNext (Rewrite.of .standard .single text root "B" "w") root ⟨"w", "m"⟩
    (importPatches (scanImports root "w") .single (Snippet.newlineFor text) ⟨"w", "m"⟩)
      output' read'

/-- Whether the two wraps of a text can be made so that a test of what they hand on is passed. -/
def startPasses (text : String) (test : String → Node → String → Node → Bool) : Bool :=
  (Syntax.parse true text).any fun root =>
    let rewrite name := Rewrite.of .standard .single text root name "w"
    let imports := importPatches (scanImports root "w") .single (Snippet.newlineFor text) ⟨"w", "m"⟩
    decide (root.ErrorFree (encode text))
      && (Patch.render (encode text) ((rewrite "A").rulePatches root)).toOption.isSome
      && (Patch.render (encode text) ((rewrite "B").rulePatches root)).toOption.isSome
      && (handedOn .standard .single text root "A" ⟨"w", "m"⟩).toOption.any fun output =>
        (handedOn .standard .single text root "B" ⟨"w", "m"⟩).toOption.any fun output' =>
        (Syntax.parse true output).any fun read => (Syntax.parse true output').any fun read' =>
          decide (ReadsNext (rewrite "A") root ⟨"w", "m"⟩ imports output read)
            && decide (ReadsNext (rewrite "B") root ⟨"w", "m"⟩ imports output' read')
            && test output read output' read'

theorem started_of_startPasses {text : String} {test : String → Node → String → Node → Bool}
    (passes : startPasses text test = true) : ∃ root output output' read read',
      Started text root output output' read read' ∧ test output read output' read' = true := by
  simp only [startPasses, Option.any_eq_true, Bool.and_eq_true, decide_eq_true_eq,
    Option.isSome_iff_exists] at passes
  obtain ⟨root, parsed, ⟨⟨errorFree, alone, renders⟩, alone', renders'⟩, output, answer, output',
    answer', read, parses, read', parses', ⟨reads, reads'⟩, passes⟩ := passes
  exact ⟨root, output, output', read, read', ⟨parsed, errorFree, ⟨alone, ok_of_toOption renders⟩,
    ⟨alone', ok_of_toOption renders'⟩, ok_of_toOption answer, ok_of_toOption answer', parses,
    parses', reads, reads'⟩, passes⟩

/-- Two variables in one statement, with a function of the second name behind them. -/
def oneStatement : String :=
  "export let A=memo(),B=memo();export function B()\x7b\x7d"

theorem wraps_commute_oneStatement :
    ∃ root output output' read read' both, Syntax.parse true oneStatement = some root
      ∧ handedOn .standard .single oneStatement root "A" ⟨"w", "m"⟩ = .ok output
      ∧ handedOn .standard .single oneStatement root "B" ⟨"w", "m"⟩ = .ok output'
      ∧ Syntax.parse true output = some read ∧ Syntax.parse true output' = some read'
      ∧ handedOn .standard .single output read "B" ⟨"w", "m"⟩ = .ok both
      ∧ handedOn .standard .single output' read' "A" ⟨"w", "m"⟩ = .ok both := by
  have passes : startPasses oneStatement (fun output _ output' _ =>
      decide (Snippet.newlineFor output = Snippet.newlineFor oneStatement
        ∧ Snippet.newlineFor output' = Snippet.newlineFor oneStatement)) = true := by
    decide +kernel
  obtain ⟨root, output, output', read, read', started, holds⟩ := started_of_startPasses passes
  obtain ⟨breaks, breaks'⟩ := of_decide_eq_true holds
  obtain ⟨_, rendered⟩ := started.renders
  obtain ⟨_, rendered'⟩ := started.renders'
  obtain ⟨joint, handed, handed', -, first, second, orders⟩ :=
    wraps_commute ⟨"w", "m"⟩ started.errorFree
    (by decide : "A" ≠ "B") rendered rendered'
  obtain rfl := Except.ok.inj (first.symm.trans started.answer)
  obtain rfl := Except.ok.inj (second.symm.trans started.answer')
  obtain ⟨both, last, last', -⟩ :=
    orders read read' started.reads started.reads' (fun _ => breaks) (fun _ => breaks')
  exact ⟨root, handed, handed', read, read', both, started.parsed, started.answer, started.answer',
    started.parses, started.parses', last, last'⟩

/-- A default export of which the parentheses hold the only carriage return of the text. -/
def carriageInParentheses : String :=
  "import \x7bw\x7d from 'm';export default (\r\nA);export function B()\x7b\x7d"

/-- Once the parentheses are gone, the export of the function is appended with another line
break. -/
theorem wraps_differ_carriageReturn :
    ∃ root alone alone' output output' read read' both both',
      let text := carriageInParentheses
      let rewrite name := Rewrite.of .standard .single text root name "w"
      let imports :=
        importPatches (scanImports root "w") .single (Snippet.newlineFor text) ⟨"w", "m"⟩
      Syntax.parse true text = some root ∧ root.ErrorFree (encode text)
      ∧ Patch.render (encode text) ((rewrite "A").rulePatches root) = .ok alone
      ∧ Patch.render (encode text) ((rewrite "B").rulePatches root) = .ok alone'
      ∧ handedOn .standard .single text root "A" ⟨"w", "m"⟩ = .ok output
      ∧ handedOn .standard .single text root "B" ⟨"w", "m"⟩ = .ok output'
      ∧ Syntax.parse true output = some read ∧ Syntax.parse true output' = some read'
      ∧ ReadsNext (rewrite "A") root ⟨"w", "m"⟩ imports output read
      ∧ ReadsNext (rewrite "B") root ⟨"w", "m"⟩ imports output' read'
      ∧ handedOn .standard .single output read "B" ⟨"w", "m"⟩ = .ok both
      ∧ handedOn .standard .single output' read' "A" ⟨"w", "m"⟩ = .ok both'
      ∧ both ≠ both' := by
  have passes : startPasses carriageInParentheses (fun output read output' read' =>
      (handedOn .standard .single output read "B" ⟨"w", "m"⟩).toOption.any fun both =>
        (handedOn .standard .single output' read' "A" ⟨"w", "m"⟩).toOption.any fun both' =>
          both != both') = true := by
    decide +kernel
  obtain ⟨root, output, output', read, read', started, holds⟩ := started_of_startPasses passes
  simp only [Option.any_eq_true, bne_iff_ne] at holds
  obtain ⟨both, last, both', last', differ⟩ := holds
  obtain ⟨alone, rendered⟩ := started.renders
  obtain ⟨alone', rendered'⟩ := started.renders'
  exact ⟨root, alone, alone', output, output', read, read', both, both', started.parsed,
    started.errorFree, rendered, rendered', started.answer, started.answer', started.parses,
    started.parses', started.reads, started.reads', ok_of_toOption last,
      ok_of_toOption last', differ⟩

end RenderProbe.Wrap
