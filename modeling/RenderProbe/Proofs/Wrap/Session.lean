import RenderProbe.Engine.Strategy
import RenderProbe.Proofs.Wrap.EditedTree

/-!
# Sessions

A session wraps components of one file one after the other with one wrapper. A step that wraps
something hands its output on; any other step hands on the text it was given.

What a session assumes of the parser is `Session.ReadsBack`: the output of a step reads as the tree
it was made from with the edits applied, up to layout.

* `Session.advance`: a step leaves nothing of its own name to wrap, makes nothing to wrap for
  another name, and leaves the wrapper imported.
* `Session.wraps_each_name_once`: hence no name is wrapped twice in a session, and the wrapper is
  imported at most once.
-/

namespace RenderProbe.Wrap

open Syntax (Node)

/-- A component to wrap, and the module that the wrapper is imported from. -/
structure Step where
  name : String
  module : String
  deriving DecidableEq, Inhabited

/-- A step with the text it is taken on. -/
structure Stage where
  text : String
  step : Step
  deriving DecidableEq, Inhabited

/-- What all steps of a session share: the settings, the limit and the name that the source is read
with, and the wrapper. The components differ from step to step. -/
structure Session where
  settings : StrategySettings
  limit : Int
  fileName : String
  symbol : String
  deriving Inhabited

namespace Session

variable (session : Session)

/-- A session with the settings of a run without configuration. -/
def standard (fileName symbol : String) : Session :=
  ⟨{}, Source.defaultLimit, fileName, symbol⟩

/-- A text of the session, read. -/
def source (text : String) : Source :=
  Source.read session.limit text session.fileName

/-- The wrapper and the module that a stage imports it from. -/
def target (stage : Stage) : ImportTarget :=
  ⟨session.symbol, stage.step.module⟩

/-- What becomes of a stage. -/
def result (stage : Stage) : Except Patch.Error WrapResult :=
  Strategy.transform session.settings (session.source stage.text) stage.step.name
    (session.target stage) .syntaxTree

/-- Whether a stage wraps something. -/
def succeeds (stage : Stage) : Bool :=
  match session.result stage with
  | .ok (.wrapped _ _) => true
  | _ => false

/-- The text that a stage hands on. -/
def next (stage : Stage) : String :=
  match session.result stage with
  | .ok (.wrapped output _) => output
  | _ => stage.text

/-- The stages of a run. -/
def stages (text : String) : List Step → List Stage
  | [] => []
  | step :: rest => ⟨text, step⟩ :: stages (session.next ⟨text, step⟩) rest

/-! ## What a stage does -/

/-- The rewrite of a stage. -/
def rewrite (stage : Stage) (root : Node) : Rewrite :=
  .of session.settings.criteria session.settings.style stage.text root stage.step.name
    session.symbol

/-- The aim at a name. -/
def aim (name : String) : Aim :=
  ⟨session.settings.criteria, name, session.symbol⟩

/-- The patches that the rules have for a stage. -/
def patches (stage : Stage) : List Patch :=
  match (session.source stage.text).tree with
  | some root => (session.rewrite stage root).rulePatches root
  | none => []

/-- The imports of the wrapper that a stage inserts. -/
def inserted (stage : Stage) : List Patch :=
  match (session.source stage.text).tree with
  | some root =>
    if session.succeeds stage then
      importPatches (scanImports root session.symbol) session.settings.style
        (session.rewrite stage root).newline (session.target stage)
    else []
  | none => []

/-- The tree of a stage with its edits applied, when it wraps something. -/
def edited? (stage : Stage) : Option Node :=
  match (session.source stage.text).tree with
  | some root =>
    if session.succeeds stage then
      some ((session.rewrite stage root).edited root (session.target stage))
    else none
  | none => none

/-- The output of every stage reads as the tree with the edits applied. -/
def ReadsBack (text : String) : List Step → Prop
  | [] => True
  | step :: rest =>
    (∀ edited ∈ session.edited? ⟨text, step⟩,
      (session.source (session.next ⟨text, step⟩)).tree.map Node.outline = some edited.outline)
    ∧ ReadsBack (session.next ⟨text, step⟩) rest

instance decidableReadsBack (text : String) :
    ∀ steps, Decidable (session.ReadsBack text steps)
  | [] => isTrue trivial
  | step :: rest =>
    have _ : Decidable (∀ edited ∈ session.edited? ⟨text, step⟩,
        (session.source (session.next ⟨text, step⟩)).tree.map Node.outline = some edited.outline) :=
      Option.decidableForallMem _
    have := decidableReadsBack (session.next ⟨text, step⟩) rest
    inferInstanceAs (Decidable (_ ∧ _))

end Session

section Steps

variable {session : Session} {stage : Stage} {root : Node} {name : String}

namespace Session

theorem result_of_tree (parsed : (session.source stage.text).tree = some root) :
    session.result stage = transform session.settings.criteria session.settings.style stage.text
      root stage.step.name (session.target stage) := by
  simp only [result, Strategy.transform, parsed]
  rfl

theorem succeeds_iff : session.succeeds stage = true ↔
    ∃ output rules, session.result stage = .ok (.wrapped output rules) := by
  unfold succeeds
  split
  case h_1 answer => simp [answer]
  case h_2 other =>
    simp only [Bool.false_eq_true, false_iff, not_exists]
    exact other

theorem next_of_not_succeeds (fails : session.succeeds stage = false) :
    session.next stage = stage.text := by
  unfold succeeds at fails
  unfold next
  split at fails
  · cases fails
  · rfl

/-- A name with nothing to wrap is answered so, without a patch. -/
theorem result_of_settled (parsed : (session.source stage.text).tree = some root)
    (settled : (session.aim stage.step.name).Settled root) :
    session.patches stage = [] ∧ session.result stage = .ok (.untouched .noMatch) := by
  have silent : (session.rewrite stage root).firing root = [] :=
    ((session.rewrite stage root).firing_eq_nil_iff root).mpr settled
  refine ⟨by simp [patches, parsed, Rewrite.rulePatches, silent], ?_⟩
  rw [result_of_tree parsed]
  exact transform_of_firing_eq_nil silent

/-- What a stage hands on is its text with its patches and imports spliced in. -/
theorem render_of_succeeds (succeeds : session.succeeds stage = true) :
    Patch.render (Patch.encode stage.text) (session.patches stage ++ session.inserted stage) =
      .ok (session.next stage) := by
  obtain ⟨output, rules, answer⟩ := succeeds_iff.mp succeeds
  have next : session.next stage = output := by simp [Session.next, answer]
  cases parsed : (session.source stage.text).tree with
  | none => simp [result, Strategy.transform, parsed] at answer
  | some root =>
    rw [result_of_tree parsed] at answer
    obtain ⟨-, rendered, -, -⟩ := transform_eq_wrapped_iff.mp answer
    simp only [patches, inserted, parsed, succeeds, next, if_true]
    exact rendered

/-- A stage leaves nothing of its own name to wrap, makes nothing to wrap for another name, and
leaves the wrapper imported. -/
theorem advance (stage : Stage) (parsed : (session.source stage.text).tree = some root)
    (readsBack : ∀ edited ∈ session.edited? stage,
      (session.source (session.next stage)).tree.map Node.outline = some edited.outline) :
    ∃ nextRoot, (session.source (session.next stage)).tree = some nextRoot
      ∧ (∀ name, (session.succeeds stage = true ∧ name = stage.step.name)
          ∨ (session.aim name).Settled root → (session.aim name).Settled nextRoot)
      ∧ (session.succeeds stage = true ∨ (scanImports root session.symbol).hasBinding = true →
          (scanImports nextRoot session.symbol).hasBinding = true) := by
  cases succeeds : session.succeeds stage with
  | false =>
    rw [next_of_not_succeeds succeeds]
    exact ⟨root, parsed, by simp, by simp⟩
  | true =>
    have reads := readsBack ((session.rewrite stage root).edited root (session.target stage))
      (by simp [edited?, parsed, succeeds])
    obtain ⟨nextRoot, parsed', outlined⟩ := Option.map_eq_some_iff.mp reads
    refine ⟨nextRoot, parsed', fun name before => ?_, fun _ => ?_⟩
    · rw [← Aim.settled_outline, outlined, Aim.settled_outline]
      exact Aim.settled_edited rfl rfl (before.imp (·.2) id)
    · rw [← hasBinding_outline, outlined, hasBinding_outline]
      exact hasBinding_edited _ root (session.target stage)

/-! ## Runs -/

/-- A name that has nothing to wrap at the start of a run has nothing to wrap at any stage of it. By
induction on the steps: none of them brings an export of the name back. -/
theorem result_of_mem_stages {text : String} {steps : List Step}
    (parsed : (session.source text).tree = some root) (readsBack : session.ReadsBack text steps)
    (settled : (session.aim name).Settled root) :
    ∀ stage ∈ session.stages text steps, stage.step.name = name →
      session.patches stage = [] ∧ session.result stage = .ok (.untouched .noMatch) := by
  induction steps generalizing text root with
  | nil => simp [stages]
  | cons step rest ih =>
    rintro stage member rfl
    rcases List.mem_cons.mp member with rfl | later
    · exact result_of_settled parsed settled
    · obtain ⟨nextRoot, parsed', keeps, -⟩ := advance ⟨text, step⟩ parsed readsBack.1
      exact ih parsed' readsBack.2 (keeps _ (.inr settled)) stage later rfl

/-- A module that imports the wrapper at the start of a run is given no import. -/
theorem inserted_of_hasBinding {text : String} {steps : List Step}
    (parsed : (session.source text).tree = some root) (readsBack : session.ReadsBack text steps)
    (bound : (scanImports root session.symbol).hasBinding = true) :
    (session.stages text steps).flatMap session.inserted = [] := by
  induction steps generalizing text root with
  | nil => rfl
  | cons step rest ih =>
    obtain ⟨nextRoot, parsed', -, binds⟩ := advance ⟨text, step⟩ parsed readsBack.1
    have here : session.inserted ⟨text, step⟩ = [] := by
      simp [inserted, parsed, importPatches, bound]
    rw [stages, List.flatMap_cons, here, ih parsed' readsBack.2 (binds (.inr bound))]
    rfl

/-- A name that a stage wraps has nothing to wrap at any later stage. By induction on the steps;
behind the first one it is settled, and stays so. -/
theorem pairwise_stages {text : String} {steps : List Step}
    (parsed : (session.source text).tree = some root) (readsBack : session.ReadsBack text steps) :
    (session.stages text steps).Pairwise fun earlier later =>
      session.succeeds earlier = true → later.step.name = earlier.step.name →
        session.patches later = [] ∧ session.result later = .ok (.untouched .noMatch) := by
  induction steps generalizing text root with
  | nil => exact .nil
  | cons step rest ih =>
    obtain ⟨nextRoot, parsed', keeps, -⟩ := advance ⟨text, step⟩ parsed readsBack.1
    refine .cons (fun later member succeeds name => ?_) (ih parsed' readsBack.2)
    exact result_of_mem_stages parsed' readsBack.2
      (keeps _ (.inl ⟨succeeds, rfl⟩)) later member name

/-- A run inserts at most one import of the wrapper. -/
theorem length_inserted_le_one {text : String} {steps : List Step}
    (parsed : (session.source text).tree = some root) (readsBack : session.ReadsBack text steps) :
    ((session.stages text steps).flatMap session.inserted).length ≤ 1 := by
  induction steps generalizing text root with
  | nil => exact Nat.zero_le 1
  | cons step rest ih =>
    obtain ⟨nextRoot, parsed', -, binds⟩ := advance ⟨text, step⟩ parsed readsBack.1
    rw [stages, List.flatMap_cons, List.length_append]
    cases succeeds : session.succeeds ⟨text, step⟩ with
    | false =>
      have here : session.inserted ⟨text, step⟩ = [] := by simp [inserted, parsed, succeeds]
      simpa [here] using ih parsed' readsBack.2
    | true =>
      have later := inserted_of_hasBinding parsed' readsBack.2 (binds (.inl succeeds))
      have here : (session.inserted ⟨text, step⟩).length ≤ 1 := by
        simp only [inserted, parsed, succeeds, importPatches, if_true]
        split
        · exact Nat.zero_le 1
        · exact Nat.le_refl 1
      simpa [later] using here

/-- No name succeeds at two stages of a run. -/
theorem length_successes_le_one {text : String} {steps : List Step}
    (parsed : (session.source text).tree = some root) (readsBack : session.ReadsBack text steps)
    (name : String) :
    ((session.stages text steps).filter fun stage =>
      stage.step.name == name && session.succeeds stage).length ≤ 1 := by
  have apart := (pairwise_stages parsed readsBack).filter fun stage =>
    stage.step.name == name && session.succeeds stage
  generalize successes : (session.stages text steps).filter (fun stage =>
    stage.step.name == name && session.succeeds stage) = found at apart ⊢
  have all : ∀ stage ∈ found, stage.step.name = name ∧ session.succeeds stage = true := by
    intro stage member
    rw [← successes] at member
    simpa using (List.mem_filter.mp member).2
  match found with
  | [] => exact Nat.zero_le 1
  | [_] => exact Nat.le_refl 1
  | first :: second :: rest =>
    obtain ⟨name₁, succeeds₁⟩ := all first (by simp)
    obtain ⟨name₂, succeeds₂⟩ := all second (by simp)
    obtain ⟨-, answer⟩ := List.rel_of_pairwise_cons apart List.mem_cons_self succeeds₁
      (name₂.trans name₁.symm)
    rw [Session.succeeds, answer] at succeeds₂
    cases succeeds₂

end Session

end Steps

/-- In a run of wraps with one wrapper each name succeeds at most once: once it did, every later
step for it has no patch and finds no match, whatever was wrapped in between. The run inserts at
most one import of the wrapper, and none if the module imports it from the start. -/
theorem Session.wraps_each_name_once (session : Session) (text : String) (root : Node)
    (steps : List Step) (parsed : (session.source text).tree = some root)
    (readsBack : session.ReadsBack text steps) :
    (∀ stage ∈ session.stages text steps, session.succeeds stage = true →
      Patch.render (Patch.encode stage.text) (session.patches stage ++ session.inserted stage) =
        .ok (session.next stage))
    ∧ (∀ name, ((session.stages text steps).filter fun stage =>
        stage.step.name == name && session.succeeds stage).length ≤ 1)
    ∧ ((session.stages text steps).Pairwise fun earlier later =>
        session.succeeds earlier = true → later.step.name = earlier.step.name →
          session.patches later = [] ∧ session.result later = .ok (.untouched .noMatch))
    ∧ ((session.stages text steps).flatMap session.inserted).length ≤ 1
    ∧ ((scanImports root session.symbol).hasBinding = true →
        (session.stages text steps).flatMap session.inserted = []) :=
  ⟨fun _ _ => Session.render_of_succeeds, Session.length_successes_le_one parsed readsBack,
    Session.pairwise_stages parsed readsBack, Session.length_inserted_le_one parsed readsBack,
    Session.inserted_of_hasBinding parsed readsBack⟩

/-- A function, and a variable that refers to it. -/
def functionAndVariable : String :=
  "export function A()\x7b\x7dexport let C=memo(A)"

/-- A step for each of the two, and another one for the function. -/
def threeSteps : List Step :=
  [⟨"A", "m"⟩, ⟨"C", "m"⟩, ⟨"A", "n"⟩]

/-- Three steps over a function and a variable: the third finds nothing left of the first name. -/
theorem Session.wraps_each_name_once_twoNames :
    ∃ root, ((standard "a.tsx" "w").source functionAndVariable).tree = some root
      ∧ (standard "a.tsx" "w").ReadsBack functionAndVariable threeSteps
      ∧ ((standard "a.tsx" "w").stages functionAndVariable threeSteps).map
        (standard "a.tsx" "w").succeeds = [true, true, false]
      ∧ (((standard "a.tsx" "w").stages functionAndVariable threeSteps).flatMap
        (standard "a.tsx" "w").inserted).length ≤ 1 := by
  have evaluated : ((standard "a.tsx" "w").source functionAndVariable).tree.isSome = true
      ∧ (standard "a.tsx" "w").ReadsBack functionAndVariable threeSteps
      ∧ ((standard "a.tsx" "w").stages functionAndVariable threeSteps).map
        (standard "a.tsx" "w").succeeds = [true, true, false] := by
    decide +kernel
  obtain ⟨read, readsBack, succeeded⟩ := evaluated
  obtain ⟨root, parsed⟩ := Option.isSome_iff_exists.mp read
  obtain ⟨-, -, -, imports, -⟩ := Session.wraps_each_name_once _ _ root _ parsed readsBack
  exact ⟨root, parsed, readsBack, succeeded, imports⟩

end RenderProbe.Wrap
