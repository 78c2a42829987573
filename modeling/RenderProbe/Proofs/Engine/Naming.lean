import RenderProbe.Engine.Basic
import RenderProbe.Proofs.Component.Exports
import RenderProbe.Proofs.Text.LineFront
import RenderProbe.Proofs.Wrap.Firing

/-!
# Names of components

Three tests keep the names of components apart from other names: the first rule of detection looks
for an uppercase letter of any script, the line shape of an exported declaration and the test for a
name in the fallback for one of the Latin alphabet. Here they are held against one rule,
`StartsUppercase`.

* `Component.nodup_names_firstAccepted` and `Fallback.nodup_names_firstOfEachName`: what is reported
  is reported once.
* `Strategy.names_of_detect` and `Strategy.transform_of_not_startsUppercase`: each strategy keeps
  the rule.
* `Engine.names_capital_and_distinct`: so does an engine, whichever strategy it uses.
-/

namespace RenderProbe

/-- The name starts with an uppercase letter. -/
def StartsUppercase (name : String) : Prop :=
  ∃ first rest, name.toList = first :: rest ∧ Text.isUppercaseLetter first = true

theorem isComponentName_iff {name : String} :
    Component.isComponentName name = true ↔ StartsUppercase name := by
  unfold Component.isComponentName StartsUppercase
  cases name.toList with
  | nil => simp
  | cons first rest => simp

/-- A capital of the Latin alphabet is an uppercase letter. -/
theorem isUppercaseLetter_of_isUpper {c : Char} (capital : c.isUpper = true) :
    Text.isUppercaseLetter c = true := by
  have ascii : c.toNat < 128 := by
    delta Char.isUpper at capital
    simp only [decide_eq_true_eq, UInt32.le_iff_toNat_le] at capital
    have le : c.toNat ≤ 90 := capital.2
    omega
  rw [Text.isUppercaseLetter, if_pos ascii]
  exact capital

/-! ## Detection by the tree -/

namespace Component

theorem startsUppercase_of_accepts {criteria : Criteria} {declaration : Declaration}
    (accepted : criteria.accepts declaration = true) : StartsUppercase declaration.name := by
  rw [Criteria.accepts, Bool.and_eq_true] at accepted
  exact isComponentName_iff.mp accepted.1

/-- No name is accepted a second time. -/
theorem nodup_names_firstAccepted (accepts : Declaration → Bool) (seen : List String)
    (declarations : List Declaration) :
    ((firstAccepted accepts seen declarations).map (·.name)).Nodup := by
  fun_induction firstAccepted accepts seen declarations with
  | case1 => exact .nil
  | case2 seen declaration rest _ ih => exact ih
  | case3 seen declaration rest _ ih =>
    refine List.nodup_cons.mpr ⟨fun later => ?_, ih⟩
    exact (mem_names_firstAccepted.mp later).1 List.mem_cons_self

theorem names_of_candidates (criteria : Criteria) (root : Syntax.Node) :
    ((candidates criteria root).map (·.name)).Nodup
      ∧ ∀ candidate ∈ candidates criteria root, StartsUppercase candidate.name := by
  constructor
  · have names : (candidates criteria root).map (·.name) =
        (firstAccepted criteria.accepts [] (Declaration.exports root)).map (·.name) := by
      simp [candidates, Candidate.ofDeclaration, Function.comp_def]
    rw [names]
    exact nodup_names_firstAccepted _ _ _
  · intro candidate isCandidate
    obtain ⟨_, -, declaration, -, isName, accepted⟩ :=
      mem_names_candidates.mp (List.mem_map_of_mem isCandidate)
    rw [← isName]
    exact startsUppercase_of_accepts accepted

end Component

/-! ## Detection by line shapes -/

namespace Fallback

variable {candidate : Component.Candidate}

/-- The first candidate of each name is one of the candidates, and of a name that was not seen. -/
theorem of_mem_firstOfEachName {seen : List String} {candidates : List Component.Candidate}
    (isFirst : candidate ∈ firstOfEachName seen candidates) :
    candidate ∈ candidates ∧ candidate.name ∉ seen := by
  fun_induction firstOfEachName seen candidates with
  | case1 => cases isFirst
  | case2 seen first rest _ ih =>
    obtain ⟨inRest, unseen⟩ := ih isFirst
    exact ⟨List.mem_cons_of_mem _ inRest, unseen⟩
  | case3 seen first rest fresh ih =>
    rcases List.mem_cons.mp isFirst with rfl | later
    · exact ⟨List.mem_cons_self, by simpa using fresh⟩
    · obtain ⟨inRest, unseen⟩ := ih later
      exact ⟨List.mem_cons_of_mem _ inRest, fun before => unseen (List.mem_cons_of_mem _ before)⟩

theorem nodup_names_firstOfEachName (seen : List String) (candidates : List Component.Candidate) :
    ((firstOfEachName seen candidates).map (·.name)).Nodup := by
  fun_induction firstOfEachName seen candidates with
  | case1 => exact .nil
  | case2 seen first rest _ ih => exact ih
  | case3 seen first rest _ ih =>
    refine List.nodup_cons.mpr ⟨fun later => ?_, ih⟩
    obtain ⟨other, isOther, same⟩ := List.mem_map.mp later
    exact (of_mem_firstOfEachName isOther).2 (same ▸ List.mem_cons_self)

/-- The name of an exported declaration starts with a capital. -/
theorem capital_of_exportedDeclaration? {keyword : Keyword} {name line : List Char}
    (declared : exportedDeclaration? line = some (keyword, name)) :
    ∃ first rest, name = first :: rest ∧ first.isUpper = true := by
  unfold exportedDeclaration? at declared
  split at declared
  · cases declared
  · dsimp only at declared
    split at declared
    · cases declared
    · obtain ⟨capital, isCapital, same⟩ := Option.map_eq_some_iff.mp declared
      cases same
      unfold capitalName? at isCapital
      split at isCapital
      · split at isCapital
        · next first rest _ isUpper =>
          cases isCapital
          exact ⟨first, _, rfl, isUpper⟩
        · cases isCapital
      · cases isCapital

theorem names_of_detect (text : String) :
    ((detect text).map (·.name)).Nodup
      ∧ ∀ candidate ∈ detect text, StartsUppercase candidate.name := by
  refine ⟨nodup_names_firstOfEachName _ _, fun candidate isCandidate => ?_⟩
  obtain ⟨⟨keyword, name⟩, isFound, rfl⟩ := List.mem_map.mp (of_mem_firstOfEachName isCandidate).1
  obtain ⟨-, line, -, -, declared⟩ := Text.exists_of_mem_atLineStarts (fun _ => .inl rfl) isFound
  obtain ⟨first, rest, rfl, capital⟩ := capital_of_exportedDeclaration? declared
  exact ⟨first, rest, String.toList_ofList, isUppercaseLetter_of_isUpper capital⟩

/-- A name without an uppercase letter in front is none that the fallback handles. -/
theorem isComponentName_of_not_startsUppercase {name : String} (other : ¬ StartsUppercase name) :
    isComponentName name.toList = false := by
  rw [Bool.eq_false_iff]
  intro handled
  unfold isComponentName at handled
  split at handled
  · cases handled
  · next first rest isName =>
    rw [Bool.and_eq_true] at handled
    exact other ⟨first, rest, isName, isUppercaseLetter_of_isUpper handled.1⟩

end Fallback

/-! ## Rules -/

/-- Nothing is wrapped for a name that detection accepts of no declaration. -/
theorem Wrap.Aim.wrapped_of_not_startsUppercase {aim : Wrap.Aim}
    (other : ¬ StartsUppercase aim.name) (statement : Syntax.Node) (rule : Wrap.Rule) :
    aim.wrapped statement rule = [] := by
  have rejects : ∀ kind exportKind node,
      aim.criteria.accepts ⟨aim.name, kind, exportKind, node⟩ = false := fun _ _ _ =>
    Bool.eq_false_iff.mpr fun accepted => other (Component.startsUppercase_of_accepts accepted)
  refine List.eq_nil_iff_forall_not_mem.mpr fun node wraps => ?_
  cases rule with
  | defaultDeclaration =>
    obtain ⟨-, -, accepted⟩ := Aim.defaultDeclaration?_eq_some.mp (Option.mem_toList.mp wraps)
    simp [Aim.acceptsDefault, rejects] at accepted
  | defaultIdentifier =>
    obtain ⟨-, -, -, accepted⟩ := Aim.defaultValue?_eq_some.mp (Option.mem_toList.mp wraps)
    simp [Aim.acceptsReference, rejects] at accepted
  | namedVariable =>
    obtain ⟨-, _, -, -, accepted⟩ := Aim.mem_declarators.mp wraps
    simp only [Aim.wrapsDeclarator, Bool.and_eq_true, Option.any_eq_true] at accepted
    obtain ⟨-, value, -, accepted⟩ := accepted
    simp [Aim.acceptsInitializer, rejects] at accepted
  | namedFunction =>
    obtain ⟨-, -, accepted⟩ := Aim.function?_eq_some.mp (Option.mem_toList.mp wraps)
    simp [Aim.acceptsFunction, rejects] at accepted

/-! ## Strategies -/

namespace Strategy

variable (settings : StrategySettings) (source : Source) (strategy : Strategy)

theorem names_of_detect :
    ((strategy.detect settings source).map (·.name)).Nodup
      ∧ ∀ candidate ∈ strategy.detect settings source, StartsUppercase candidate.name := by
  cases strategy with
  | pattern => exact Fallback.names_of_detect source.text
  | syntaxTree =>
    simp only [detect]
    cases source.tree with
    | none => simp
    | some root => exact Component.names_of_candidates settings.criteria root

/-- No strategy that can handle a source wraps a name without an uppercase letter in front. The gate
of detection stops the one, and the shapes of names the other. -/
theorem transform_of_not_startsUppercase {name : String} (other : ¬ StartsUppercase name)
    (handles : strategy.supports source = true) (target : ImportTarget) :
    strategy.transform settings source name target = .ok (.untouched .noMatch) := by
  cases strategy with
  | pattern =>
    have refused := Fallback.isComponentName_of_not_startsUppercase other
    simp [transform, Fallback.transform, refused]
  | syntaxTree =>
    cases parsed : source.tree with
    | none => simp [supports, Source.hasErrors, parsed] at handles
    | some root =>
      simp only [transform, parsed]
      refine Wrap.transform_of_firing_eq_nil ?_
      rw [Wrap.Rewrite.firing_eq_nil_iff]
      exact fun statement _ _ rule => Wrap.Aim.wrapped_of_not_startsUppercase other statement rule

theorem supports_ofSource : (ofSource source).supports source = true :=
  List.find?_some (select?_all source)

end Strategy

namespace Engine

theorem names_of_candidates (engine : Engine) (text fileName : String) :
    ((engine.candidates text fileName).map (·.name)).Nodup
      ∧ ∀ candidate ∈ engine.candidates text fileName, StartsUppercase candidate.name := by
  unfold candidates
  dsimp only
  split
  · simp
  · exact Strategy.names_of_detect _ _ _

/-- Whichever strategy reads a source, the components it reports have names that differ and that
start with an uppercase letter, and a wrap of any other name leaves the source as it is. -/
theorem names_capital_and_distinct (engine : Engine) (text fileName : String) :
    ((engine.candidates text fileName).map (·.name)).Nodup
      ∧ (∀ candidate ∈ engine.candidates text fileName, StartsUppercase candidate.name)
      ∧ ∀ name module symbol, ¬ StartsUppercase name →
        Text.isIdentifier (engine.symbolOr symbol) = true →
          engine.transform text name module fileName symbol =
            .ok ⟨.ofSource (engine.read text fileName), .untouched .noMatch⟩ := by
  obtain ⟨distinct, capital⟩ := names_of_candidates engine text fileName
  refine ⟨distinct, capital, fun name module symbol other valid => ?_⟩
  have untouched := Strategy.transform_of_not_startsUppercase engine.settings
    (engine.read text fileName) _ other (Strategy.supports_ofSource _)
    ⟨engine.symbolOr symbol, module⟩
  simp [transform, valid, untouched]

/-- A source with an error. -/
def unclosedText : String :=
  "export function a( "

/-- The pattern strategy leaves a name that starts with a lowercase letter. -/
theorem names_capital_and_distinct_lowercase :
    ¬ StartsUppercase "a" ∧ Text.isIdentifier "w" = true
      ∧ ({} : Engine).transform unclosedText "a" "m" "a.tsx" (some "w") =
        .ok ⟨.pattern, .untouched .noMatch⟩ := by
  have other : ¬ StartsUppercase "a" := fun starts =>
    absurd (isComponentName_iff.mpr starts) (by decide)
  have valid : Text.isIdentifier "w" = true := by decide
  have degraded : Strategy.ofSource (({} : Engine).read unclosedText "a.tsx") = .pattern := by
    decide +kernel
  obtain ⟨-, -, untouched⟩ := names_capital_and_distinct {} unclosedText "a.tsx"
  rw [← degraded]
  exact ⟨other, valid, untouched "a" "m" (some "w") other valid⟩

end Engine

end RenderProbe
