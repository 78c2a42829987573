import RenderProbe.Source.ImportPath
import RenderProbe.Proofs.Path
import RenderProbe.Proofs.Text.Case

/-!
# Where import specifiers lead

A specifier is made as text: the walk to the helper is written out, a suffix is cut off the end of
the text and a mark may be put in front of it. Read back component by component it is a walk again,
and it leads from the component's directory to the helper without its suffix.

* `IsStem`: a name without its source suffix, if it has one; `IsStem.unique`: there is one such
  stem.
* `exists_isStem_stripSuffix`: cutting the suffix off a written walk changes its last name alone.
* `markRelative_walks`: the mark is one component that stays, if the walk does not start by going
  up.
* `resolve_leads_to_helper`: the specifier starts like a relative one and leads to the helper's
  stem.
-/

namespace RenderProbe.ImportPath

open RenderProbe.Path (IsEntryName IsName walk? normalize ofText)

/-! ## Stems -/

/-- A source suffix, in letters of either case. -/
def IsSourceSuffix (ending : List Char) : Prop :=
  ending.map Char.toLower ∈ strippedSuffixes.map String.toList

/-- A name without its source suffix, if it has one. A relation, as the suffix may be written in
either case and is cut off once. -/
inductive IsStem (name : String) : String → Prop
  | cut {stem : String} {ending : List Char} : IsSourceSuffix ending →
    name.toList = stem.toList ++ ending → IsStem name stem
  | whole : (∀ ending, ending <:+ name.toList → ¬ IsSourceSuffix ending) → IsStem name name

section Stems

variable {name stem other : String} {ending : List Char}

/-- No source suffix ends with another one. -/
theorem eq_of_suffix_strippedSuffixes : ∀ first ∈ strippedSuffixes, ∀ second ∈ strippedSuffixes,
    first.toList <:+ second.toList → first = second := by
  decide

theorem subset_suffixChars : ∀ suffix ∈ strippedSuffixes, suffix.toList ⊆ Text.suffixChars := by
  decide

theorem slash_notMem_of_isSourceSuffix (isSuffix : IsSourceSuffix ending) : '/' ∉ ending := by
  intro member
  obtain ⟨suffix, listed, lower⟩ := List.mem_map.mp isSuffix
  have plain := subset_suffixChars suffix listed (lower ▸ List.mem_map.mpr ⟨'/', member, rfl⟩)
  exact absurd plain (by decide)

/-- A text has at most one source suffix at its end. -/
theorem IsSourceSuffix.unique {text ending' : List Char} (isSuffix : IsSourceSuffix ending)
    (isSuffix' : IsSourceSuffix ending') (ends : ending <:+ text) (ends' : ending' <:+ text) :
    ending = ending' := by
  obtain ⟨suffix, listed, lower⟩ := List.mem_map.mp isSuffix
  obtain ⟨suffix', listed', lower'⟩ := List.mem_map.mp isSuffix'
  have same : suffix = suffix' := by
    have low : suffix.toList <:+ text.map Char.toLower := lower ▸ ends.map Char.toLower
    have low' : suffix'.toList <:+ text.map Char.toLower := lower' ▸ ends'.map Char.toLower
    rcases List.suffix_or_suffix_of_suffix low low' with shorter | longer
    · exact eq_of_suffix_strippedSuffixes suffix listed suffix' listed' shorter
    · exact (eq_of_suffix_strippedSuffixes suffix' listed' suffix listed longer).symm
  have lengths : ending.length = ending'.length := by
    have sameLower := lower.symm.trans (same ▸ lower')
    simpa using congrArg List.length sameLower
  exact (List.suffix_of_suffix_length_le ends ends' lengths.le).eq_of_length lengths

/-- A name has one stem. -/
theorem IsStem.unique (isStem : IsStem name stem) (isStem' : IsStem name other) : stem = other := by
  cases isStem with
  | cut isSuffix split =>
    cases isStem' with
    | cut isSuffix' split' =>
      obtain rfl := isSuffix.unique isSuffix' ⟨_, split.symm⟩ ⟨_, split'.symm⟩
      exact String.toList_inj.mp (List.append_cancel_right (split.symm.trans split'))
    | whole plain => exact absurd isSuffix (plain _ ⟨_, split.symm⟩)
  | whole plain =>
    cases isStem' with
    | cut isSuffix split => exact absurd isSuffix (plain _ ⟨_, split.symm⟩)
    | whole => rfl

theorem IsStem.slash_notMem (isStem : IsStem name stem) (whole : '/' ∉ name.toList) :
    '/' ∉ stem.toList := by
  cases isStem with
  | cut isSuffix split =>
    rw [split, List.mem_append, not_or] at whole
    exact whole.1
  | whole => exact whole

end Stems

/-! ## Written walks -/

section Written

variable {lead : List Char} {last : String} {names : List String}

/-- The lowercase form of a text shows which source suffix it ends with. -/
theorem isSuffixOf_lowercase_iff {suffix : String}
    (listed : suffix ∈ strippedSuffixes) (text : String) :
    suffix.toList.isSuffixOf (Text.lowercase text).toList = true
      ↔ suffix.toList <:+ text.toList.map Char.toLower := by
  rw [List.isSuffixOf_iff_suffix, Text.lowercase, String.toList_ofList]
  exact Text.suffix_lowerFrom_iff (fun _ member => subset_suffixChars suffix listed member)
    [] text.toList

/-- A source suffix of a text is one of the name behind its last slash. -/
theorem suffix_of_suffix_append {ending : List Char} (isSuffix : IsSourceSuffix ending)
    (apart : lead = [] ∨ lead.getLast? = some '/') (ends : ending <:+ lead ++ last.toList) :
    ending <:+ last.toList := by
  rcases List.suffix_or_suffix_of_suffix ends (List.suffix_append lead _) with inside | ⟨front, rfl⟩
  · exact inside
  · obtain ⟨passed, whole⟩ := ends
    rw [← List.append_assoc, List.append_cancel_right_eq] at whole
    rcases apart with rfl | slash
    · obtain ⟨-, rfl⟩ := List.append_eq_nil_iff.mp whole
      exact List.suffix_refl _
    · cases front using List.reverseRecOn with
      | nil => exact List.suffix_refl _
      | append_singleton front c =>
        -- the slash would belong to the suffix
        rw [← whole, ← List.append_assoc, List.getLast?_concat, Option.some.injEq] at slash
        refine absurd ?_ (slash_notMem_of_isSourceSuffix isSuffix)
        simp [slash]

/-- Cutting the suffix off a written walk changes its last name, and that to its stem. -/
theorem exists_isStem_stripSuffix (apart : lead = [] ∨ lead.getLast? = some '/') (last : String) :
    ∃ stem, IsStem last stem
      ∧ (stripSuffix (String.ofList (lead ++ last.toList))).toList = lead ++ stem.toList := by
  unfold stripSuffix
  split
  · next suffix found =>
    have listed := List.mem_of_find?_eq_some found
    have ends := List.find?_some found
    obtain ⟨front, low⟩ := (isSuffixOf_lowercase_iff listed _).mp ends
    rw [String.toList_ofList] at low
    obtain ⟨start, ending, split, -, lower⟩ := List.append_eq_map_iff.mp low
    have isSuffix : IsSourceSuffix ending := List.mem_map.mpr ⟨suffix, listed, lower.symm⟩
    obtain ⟨stem, isLast⟩ := suffix_of_suffix_append isSuffix apart ⟨start, split.symm⟩
    have isStem : IsStem last (String.ofList stem) :=
      .cut isSuffix (by rw [String.toList_ofList, isLast])
    refine ⟨_, isStem, ?_⟩
    have size : suffix.length = ending.length := by
      rw [← String.length_toList, ← lower, List.length_map]
    have cut : lead ++ last.toList = (lead ++ stem) ++ ending := by
      rw [← isLast, List.append_assoc]
    simp only [String.toList_ofList, String.length_ofList]
    rw [cut, List.length_append, size, Nat.add_sub_cancel, List.take_left]
  · next none =>
    refine ⟨last, .whole fun ending ends isSuffix => ?_, String.toList_ofList⟩
    obtain ⟨suffix, listed, lower⟩ := List.mem_map.mp isSuffix
    refine List.find?_eq_none.mp none suffix listed ((isSuffixOf_lowercase_iff listed _).mpr ?_)
    rw [String.toList_ofList, lower]
    exact (ends.trans (List.suffix_append ..)).map _

/-- A walk that is written out ends with its last name, behind a slash if it is not the only one. -/
theorem exists_lead (names : List String) :
    ∃ lead : List Char, (lead = [] ∨ lead.getLast? = some '/')
    ∧ ∀ last : String, (Text.join '/' (names ++ [last])).toList = lead ++ last.toList := by
  by_cases none : names = []
  · exact ⟨[], .inl rfl, fun last => by simp [none, Text.join, Text.joinFields]⟩
  · refine ⟨Text.joinFields '/' (names.map String.toList) ++ ['/'],
      .inr List.getLast?_concat, fun last => ?_⟩
    rw [Text.join, String.toList_ofList, List.map_append, List.map_singleton,
      Text.joinFields_concat (by simpa using none), List.append_assoc, List.singleton_append]

/-- A walk without its suffix, written out. -/
theorem exists_isStem_stripSuffix_join (names : List String) (last : String) :
    ∃ stem, IsStem last stem
      ∧ stripSuffix (Text.join '/' (names ++ [last])) = Text.join '/' (names ++ [stem]) := by
  obtain ⟨lead, apart, written⟩ := exists_lead names
  obtain ⟨stem, isStem, stripped⟩ := exists_isStem_stripSuffix apart last
  refine ⟨stem, isStem, String.toList_inj.mp ?_⟩
  rw [written stem, ← stripped, ← written last, String.ofList_toList]

/-! ## The mark of a relative specifier -/

/-- A text that starts with a component and a slash. -/
theorem split_of_prefix {component text : String} (whole : '/' ∉ component.toList)
    (starts : component.toList ++ ['/'] <+: text.toList) :
    ∃ others, Text.split '/' text = component :: others := by
  obtain ⟨rest, isText⟩ := starts
  refine ⟨(Text.fields '/' rest).map String.ofList, ?_⟩
  rw [Text.split, ← isText, List.append_assoc, List.singleton_append, Text.fields_append whole]
  simp

theorem prefix_join (component : String) (more : names ≠ []) :
    component.toList ++ ['/'] <+: (Text.join '/' (component :: names)).toList := by
  cases names with
  | nil => exact absurd rfl more
  | cons name names =>
    have written : (Text.join '/' (component :: name :: names)).toList = component.toList ++ ['/']
        ++ Text.joinFields '/' ((name :: names).map String.toList) := by
      simp [Text.join, Text.joinFields]
    rw [written]
    exact List.prefix_append ..

/-- A walk that starts by going up is a relative specifier as it is written. -/
theorem markRelative_up (more : names ≠ []) :
    markRelative (Text.join '/' (".." :: names)) = Text.join '/' (".." :: names) := by
  have starts : "../".toList.isPrefixOf (Text.join '/' (".." :: names)).toList = true :=
    List.isPrefixOf_iff_prefix.mpr (prefix_join ".." more)
  rw [markRelative, starts, Bool.or_true, if_pos rfl]

/-- A walk of names gets the mark, which is a component of its own. -/
theorem markRelative_names (some : names ≠ [])
    (areNames : ∀ name ∈ names, IsEntryName name) :
    markRelative (Text.join '/' names) = "./" ++ Text.join '/' names := by
  have back := Text.split_join some fun name member => (areNames name member).whole
  have unmarked : ∀ component : String, ¬ IsName component → '/' ∉ component.toList →
      (component.toList ++ ['/']).isPrefixOf (Text.join '/' names).toList = false := by
    intro component notName whole
    refine Bool.eq_false_iff.mpr fun starts => ?_
    obtain ⟨others, first⟩ := split_of_prefix whole (List.isPrefixOf_iff_prefix.mp starts)
    rw [back] at first
    exact notName (areNames component (first ▸ List.mem_cons_self)).toIsName
  have here : "./".toList.isPrefixOf (Text.join '/' names).toList = false :=
    unmarked "." (fun isName => isName.notHere rfl) (by decide)
  have up : "../".toList.isPrefixOf (Text.join '/' names).toList = false :=
    unmarked ".." (fun isName => isName.notUp rfl) (by decide)
  rw [markRelative, here, up, Bool.or_false, if_neg Bool.false_ne_true]

theorem split_mark (text : String) :
    Text.split '/' ("./" ++ text) = "." :: Text.split '/' text := by
  have fields : Text.fields '/' (".".toList ++ '/' :: text.toList)
      = ".".toList :: Text.fields '/' text.toList :=
    Text.fields_append (by decide) text.toList
  rw [Text.split, String.toList_append]
  exact congrArg (List.map String.ofList) fields

/-- A walk up and then down, written out with the mark that it may need, is read back as that walk.
The mark is a component that leads nowhere else. -/
theorem markRelative_walks {above below : List String} (some : below ≠ [])
    (areNames : ∀ name ∈ below, IsEntryName name) (shared : List String)
    {specifier : String}
    (written : specifier = markRelative (Text.join '/' (above.map (fun _ => "..") ++ below))) :
    ("./".toList <+: specifier.toList ∨ "../".toList <+: specifier.toList)
      ∧ walk? (shared ++ above) (Text.split '/' specifier) = Option.some (shared ++ below) := by
  have down := Path.walk?_names fun name member => (areNames name member).toIsName
  cases above with
  | nil =>
    rw [List.map_nil, List.nil_append, markRelative_names some areNames] at written
    subst written
    refine ⟨.inl ?_, ?_⟩
    · rw [String.toList_append]
      exact List.prefix_append ..
    · rw [split_mark, Text.split_join some fun name member => (areNames name member).whole,
        List.append_nil]
      exact down shared
  | cons first above =>
    have whole : ∀ name ∈ (first :: above).map (fun _ => "..") ++ below, '/' ∉ name.toList := by
      intro name member
      rcases List.mem_append.mp member with isUp | inBelow
      · obtain ⟨_, -, rfl⟩ := List.mem_map.mp isUp
        decide
      · exact (areNames name inBelow).whole
    have more : above.map (fun _ => "..") ++ below ≠ [] := by simp [some]
    rw [List.map_cons, List.cons_append, markRelative_up more] at written
    subst written
    refine ⟨.inr (prefix_join ".." more), ?_⟩
    rw [← List.cons_append, ← List.map_cons (f := fun _ : String => "..") (a := first),
      Text.split_join (by simp) whole, Path.walk?_append, Path.walk?_up, Option.bind_some, down]

end Written

/-! ## Specifiers -/

theorem resolve_eq {workingDirectory target helper : Path} {names : List String} {last : String}
    (walked : walk workingDirectory target helper = names ++ [last]) :
    resolve workingDirectory target helper
      = markRelative (stripSuffix (Text.join '/' (names ++ [last]))) := by
  simp [resolve, walked]

/-- The specifier that imports a helper from a component starts like a relative one. Walked from the
component's directory it stays below the root and leads to the helper, but for its source suffix, if
the helper is no directory that the component lies in and has a name without its suffix. -/
theorem resolve_leads_to_helper (workingDirectory target helper : String)
    (outside : ¬ normalize (ofText workingDirectory) (ofText helper)
      <+: (normalize (ofText workingDirectory) (ofText target)).dropLast)
    (named : ∀ folder last stem,
      normalize (ofText workingDirectory) (ofText helper) = folder ++ [last] → IsStem last stem →
      IsName stem) :
    ("./".toList <+: (resolve (ofText workingDirectory) (ofText target) (ofText helper)).toList
      ∨ "../".toList <+: (resolve (ofText workingDirectory) (ofText target) (ofText helper)).toList)
    ∧ ∃ folder last stem, normalize (ofText workingDirectory) (ofText helper) = folder ++ [last]
      ∧ (∀ other, IsStem last other ↔ other = stem)
      ∧ walk? (normalize (ofText workingDirectory) (ofText target)).dropLast
          (Text.split '/' (resolve (ofText workingDirectory) (ofText target) (ofText helper)))
        = some (folder ++ [stem]) := by
  obtain ⟨shared, above, below, isStart, isPlace, walked⟩ := Path.relativeTo_eq
    (normalize (ofText workingDirectory) (ofText target)).dropLast
    (normalize (ofText workingDirectory) (ofText helper))
  have areNames := Path.isEntryName_of_mem_normalize workingDirectory helper
  rw [isStart, isPlace] at outside
  rw [isPlace] at areNames
  cases below using List.reverseRecOn with
  | nil => simp at outside
  | append_singleton inner last =>
    have isPlace := isPlace.trans (List.append_assoc ..).symm
    obtain ⟨stem, isStem, stripped⟩ :=
      exists_isStem_stripSuffix_join (above.map (fun _ => "..") ++ inner) last
    have written := resolve_eq (walked.trans (List.append_assoc ..).symm)
    rw [stripped, List.append_assoc] at written
    have areNames' : ∀ name ∈ inner ++ [stem], IsEntryName name := by
      intro name member
      rcases List.mem_append.mp member with inside | isLast
      · exact areNames name (by simp [inside])
      · obtain rfl := List.mem_singleton.mp isLast
        exact ⟨named _ last _ isPlace isStem, isStem.slash_notMem (areNames last (by simp)).whole⟩
    obtain ⟨starts, leads⟩ := markRelative_walks (by simp) areNames' shared written
    rw [← isStart, ← List.append_assoc] at leads
    exact ⟨starts, _, last, stem, isPlace, fun other =>
      ⟨fun isOther => isOther.unique isStem, fun same => same ▸ isStem⟩, leads⟩

/-- A helper with dots at the start of its name and inside it. -/
def dottedHelper : String :=
  "../lib/.p.ts.TsX"

/-- A component that is reached through a directory and out of it again. -/
def windingTarget : String :=
  "x/../a/Home.tsx"

/-- The two have only the root above them in common. -/
theorem resolve_leads_to_helper_dottedName :
    normalize (ofText "/w") (ofText dottedHelper) = ["lib", ".p.ts.TsX"]
      ∧ ¬ ["lib", ".p.ts.TsX"] <+: (normalize (ofText "/w") (ofText windingTarget)).dropLast
      ∧ IsStem ".p.ts.TsX" ".p.ts" ∧ IsName ".p.ts"
      ∧ resolve (ofText "/w") (ofText windingTarget) (ofText dottedHelper) = "../../lib/.p.ts"
      ∧ walk? ["w", "a"] ["..", "..", "lib", ".p.ts"] = some ["lib", ".p.ts"] := by
  have place : normalize (ofText "/w") (ofText dottedHelper) = ["lib", ".p.ts.TsX"] := by
    decide +kernel
  have start : (normalize (ofText "/w") (ofText windingTarget)).dropLast = ["w", "a"] := by
    decide +kernel
  have written : resolve (ofText "/w") (ofText windingTarget) (ofText dottedHelper)
      = "../../lib/.p.ts" := by decide +kernel
  have outside : ¬ ["lib", ".p.ts.TsX"] <+: ["w", "a"] := by decide
  have isStem : IsStem ".p.ts.TsX" ".p.ts" :=
    .cut (by decide : ".TsX".toList.map Char.toLower ∈ strippedSuffixes.map String.toList) rfl
  have isName : IsName ".p.ts" := ⟨by decide, by decide, by decide⟩
  have parts : ∀ folder last, ["lib", ".p.ts.TsX"] = folder ++ [last] →
      folder = ["lib"] ∧ last = ".p.ts.TsX" := by
    intro folder last split
    exact ⟨by simpa using (congrArg List.dropLast split).symm,
      by simpa using (congrArg List.getLast? split).symm⟩
  obtain ⟨-, folder, last, stem, isPlace, stems, leads⟩ :=
    resolve_leads_to_helper "/w" windingTarget dottedHelper (by rwa [place, start])
      (fun folder last stem isPlace isStem' => by
        obtain ⟨-, rfl⟩ := parts folder last (place.symm.trans isPlace)
        rwa [isStem'.unique isStem])
  obtain ⟨rfl, rfl⟩ := parts folder last (place.symm.trans isPlace)
  obtain rfl := (stems ".p.ts").mp isStem
  have components :
      Text.split '/' "../../lib/.p.ts" = ["..", "..", "lib", ".p.ts"] := by decide +kernel
  rw [start, written, components] at leads
  exact ⟨place, start ▸ outside, isStem, isName, written, leads⟩

end RenderProbe.ImportPath
