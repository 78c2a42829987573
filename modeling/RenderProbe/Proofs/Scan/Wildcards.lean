import RenderProbe.Proofs.Text.Glob
import RenderProbe.Scan.Ignore

/-!
# How far the wildcards of a rule reach

A rule that names a place is matched with the whole path, and a wildcard takes a slash like any
other character. So such a rule matches paths that lie deeper than its pattern, unless it has no
wildcard.

* `MatchesByName`: the matches in which no wildcard takes a slash.
* `reaches_of_place`: what a rule for a place matches, and which of it is matched name by name.
* `star_takes_slash`: a rule that matches a path below the directory that it names.
-/

namespace RenderProbe.Scan

open RenderProbe.Text

variable {rule : IgnoreRule}

/-- A path has as many names as a pattern, and the pattern's name at each place matches the path's.
This is how rules of ignore files are read elsewhere. -/
def MatchesByName (pattern path : String) : Prop :=
  List.Forall₂ (fun part name => Glob.accepts (Glob.ofChars part) name = true)
    (fields '/' pattern.toList) (fields '/' path.toList)

/-- A path has as many slashes as the pattern of a rule. -/
def AsDeep (rule : IgnoreRule) (path : String) : Prop :=
  path.toList.count '/' = rule.pattern.toList.count '/'

instance (rule : IgnoreRule) (path : String) : Decidable (AsDeep rule path) :=
  inferInstanceAs (Decidable (_ = _))

/-- How far the wildcards of a rule reach in the paths that it matches: by name where the path is as
deep as the pattern, and over slashes in every other case. -/
structure Reaches (rule : IgnoreRule) : Prop where
  /-- A path is matched exactly if it is the pattern with a piece in the place of each wildcard. -/
  matched (path : String) (isDirectory : Bool) :
    rule.accepts path isDirectory = true ↔ Glob.StandsFor rule.pattern.toList path.toList
  /-- A path has as many slashes as the pattern exactly if no wildcard takes one. -/
  asDeep (path : String) (pieces : List (List Char)) :
    Glob.Spells rule.pattern.toList pieces path.toList →
      (AsDeep rule path ↔ ∀ piece ∈ pieces, '/' ∉ piece)
  /-- The matched paths with as many slashes are those that are matched name by name. -/
  byName (path : String) (isDirectory : Bool) :
    rule.accepts path isDirectory = true ∧ AsDeep rule path ↔ MatchesByName rule.pattern path
  /-- No other path is matched exactly if the pattern has no wildcard. -/
  within : (∀ path isDirectory, rule.accepts path isDirectory = true → AsDeep rule path) ↔
    '*' ∉ rule.pattern.toList ∧ '?' ∉ rule.pattern.toList

/-- What is left of a text that is no directory's pattern is not empty. -/
theorem pattern_ne_empty {text : List Char} {negate : Bool}
    (isRule : IgnoreRule.ofPattern? text negate = some rule)
    (anyFile : rule.directoryOnly = false) :
    rule.pattern ≠ "" := by
  unfold IgnoreRule.ofPattern? at isRule
  dsimp only at isRule
  split at isRule
  · cases isRule
  · next notBlank =>
    cases isRule
    simp only at anyFile ⊢
    rw [anyFile]
    cases isTrimmed : trimBlanks text with
    | nil => simp [isTrimmed] at notBlank
    | cons c rest =>
      -- Only the slash alone would leave nothing, and that is a directory's pattern.
      cases rest with
      | nil =>
        have notSlash : c ≠ '/' := by simpa [isTrimmed] using anyFile
        simp [notSlash]
      | cons d rest => by_cases isSlash : c = '/' <;> simp [isSlash]

/-- A rule for a place is matched with the whole path. -/
theorem accepts_eq_of_place (nonempty : rule.pattern ≠ "") (anyFile : rule.directoryOnly = false)
    (place : rule.anchored = true ∨ rule.hasSlash = true) (path : String) (isDirectory : Bool) :
    rule.accepts path isDirectory
      = Glob.accepts (Glob.ofChars rule.pattern.toList) path.toList := by
  have isPlace : (rule.anchored || rule.hasSlash) = true := by simpa using place
  simp [IgnoreRule.accepts, nonempty, anyFile, isPlace]

/-- Names are matched by parts of a pattern that stand for them. -/
theorem forall₂_accepts_iff {parts names : List (List Char)} (plain : ∀ part ∈ parts, '[' ∉ part) :
    List.Forall₂ (fun part name => Glob.accepts (Glob.ofChars part) name = true) parts names ↔
      List.Forall₂ Glob.StandsFor parts names := by
  induction parts generalizing names with
  | nil => simp
  | cons part rest ih =>
    rw [List.forall_mem_cons] at plain
    cases names with
    | nil => simp
    | cons name others => simp [Glob.accepts_ofChars_iff plain.1, ih plain.2]

theorem matchesByName_iff {pattern path : String} (plain : '[' ∉ pattern.toList) :
    MatchesByName pattern path ↔
      List.Forall₂ Glob.StandsFor (fields '/' pattern.toList) (fields '/' path.toList) :=
  forall₂_accepts_iff fun _ isPart isIn => plain (subset_of_mem_fields isPart isIn)

/-- A rule that names a place for files and directories alike, without brackets: its wildcards take
slashes too, and what is matched without that is matched name by name. -/
theorem reaches_of_place {text : List Char} {negate : Bool}
    (isRule : IgnoreRule.ofPattern? text negate = some rule)
    (place : rule.anchored = true ∨ rule.hasSlash = true) (anyFile : rule.directoryOnly = false)
    (plain : '[' ∉ rule.pattern.toList) : Reaches rule := by
  have matched (path : String) (isDirectory : Bool) :
      rule.accepts path isDirectory = true ↔ Glob.StandsFor rule.pattern.toList path.toList := by
    rw [accepts_eq_of_place (pattern_ne_empty isRule anyFile) anyFile place,
      Glob.accepts_ofChars_iff plain]
  have asDeep (path : String) (pieces : List (List Char))
      (spells : Glob.Spells rule.pattern.toList pieces path.toList) :
      AsDeep rule path ↔ ∀ piece ∈ pieces, '/' ∉ piece :=
    spells.count_eq_iff (by decide) (by decide)
  refine ⟨matched, asDeep, fun path isDirectory => ?_, fun within => ?_, ?_⟩
  · rw [matched, matchesByName_iff plain, ← Glob.exists_spells_iff_forall₂ (by decide) (by decide)]
    constructor
    · rintro ⟨⟨pieces, spells⟩, deep⟩
      exact ⟨pieces, spells, (asDeep path pieces spells).mp deep⟩
    · rintro ⟨pieces, spells, apart⟩
      exact ⟨⟨pieces, spells⟩, (asDeep path pieces spells).mpr apart⟩
  · obtain ⟨pieces, path, spells, single⟩ := Glob.exists_spells rule.pattern.toList '/'
    rw [← String.toList_ofList (l := path)] at spells
    have apart := (asDeep _ pieces spells).mp (within _ false ((matched _ _).mpr ⟨pieces, spells⟩))
    refine spells.eq_nil_iff.mp (List.eq_nil_iff_forall_not_mem.mpr fun piece isPiece => ?_)
    exact apart piece isPiece (single piece isPiece ▸ List.mem_singleton_self '/')
  · intro noWildcard path isDirectory accepted
    obtain ⟨pieces, spells⟩ := (matched path isDirectory).mp accepted
    refine (asDeep path pieces spells).mpr ?_
    rw [spells.eq_nil_iff.mpr noWildcard]
    exact nofun

/-- The rule for the sources of one directory. -/
def sourcesRule : IgnoreRule :=
  ⟨"src/*.tsx", false, false, false, true⟩

/-- A source of the directory is matched, and matched name by name. -/
theorem reaches_of_place_sources :
    IgnoreRule.ofPattern? "src/*.tsx".toList false = some sourcesRule
      ∧ Reaches sourcesRule ∧ sourcesRule.accepts "src/App.tsx" false = true
      ∧ MatchesByName sourcesRule.pattern "src/App.tsx" := by
  have isRule :
      IgnoreRule.ofPattern? "src/*.tsx".toList false = some sourcesRule := by decide +kernel
  have reaches := reaches_of_place isRule (.inr rfl) rfl (by decide +kernel)
  have accepted : sourcesRule.accepts "src/App.tsx" false = true := by decide +kernel
  have deep : AsDeep sourcesRule "src/App.tsx" := by decide +kernel
  exact ⟨isRule, reaches, accepted, (reaches.byName _ _).mp ⟨accepted, deep⟩⟩

/-- A source in a directory below it is matched too: the star stands for two names and the slash. -/
theorem star_takes_slash :
    IgnoreRule.ofPattern? "src/*.tsx".toList false = some sourcesRule
      ∧ sourcesRule.hasSlash = true ∧ sourcesRule.directoryOnly = false
      ∧ ¬ "**".toList <:+: sourcesRule.pattern.toList ∧ '[' ∉ sourcesRule.pattern.toList
      ∧ sourcesRule.accepts "src/a/b.tsx" false = true ∧ ¬ AsDeep sourcesRule "src/a/b.tsx" := by
  refine ⟨?_, rfl, rfl, ?_, ?_, ?_, ?_⟩ <;> decide +kernel

end RenderProbe.Scan
