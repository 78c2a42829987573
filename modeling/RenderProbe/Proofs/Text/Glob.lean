import Mathlib.Data.List.Forall2
import RenderProbe.Proofs.Text.Fields
import RenderProbe.Text.Glob

/-!
# What wildcards stand for

A pattern without brackets accepts a text if the text is the pattern with a piece in the place of
each wildcard.

* `Spells`: a text as the pattern, with the piece that each wildcard stands for.
* `accepts_ofChars_iff`: the accepted texts are those that the pattern stands for.
* `Spells.count_eq_iff`: a character is in the text as often as in the pattern if it is in no piece.
* `exists_spells_iff_forall₂`: pieces without a separator are matches field by field.
-/

namespace RenderProbe.Text.Glob

/-- A text is a pattern with a piece in the place of each wildcard: any piece for `*`, and one
character for `?`. -/
inductive Spells : List Char → List (List Char) → List Char → Prop
  | nil : Spells [] [] []
  | any {pattern text : List Char} {pieces : List (List Char)} (piece : List Char) :
    Spells pattern pieces text → Spells ('*' :: pattern) (piece :: pieces) (piece ++ text)
  | one {pattern text : List Char} {pieces : List (List Char)} (c : Char) :
    Spells pattern pieces text → Spells ('?' :: pattern) ([c] :: pieces) (c :: text)
  | char {pattern text : List Char} {pieces : List (List Char)} {c : Char} :
    c ≠ '*' → c ≠ '?' → Spells pattern pieces text → Spells (c :: pattern) pieces (c :: text)

/-- A text that a pattern stands for, whatever the pieces are. -/
def StandsFor (pattern text : List Char) : Prop :=
  ∃ pieces, Spells pattern pieces text

variable {pattern text : List Char} {pieces : List (List Char)} {c separator : Char}

/-! ## Accepted texts -/

section Accepted

theorem someSuffix_iff {test : List Char → Bool} :
    someSuffix test text = true ↔ ∃ piece rest, text = piece ++ rest ∧ test rest = true := by
  induction text with
  | nil =>
    constructor
    · exact fun holds => ⟨[], [], rfl, holds⟩
    · rintro ⟨piece, rest, split, holds⟩
      obtain ⟨-, rfl⟩ := List.append_eq_nil_iff.mp split.symm
      exact holds
  | cons c text ih =>
    rw [someSuffix, Bool.or_eq_true, ih]
    constructor
    · rintro (holds | ⟨piece, rest, rfl, holds⟩)
      · exact ⟨[], c :: text, rfl, holds⟩
      · exact ⟨c :: piece, rest, rfl, holds⟩
    · rintro ⟨piece, rest, split, holds⟩
      rcases List.cons_eq_append_iff.mp split with ⟨-, rfl⟩ | ⟨piece, -, rfl⟩
      · exact .inl holds
      · exact .inr ⟨piece, rest, rfl, holds⟩

/-- The part that a character of a pattern without brackets is read as. -/
def partOf (c : Char) : GlobPart :=
  if c = '*' then .anyText else if c = '?' then .anyChar else .char c

theorem read_eq_map {rounds : Nat} (enough : pattern.length ≤ rounds) (plain : '[' ∉ pattern) :
    read rounds pattern = pattern.map partOf := by
  induction pattern generalizing rounds with
  | nil => cases rounds <;> rfl
  | cons c pattern ih =>
    rw [List.mem_cons, not_or] at plain
    cases rounds with
    | zero => simp at enough
    | succ rounds =>
      rw [List.map_cons, ← ih (Nat.le_of_succ_le_succ enough) plain.2, partOf]
      split
      · next isAny => rw [isAny, read]
      · split
        · next isOne => rw [isOne, read]
        · next notAny notOne =>
          rw [read]
          · exact notAny
          · exact notOne
          · exact Ne.symm plain.1

theorem standsFor_nil_iff : StandsFor [] text ↔ text = [] := by
  constructor
  · rintro ⟨pieces, spells⟩
    cases spells
    rfl
  · rintro rfl
    exact ⟨[], .nil⟩

theorem standsFor_any_iff : StandsFor ('*' :: pattern) text ↔
    ∃ piece rest, text = piece ++ rest ∧ StandsFor pattern rest := by
  constructor
  · rintro ⟨pieces, spells⟩
    cases spells with
    | any piece spells => exact ⟨piece, _, rfl, _, spells⟩
    | char notAny => exact absurd rfl notAny
  · rintro ⟨piece, rest, rfl, pieces, spells⟩
    exact ⟨_, spells.any piece⟩

theorem standsFor_one_iff : StandsFor ('?' :: pattern) text ↔
    ∃ c rest, text = c :: rest ∧ StandsFor pattern rest := by
  constructor
  · rintro ⟨pieces, spells⟩
    cases spells with
    | one c spells => exact ⟨c, _, rfl, _, spells⟩
    | char _ notOne => exact absurd rfl notOne
  · rintro ⟨c, rest, rfl, pieces, spells⟩
    exact ⟨_, spells.one c⟩

theorem standsFor_char_iff (notAny : c ≠ '*') (notOne : c ≠ '?') : StandsFor (c :: pattern) text ↔
    ∃ rest, text = c :: rest ∧ StandsFor pattern rest := by
  constructor
  · rintro ⟨pieces, spells⟩
    cases spells with
    | any => exact absurd rfl notAny
    | one => exact absurd rfl notOne
    | char _ _ spells => exact ⟨_, rfl, _, spells⟩
  · rintro ⟨rest, rfl, pieces, spells⟩
    exact ⟨_, spells.char notAny notOne⟩

theorem accepts_map_iff : accepts (pattern.map partOf) text = true ↔ StandsFor pattern text := by
  induction pattern generalizing text with
  | nil => rw [List.map_nil, accepts, List.isEmpty_iff, standsFor_nil_iff]
  | cons c pattern ih =>
    rw [List.map_cons, partOf]
    split
    · next isAny =>
      rw [isAny, accepts, someSuffix_iff, standsFor_any_iff]
      simp only [ih]
    · split
      · next isOne =>
        rw [isOne, standsFor_one_iff]
        cases text with
        | nil => simp [accepts]
        | cons d text => simp [accepts, partAccepts, ih]
      · next notAny notOne =>
        rw [standsFor_char_iff notAny notOne]
        cases text with
        | nil => simp [accepts]
        | cons d text => simp [accepts, partAccepts, ih]

/-- A pattern without brackets accepts the texts that it stands for. By induction on the pattern,
with one piece of the text for each wildcard. -/
theorem accepts_ofChars_iff (plain : '[' ∉ pattern) :
    accepts (ofChars pattern) text = true ↔ StandsFor pattern text := by
  rw [ofChars, read_eq_map (Nat.le_refl _) plain, accepts_map_iff]

end Accepted

/-! ## Pieces -/

section Pieces

theorem Spells.subset (spells : Spells pattern pieces text) : ∀ piece ∈ pieces, piece ⊆ text := by
  induction spells with
  | nil => nofun
  | any piece _ ih =>
    exact List.forall_mem_cons.mpr ⟨List.subset_append_left .., fun other isMember =>
      List.subset_append_of_subset_right _ (ih other isMember)⟩
  | one c _ ih =>
    exact List.forall_mem_cons.mpr ⟨by simp, fun other isMember =>
      List.subset_cons_of_subset _ (ih other isMember)⟩
  | char _ _ _ ih => exact fun other isMember => List.subset_cons_of_subset _ (ih other isMember)

theorem Spells.append {pattern' text' : List Char} {pieces' : List (List Char)}
    (spells : Spells pattern pieces text) (spells' : Spells pattern' pieces' text') :
    Spells (pattern ++ pattern') (pieces ++ pieces') (text ++ text') := by
  induction spells with
  | nil => exact spells'
  | any piece _ ih => simpa using ih.any piece
  | one c _ ih => exact ih.one c
  | char notAny notOne _ ih => exact ih.char notAny notOne

/-- A character stands in a text where it stands in the pattern, and in the pieces. -/
theorem Spells.count (spells : Spells pattern pieces text) (notAny : c ≠ '*') (notOne : c ≠ '?') :
    text.count c = pattern.count c + pieces.flatten.count c := by
  induction spells with
  | nil => rfl
  | any piece _ ih =>
    rw [List.count_append, ih, List.count_cons_of_ne notAny.symm, List.flatten_cons,
      List.count_append]
    omega
  | one d _ ih =>
    rw [List.count_cons, ih, List.count_cons_of_ne notOne.symm, List.flatten_cons,
      List.singleton_append, List.count_cons]
    omega
  | char _ _ _ ih =>
    rw [List.count_cons, ih, List.count_cons]
    omega

/-- A character is in a text as often as in the pattern exactly if it is in none of the pieces. -/
theorem Spells.count_eq_iff (spells : Spells pattern pieces text)
    (notAny : c ≠ '*') (notOne : c ≠ '?') :
    text.count c = pattern.count c ↔ ∀ piece ∈ pieces, c ∉ piece := by
  rw [spells.count notAny notOne, Nat.add_eq_left, List.count_eq_zero, List.mem_flatten]
  simp

/-- There is a piece for each wildcard. -/
theorem Spells.eq_nil_iff (spells : Spells pattern pieces text) :
    pieces = [] ↔ '*' ∉ pattern ∧ '?' ∉ pattern := by
  induction spells with
  | nil => simp
  | any => simp
  | one => simp
  | char notAny notOne _ ih => simp [ih, notAny.symm, notOne.symm]

/-- Each wildcard of a pattern can stand for a character of its own choice. -/
theorem exists_spells (pattern : List Char) (c : Char) :
    ∃ pieces text, Spells pattern pieces text ∧ ∀ piece ∈ pieces, piece = [c] := by
  induction pattern with
  | nil => exact ⟨[], [], .nil, nofun⟩
  | cons d pattern ih =>
    obtain ⟨pieces, text, spells, single⟩ := ih
    by_cases isAny : d = '*'
    · subst isAny
      exact ⟨_, _, spells.any [c], List.forall_mem_cons.mpr ⟨rfl, single⟩⟩
    · by_cases isOne : d = '?'
      · subst isOne
        exact ⟨_, _, spells.one c, List.forall_mem_cons.mpr ⟨rfl, single⟩⟩
      · exact ⟨_, _, spells.char isAny isOne, single⟩

end Pieces

/-! ## Matches field by field -/

section Fields

/-- Text without a separator in front of a text belongs to its first field. -/
theorem exists_fields_append {front : List Char} (plain : separator ∉ front) (text : List Char) :
    ∃ field others, fields separator text = field :: others
      ∧ fields separator (front ++ text) = (front ++ field) :: others := by
  induction front with
  | nil =>
    obtain ⟨field, others, isFields⟩ := List.exists_cons_of_ne_nil (fields_ne_nil separator text)
    exact ⟨field, others, isFields, isFields⟩
  | cons c front ih =>
    rw [List.mem_cons, not_or] at plain
    obtain ⟨field, others, isFields, isFront⟩ := ih plain.2
    refine ⟨field, others, isFields, ?_⟩
    rw [List.cons_append, fields, if_neg (by simpa using Ne.symm plain.1), isFront]
    rfl

/-- What comes in front of a pattern and of a text belongs to their first fields. -/
theorem forall₂_fields_append {front front' : List Char} (plain : separator ∉ front)
    (plain' : separator ∉ front')
    (stands : ∀ part name, StandsFor part name → StandsFor (front ++ part) (front' ++ name))
    (byField : List.Forall₂ StandsFor (fields separator pattern) (fields separator text)) :
    List.Forall₂ StandsFor (fields separator (front ++ pattern))
      (fields separator (front' ++ text)) := by
  obtain ⟨part, parts, isPattern, isFront⟩ := exists_fields_append plain pattern
  obtain ⟨name, names, isText, isFront'⟩ := exists_fields_append plain' text
  rw [isPattern, isText] at byField
  rw [isFront, isFront']
  cases byField with
  | cons first others => exact .cons (stands part name first) others

/-- Pieces without a separator stay in the field of their wildcard, so a text that is spelled by
them is spelled field by field. -/
theorem Spells.byField (spells : Spells pattern pieces text) (notAny : separator ≠ '*')
    (notOne : separator ≠ '?') (apart : ∀ piece ∈ pieces, separator ∉ piece) :
    List.Forall₂ StandsFor (fields separator pattern) (fields separator text) := by
  induction spells with
  | nil => exact .cons ⟨[], .nil⟩ .nil
  | any piece _ ih =>
    rw [List.forall_mem_cons] at apart
    have notFront : separator ∉ ['*'] := by simpa using notAny
    refine forall₂_fields_append notFront apart.1 ?_ (ih apart.2)
    exact fun _ _ ⟨_, spells⟩ => ⟨_, spells.any piece⟩
  | one c _ ih =>
    rw [List.forall_mem_cons] at apart
    have notFront : separator ∉ ['?'] := by simpa using notOne
    refine forall₂_fields_append notFront apart.1 ?_ (ih apart.2)
    exact fun _ _ ⟨_, spells⟩ => ⟨_, spells.one c⟩
  | @char _ _ _ c isPlain isPlain' _ ih =>
    -- The separator itself ends a field on both sides; any other character belongs to both first
    -- fields.
    rcases eq_or_ne c separator with rfl | other
    · rw [fields, fields, if_pos (beq_self_eq_true _), if_pos (beq_self_eq_true _)]
      exact .cons ⟨[], .nil⟩ (ih apart)
    · have notFront : separator ∉ [c] := by simpa using other.symm
      refine forall₂_fields_append notFront notFront ?_ (ih apart)
      exact fun _ _ ⟨_, spells⟩ => ⟨_, spells.char isPlain isPlain'⟩

/-- Names that stand for the fields of a pattern are joined with pieces that are parts of names. -/
theorem exists_spells_joinFields {parts names : List (List Char)} (notAny : separator ≠ '*')
    (notOne : separator ≠ '?') (byField : List.Forall₂ StandsFor parts names)
    (plain : ∀ name ∈ names, separator ∉ name) :
    ∃ pieces, Spells (joinFields separator parts) pieces (joinFields separator names)
      ∧ ∀ piece ∈ pieces, separator ∉ piece := by
  induction byField with
  | nil => exact ⟨[], .nil, by simp⟩
  | cons first others ih =>
    rw [List.forall_mem_cons] at plain
    obtain ⟨pieces, spells⟩ := first
    have apart := fun piece isPiece isIn => plain.1 (spells.subset piece isPiece isIn)
    cases others with
    | nil => exact ⟨pieces, spells, apart⟩
    | cons next others =>
      obtain ⟨pieces', spells', apart'⟩ := ih plain.2
      exact ⟨pieces ++ pieces', spells.append (spells'.char notAny notOne),
        List.forall_mem_append.mpr ⟨apart, apart'⟩⟩

/-- A text is the pattern with pieces that have no separator exactly if each field of the text
stands for a field of the pattern. -/
theorem exists_spells_iff_forall₂ (notAny : separator ≠ '*') (notOne : separator ≠ '?') :
    (∃ pieces, Spells pattern pieces text ∧ ∀ piece ∈ pieces, separator ∉ piece) ↔
      List.Forall₂ StandsFor (fields separator pattern) (fields separator text) := by
  constructor
  · rintro ⟨pieces, spells, apart⟩
    exact spells.byField notAny notOne apart
  · intro byField
    have joined := exists_spells_joinFields notAny notOne byField fun _ => notMem_of_mem_fields
    rwa [joinFields_fields, joinFields_fields] at joined

end Fields

end RenderProbe.Text.Glob
