import Mathlib.Data.List.Pairwise
import Mathlib.Data.List.Perm.Basic
import RenderProbe.Proofs.Source.Boundary

/-!
# Rendering position by position

Rendering arranges the patches and moves a cursor over them. What it comes to can be said without
either: walk over the offsets of the source, put in what is inserted at each, and then either
replace the bytes of the patch that starts there or copy the byte.

* `reference`: the walk.
* `apply_eq_ok_iff`: a list is applied exactly if each range is one of the source and no two patches
  clash.
* `filter_arrange`: an arrangement keeps the order of the insertions at an offset.
* `weave_eq_reference`: at each offset the edits that are left weave what is left of the walk.
* `render_meets_reference`: when rendering conflicts, and what it gives otherwise.
-/

namespace RenderProbe.Patch

/-! ## The walk over the offsets -/

/-- The patch inserts at an offset. -/
def insertsAt (offset : Nat) (patch : Patch) : Bool :=
  patch.start == offset && patch.stop == offset

/-- The patch replaces bytes from an offset on. -/
def replacesAt (offset : Nat) (patch : Patch) : Bool :=
  patch.start == offset && decide (patch.start < patch.stop)

theorem insertsAt_iff {offset : Nat} {patch : Patch} :
    patch.insertsAt offset = true ↔ patch.start = offset ∧ patch.stop = offset := by
  simp [insertsAt]

theorem replacesAt_iff {offset : Nat} {patch : Patch} :
    patch.replacesAt offset = true ↔ patch.start = offset ∧ patch.start < patch.stop := by
  simp [replacesAt]

/-- The bytes from an offset on with the patches made: at each offset the texts of all insertions in
the order of the list, then the text of the patch that replaces bytes from there on, or else the
byte itself. -/
def reference (source : List UInt8) (patches : List Patch) (offset : Nat) : List UInt8 :=
  if offset ≤ source.length then
    (patches.filter (insertsAt offset)).flatMap (fun patch => encode patch.text)
      ++ match found : patches.find? (replacesAt offset) with
        | some patch =>
          have := replacesAt_iff.mp (List.find?_some found)
          encode patch.text ++ reference source patches patch.stop.toNat
        | none => source[offset]?.toList ++ reference source patches (offset + 1)
  else []
termination_by source.length + 1 - offset

/-! ## Ranges that clash -/

/-- The patch has no range of a source of a size. -/
def Stray (size : Nat) (patch : Patch) : Prop :=
  patch.start < 0 ∨ patch.stop < patch.start ∨ patch.stop > size

/-- The ranges of two patches meet, or one patch inserts strictly inside the range of the other. An
insertion at the start or the end of a range is beside it. -/
def Clash (p q : Patch) : Prop :=
  (p.start < p.stop ∧ q.start < q.stop ∧ max p.start q.start < min p.stop q.stop)
    ∨ (p.start = p.stop ∧ q.start < p.start ∧ p.start < q.stop)
    ∨ (q.start = q.stop ∧ p.start < q.start ∧ q.start < p.stop)

section Ranges

variable {size offset : Nat} {p q patch : Patch} {patches others : List Patch}

theorem Clash.symm (clash : Clash p q) : Clash q p := by
  rcases clash with ⟨first, second, meet⟩ | inside | inside
  · exact .inl ⟨second, first, by omega⟩
  · exact .inr (.inr inside)
  · exact .inr (.inl inside)

/-- Ranges of a source that do not clash are compatible, and the other way round. -/
theorem compatible_iff_not_clash (ordered : p.start ≤ p.stop) (ordered' : q.start ≤ q.stop) :
    Compatible p q ↔ ¬Clash p q := by
  simp only [Compatible, Clash]
  omega

/-- Each range is one of the source, and no two patches of the list clash. -/
structure Orderly (size : Nat) (patches : List Patch) : Prop where
  placed : ∀ patch ∈ patches, ¬Stray size patch
  apart : patches.Pairwise fun p q => ¬Clash p q

theorem Orderly.perm (orderly : Orderly size patches) (perm : patches.Perm others) :
    Orderly size others where
  placed patch member := orderly.placed patch (perm.symm.subset member)
  apart := perm.pairwise orderly.apart fun apart clash => apart clash.symm

theorem orderly_perm_iff (perm : patches.Perm others) :
    Orderly size patches ↔ Orderly size others :=
  ⟨fun orderly => orderly.perm perm, fun orderly => orderly.perm perm.symm⟩

/-- A list is orderly unless one patch is stray or two patches of it clash. -/
theorem not_orderly_iff :
    ¬Orderly size patches ↔
      (∃ patch ∈ patches, Stray size patch) ∨
        ∃ i j : Fin patches.length, i ≠ j ∧ Clash patches[i] patches[j] := by
  have apart : patches.Pairwise (fun p q => ¬Clash p q) ↔
      ∀ i j : Fin patches.length, i ≠ j → ¬Clash patches[i] patches[j] := by
    rw [List.pairwise_iff_getElem]
    constructor
    · intro forward i j differ clash
      rcases Nat.lt_or_gt_of_ne (Fin.val_ne_of_ne differ) with before | after
      · exact forward i j i.isLt j.isLt before clash
      · exact forward j i j.isLt i.isLt after clash.symm
    · intro either i j inside inside' before
      exact either ⟨i, inside⟩ ⟨j, inside'⟩ (by simpa using Nat.ne_of_lt before)
  have both : Orderly size patches ↔
      (∀ patch ∈ patches, ¬Stray size patch) ∧ patches.Pairwise fun p q => ¬Clash p q :=
    ⟨fun orderly => ⟨orderly.placed, orderly.apart⟩, fun parts => ⟨parts.1, parts.2⟩⟩
  rw [both, apart, not_and_or]
  push Not
  rfl

theorem Orderly.bounds (orderly : Orderly size patches) (member : patch ∈ patches) :
    0 ≤ patch.start ∧ patch.start ≤ patch.stop ∧ patch.stop ≤ size := by
  have placed := orderly.placed patch member
  simp only [Stray] at placed
  omega

/-- Of two patches of an arrangement the first ends before the second starts. -/
theorem Orderly.arranged (orderly : Orderly size patches) :
    (arrange patches).Pairwise fun p q => p.stop ≤ q.start := by
  have orderly' := orderly.perm (arrange_perm patches).symm
  refine (orderly'.apart.and (pairwise_arrange patches)).imp_of_mem ?_
  rintro p q first second ⟨apart, precedes⟩
  have inside := orderly'.bounds first
  have inside' := orderly'.bounds second
  rcases (compatible_iff_not_clash inside.2.1 inside'.2.1).mpr apart with before | after
  · exact before
  · -- the second patch can only end before the first starts if both insert at one offset
    simp only [Patch.precedes, isInsertion, Bool.or_eq_true, Bool.and_eq_true, Bool.not_eq_true',
      decide_eq_true_eq, decide_eq_false_iff_not, beq_iff_eq] at precedes
    omega

end Ranges

/-! ## When rendering conflicts -/

section Conflicts

variable {source : List UInt8} {size start : Nat} {cursor : Int} {rest output : List UInt8}
  {patches : List Patch}

theorem chain_of_pairwise (ordered : patches.Pairwise fun p q => p.stop ≤ q.start)
    (bounds : ∀ patch ∈ patches, (start : Int) ≤ patch.start ∧ patch.start ≤ patch.stop
      ∧ patch.stop ≤ size) (le : start ≤ size) : Chain start size (patches.map edit) := by
  induction patches generalizing start with
  | nil => exact le
  | cons patch rest ih =>
    obtain ⟨before, ordered'⟩ := List.pairwise_cons.mp ordered
    obtain ⟨starts, inside, stops⟩ := bounds patch List.mem_cons_self
    refine ⟨by simp only [edit]; omega, by simp only [edit]; omega, ih ordered' ?_ ?_⟩
    · intro other later
      obtain ⟨-, inside', stops'⟩ := bounds other (List.mem_cons_of_mem _ later)
      have follows := before other later
      exact ⟨by simp only [edit]; omega, inside', stops'⟩
    · simp only [edit]
      omega

/-- Each patch of a successful splice has a range of the source behind the cursor. -/
theorem bounds_of_splice (spliced : splice size cursor rest patches = .ok output) :
    ∀ patch ∈ patches, cursor ≤ patch.start ∧ patch.start ≤ patch.stop ∧ patch.stop ≤ size := by
  induction patches generalizing cursor rest output with
  | nil => simp
  | cons first others ih =>
    rw [splice] at spliced
    split at spliced
    · cases spliced
    · next fits =>
      simp only [Bool.or_eq_true, decide_eq_true_eq, not_or, Int.not_lt] at fits
      dsimp only at spliced
      split at spliced
      · next inner =>
        intro patch member
        rcases List.mem_cons.mp member with rfl | later
        · exact ⟨fits.1.1, fits.1.2, fits.2⟩
        · have bounds := ih inner patch later
          exact ⟨by omega, bounds.2⟩
      · cases spliced

/-- Orderly patches are applied, and only those. Being orderly does not depend on how the patches
are listed, although the splice goes from one to the next. -/
theorem apply_eq_ok_iff :
    apply source patches = .ok output ↔
      Orderly source.length patches
        ∧ output = weave source 0 source.length ((arrange patches).map edit) := by
  have perm := arrange_perm patches
  constructor
  · intro applied
    have bounds := bounds_of_splice applied
    obtain ⟨chain, woven⟩ := splice_eq_ok (Nat.zero_le _) applied
    have grounded : ∀ patch ∈ patches, Grounded patch := by
      intro patch member
      have inside := bounds patch (perm.symm.subset member)
      exact ⟨inside.1, by omega⟩
    refine ⟨⟨fun patch member => ?_, ?_⟩, woven⟩
    · have inside := bounds patch (perm.symm.subset member)
      simp only [Stray]
      omega
    · refine (pairwise_compatible grounded chain).imp_of_mem fun {p q} first second => ?_
      exact (compatible_iff_not_clash (bounds p (perm.symm.subset first)).2.1
        (bounds q (perm.symm.subset second)).2.1).mp
  · rintro ⟨orderly, rfl⟩
    have bounds : ∀ patch ∈ arrange patches,
        0 ≤ patch.start ∧ patch.start ≤ patch.stop ∧ patch.stop ≤ source.length :=
      fun patch member => orderly.bounds (perm.subset member)
    refine splice_of_chain (fun patch member => ?_) ?_
    · exact ⟨(bounds patch member).1,
        Int.le_trans (bounds patch member).1 (bounds patch member).2.1⟩
    · exact chain_of_pairwise orderly.arranged bounds (Nat.zero_le _)

end Conflicts

/-! ## Order at an offset -/

section Order

variable {test : Patch → Bool} {patch : Patch} {patches : List Patch} {offset : Nat}

theorem filter_place (early : ∀ next, test next = true → patch.precedes next = true)
    (passes : test patch = true) (patches : List Patch) :
    (place patch patches).filter test = patch :: patches.filter test := by
  induction patches with
  | nil => simp [place, passes]
  | cons next rest ih =>
    rw [place]
    split
    · simp [passes]
    · next late =>
      have fails : ¬test next = true := fun passes' => late (early next passes')
      simp [fails, ih]

theorem filter_place_of_fails (fails : test patch = false) (patches : List Patch) :
    (place patch patches).filter test = patches.filter test := by
  induction patches with
  | nil => simp [place, fails]
  | cons next rest ih =>
    rw [place]
    split
    · simp [fails]
    · simp [List.filter_cons, ih]

/-- Patches that precede one another keep their order when they are arranged. -/
theorem filter_arrange (together : ∀ p q, test p = true → test q = true → p.precedes q = true)
    (patches : List Patch) : (arrange patches).filter test = patches.filter test := by
  induction patches with
  | nil => rfl
  | cons patch rest ih =>
    rw [arrange, List.foldr_cons, ← arrange]
    cases passes : test patch with
    | true =>
      rw [filter_place (fun next passes' => together patch next passes passes') passes, ih]
      simp [passes]
    | false =>
      rw [filter_place_of_fails passes, ih]
      simp [passes]

theorem filter_insertsAt_arrange (offset : Nat) (patches : List Patch) :
    (arrange patches).filter (insertsAt offset) = patches.filter (insertsAt offset) := by
  refine filter_arrange (fun p q first second => ?_) patches
  obtain ⟨start, stop⟩ := insertsAt_iff.mp first
  obtain ⟨start', -⟩ := insertsAt_iff.mp second
  simp [precedes, isInsertion, start, stop, start']

theorem start_le_start {other : Patch} (precedes : patch.precedes other = true) :
    patch.start ≤ other.start := by
  simp only [Patch.precedes, Bool.or_eq_true, decide_eq_true_eq, Bool.and_eq_true, beq_iff_eq]
    at precedes
  omega

/-- No insertion is arranged behind a replacement that starts at its offset. -/
theorem filter_insertsAt_of_replaces (replaces : replacesAt offset patch = true)
    (first : ∀ other ∈ patches, patch.precedes other = true) :
    patches.filter (insertsAt offset) = [] := by
  obtain ⟨starts, nonempty⟩ := replacesAt_iff.mp replaces
  refine List.filter_eq_nil_iff.mpr fun other later inserts => ?_
  obtain ⟨start, stop⟩ := insertsAt_iff.mp inserts
  have precedes := first other later
  have isInsertion : other.isInsertion = true := by simp [isInsertion, start, stop]
  have notInsertion : patch.isInsertion = false := by simp [Patch.isInsertion]; omega
  simp [Patch.precedes, starts, start, isInsertion, notInsertion] at precedes

theorem filter_from_of_before (before : patch.start < offset) :
    (patch :: patches).filter (fun patch => decide ((offset : Int) ≤ patch.start))
        = patches.filter (fun patch => decide ((offset : Int) ≤ patch.start))
      ∧ (patch :: patches).filter (insertsAt offset) = patches.filter (insertsAt offset)
      ∧ (patch :: patches).filter (replacesAt offset) = patches.filter (replacesAt offset)
      ∧ (patch :: patches).filter (fun patch => decide (((offset + 1 : Nat) : Int) ≤ patch.start))
        = patches.filter (fun patch => decide (((offset + 1 : Nat) : Int) ≤ patch.start)) := by
  refine ⟨List.filter_cons_of_neg ?_, List.filter_cons_of_neg ?_, List.filter_cons_of_neg ?_,
    List.filter_cons_of_neg ?_⟩
  · simpa using before
  · exact fun inserts => absurd (insertsAt_iff.mp inserts).1 (by omega)
  · exact fun replaces => absurd (replacesAt_iff.mp replaces).1 (by omega)
  · simp only [decide_eq_true_eq]
    omega

theorem filter_from_of_behind (behind : ∀ patch ∈ patches, (offset : Int) < patch.start) :
    patches.filter (fun patch => decide ((offset : Int) ≤ patch.start))
      = patches.filter (insertsAt offset) ++ (patches.filter (replacesAt offset)
        ++ patches.filter (fun patch => decide (((offset + 1 : Nat) : Int) ≤ patch.start))) := by
  have noInsertion : patches.filter (insertsAt offset) = [] :=
    List.filter_eq_nil_iff.mpr fun other member inserts =>
      absurd (insertsAt_iff.mp inserts).1 (Int.ne_of_gt (behind other member))
  have noReplacement : patches.filter (replacesAt offset) = [] :=
    List.filter_eq_nil_iff.mpr fun other member replaces =>
      absurd (replacesAt_iff.mp replaces).1 (Int.ne_of_gt (behind other member))
  rw [noInsertion, noReplacement, List.nil_append, List.nil_append]
  refine List.filter_congr fun other member => ?_
  have follows := behind other member
  simp only [decide_eq_decide]
  omega

/-- The patches of an arrangement from an offset on: those that insert there, those that replace
bytes from there on, and those behind the offset. -/
theorem filter_from (sorted : patches.Pairwise fun p q => p.precedes q = true)
    (ordered : ∀ patch ∈ patches, patch.start ≤ patch.stop) :
    patches.filter (fun patch => decide ((offset : Int) ≤ patch.start))
      = patches.filter (insertsAt offset) ++ (patches.filter (replacesAt offset)
        ++ patches.filter (fun patch => decide (((offset + 1 : Nat) : Int) ≤ patch.start))) := by
  induction patches with
  | nil => rfl
  | cons patch rest ih =>
    obtain ⟨first, sorted'⟩ := List.pairwise_cons.mp sorted
    have rest' := ih sorted' fun other later => ordered other (List.mem_cons_of_mem _ later)
    have inside := ordered patch List.mem_cons_self
    rcases Int.lt_trichotomy patch.start offset with before | here | behind
    · obtain ⟨sameFrom, sameInserts, sameReplaces, sameLater⟩ := filter_from_of_before before
      rw [sameFrom, sameInserts, sameReplaces, sameLater, rest']
    · have notLater : ¬((offset + 1 : Nat) : Int) ≤ patch.start := by omega
      by_cases insertion : patch.stop = offset
      · have inserts : insertsAt offset patch = true := insertsAt_iff.mpr ⟨here, insertion⟩
        have notReplaces : ¬replacesAt offset patch = true := fun replaces =>
          absurd (replacesAt_iff.mp replaces).2 (by omega)
        rw [List.filter_cons_of_pos (by simp [here]), List.filter_cons_of_pos inserts,
          List.filter_cons_of_neg notReplaces, List.filter_cons_of_neg (by simpa using notLater),
            rest']
        rfl
      · have replaces : replacesAt offset patch = true := replacesAt_iff.mpr ⟨here, by omega⟩
        have notInserts : ¬insertsAt offset patch = true := by simp [insertsAt, insertion]
        have none := filter_insertsAt_of_replaces replaces first
        rw [none, List.nil_append] at rest'
        rw [List.filter_cons_of_pos (by simp [here]), List.filter_cons_of_neg notInserts, none,
          List.filter_cons_of_pos replaces, List.filter_cons_of_neg (by simpa using notLater),
            rest']
        rfl
    · refine filter_from_of_behind fun other member => ?_
      rcases List.mem_cons.mp member with rfl | later
      · exact behind
      · exact Int.lt_of_lt_of_le behind (start_le_start (first other later))

end Order

/-! ## Weaving is the walk -/

section Walk

variable {source : List UInt8} {patches others : List Patch}
  {patch other : Patch} {offset stop : Nat}

theorem reference_of_replacement (inside : offset ≤ source.length)
    (found : patches.find? (replacesAt offset) = some patch) :
    reference source patches offset
      = (patches.filter (insertsAt offset)).flatMap (fun patch => encode patch.text)
        ++ (encode patch.text ++ reference source patches patch.stop.toNat) := by
  rw [reference, if_pos inside]
  split
  · next found' =>
    obtain rfl := Option.some.inj (found.symm.trans found')
    rfl
  · next missing => cases found.symm.trans missing

theorem reference_of_byte (inside : offset ≤ source.length)
    (missing : patches.find? (replacesAt offset) = none) :
    reference source patches offset
      = (patches.filter (insertsAt offset)).flatMap (fun patch => encode patch.text)
        ++ (source[offset]?.toList ++ reference source patches (offset + 1)) := by
  rw [reference, if_pos inside]
  split
  · next found => cases missing.symm.trans found
  · rfl

theorem reference_of_end (outside : source.length < offset) :
    reference source patches offset = [] := by
  rw [reference, if_neg (by omega)]

theorem weave_insertions {inserted : List Patch} (rest : List Edit)
    (insertions : ∀ patch ∈ inserted, patch.insertsAt offset = true) :
    weave source offset stop (inserted.map edit ++ rest)
      = inserted.flatMap (fun patch => encode patch.text) ++ weave source offset stop rest := by
  induction inserted with
  | nil => rfl
  | cons patch later ih =>
    obtain ⟨starts, stops⟩ := insertsAt_iff.mp (insertions patch List.mem_cons_self)
    have later' := ih fun other member => insertions other (List.mem_cons_of_mem _ member)
    simp [weave, edit, starts, stops, later']

theorem Orderly.compatible {size : Nat} (orderly : Orderly size patches) (member : patch ∈ patches)
    (member' : other ∈ patches) (differ : patch ≠ other) : Compatible patch other := by
  have symmetric : Std.Symm fun p q : Patch => ¬Clash p q :=
    ⟨fun _ _ apart clash => apart clash.symm⟩
  have apart := orderly.apart.forall member member' differ
  exact (compatible_iff_not_clash (orderly.bounds member).2.1 (orderly.bounds member').2.1).mpr
    apart

/-- Only one patch replaces bytes from an offset on. -/
theorem filter_replacesAt_arrange {size : Nat} (orderly : Orderly size patches)
    (found : patches.find? (replacesAt offset) = some patch) :
    (arrange patches).filter (replacesAt offset) = [patch] := by
  have member : patch ∈ (arrange patches).filter (replacesAt offset) :=
    List.mem_filter.mpr
      ⟨(arrange_perm patches).symm.subset (List.mem_of_find?_eq_some found), List.find?_some found⟩
  have replaces : ∀ other ∈ (arrange patches).filter (replacesAt offset),
      other.start = offset ∧ other.start < other.stop :=
    fun other isMember => replacesAt_iff.mp (List.mem_filter.mp isMember).2
  have ordered := orderly.arranged.filter (replacesAt offset)
  generalize (arrange patches).filter (replacesAt offset) = listed at *
  match listed with
  | [] => cases member
  | [first] => rw [List.mem_singleton.mp member]
  | first :: second :: rest =>
    have before := (List.pairwise_cons.mp ordered).1 second List.mem_cons_self
    have starts := replaces first List.mem_cons_self
    have starts' := replaces second (List.mem_cons_of_mem _ List.mem_cons_self)
    omega

/-- The patches of an arrangement behind an offset. -/
def beyond (patches : List Patch) (offset : Nat) : List Patch :=
  (arrange patches).filter fun patch => decide ((offset : Int) ≤ patch.start)

theorem mem_beyond :
    patch ∈ beyond patches offset ↔ patch ∈ patches ∧ (offset : Int) ≤ patch.start := by
  simp [beyond, (arrange_perm patches).mem_iff]

theorem Orderly.chain_beyond (orderly : Orderly source.length patches)
    (inside : offset ≤ source.length) :
    Chain offset source.length ((beyond patches offset).map edit) := by
  refine chain_of_pairwise (orderly.arranged.filter _) (fun patch member => ?_) inside
  obtain ⟨member, starts⟩ := mem_beyond.mp member
  exact ⟨starts, (orderly.bounds member).2⟩

/-- The patches from an offset on, when none replaces bytes from there on. -/
theorem Orderly.beyond_of_byte {size : Nat} (orderly : Orderly size patches)
    (missing : patches.find? (replacesAt offset) = none) :
    beyond patches offset = patches.filter (insertsAt offset) ++ beyond patches (offset + 1) := by
  have none : (arrange patches).filter (replacesAt offset) = [] := by
    refine List.filter_eq_nil_iff.mpr fun patch member => ?_
    exact List.find?_eq_none.mp missing patch ((arrange_perm patches).subset member)
  rw [beyond, filter_from (pairwise_arrange patches), filter_insertsAt_arrange, none,
    List.nil_append, ← beyond]
  exact fun patch member => (orderly.bounds ((arrange_perm patches).subset member)).2.1

/-- The patches from an offset on, when one replaces bytes from there on. -/
theorem Orderly.beyond_of_replacement {size : Nat} (orderly : Orderly size patches)
    (found : patches.find? (replacesAt offset) = some patch) :
    beyond patches offset
      = patches.filter (insertsAt offset) ++ patch :: beyond patches patch.stop.toNat := by
  have perm := arrange_perm patches
  obtain ⟨starts, nonempty⟩ := replacesAt_iff.mp (List.find?_some found)
  rw [beyond, filter_from (pairwise_arrange patches), filter_insertsAt_arrange,
    filter_replacesAt_arrange orderly found, List.singleton_append]
  · congr 2
    refine List.filter_congr fun other member => ?_
    have inside := orderly.bounds (perm.subset member)
    by_cases same : patch = other
    · subst same
      simp only [decide_eq_decide]
      omega
    · have compatible :=
        orderly.compatible (List.mem_of_find?_eq_some found) (perm.subset member) same
      simp only [Compatible] at compatible
      simp only [decide_eq_decide]
      omega
  · exact fun patch member => (orderly.bounds (perm.subset member)).2.1

/-- From each offset on, the patches that are left weave what is left of the walk. By induction on
the bytes behind the offset: one byte is copied, or one range is replaced. -/
theorem Orderly.weave_eq_reference (orderly : Orderly source.length patches)
    (inside : offset ≤ source.length) :
    weave source offset source.length ((beyond patches offset).map edit)
      = reference source patches offset := by
  have insertions (patch : Patch) (member : patch ∈ patches.filter (insertsAt offset)) :
      patch.insertsAt offset = true := (List.mem_filter.mp member).2
  induction left : source.length - offset using Nat.strongRecOn generalizing offset with
  | _ left ih =>
  subst left
  cases found : patches.find? (replacesAt offset) with
  | some patch =>
    obtain ⟨starts, nonempty⟩ := replacesAt_iff.mp (List.find?_some found)
    have bounds := orderly.bounds (List.mem_of_find?_eq_some found)
    have rest := @ih (source.length - patch.stop.toNat) (by omega) patch.stop.toNat (by omega)
      (fun other member => (List.mem_filter.mp member).2) rfl
    have startsAt : patch.start.toNat = offset := by omega
    rw [reference_of_replacement inside found, orderly.beyond_of_replacement found, List.map_append,
      weave_insertions _ insertions, ← rest]
    simp [weave, edit, startsAt]
  | none =>
    rw [reference_of_byte inside found, orderly.beyond_of_byte found, List.map_append,
      weave_insertions _ insertions]
    congr 1
    rcases Nat.lt_or_eq_of_le inside with before | atEnd
    · have rest := @ih (source.length - (offset + 1)) (by omega) (offset + 1) (by omega)
        (fun other member => (List.mem_filter.mp member).2) rfl
      rw [weave_of_le_start (Nat.le_succ offset) (orderly.chain_beyond before), rest]
      simp [slice, List.take_one, List.head?_drop]
    · have none : beyond patches (offset + 1) = [] := by
        refine List.eq_nil_iff_forall_not_mem.mpr fun patch member => ?_
        obtain ⟨member, starts⟩ := mem_beyond.mp member
        have bounds := orderly.bounds member
        omega
      rw [none, reference_of_end (by omega), atEnd]
      simp [weave]

/-- Orderly patches are applied as the walk says. -/
theorem Orderly.apply_eq (orderly : Orderly source.length patches) :
    apply source patches = .ok (reference source patches 0) := by
  have whole : arrange patches = beyond patches 0 := by
    refine (List.filter_eq_self.mpr fun patch member => ?_).symm
    have bounds := orderly.bounds ((arrange_perm patches).subset member)
    simpa using bounds.1
  refine apply_eq_ok_iff.mpr ⟨orderly, ?_⟩
  rw [whole, orderly.weave_eq_reference (Nat.zero_le _)]

/-- The patch that replaces bytes from an offset on is the same in each order of the list. -/
theorem Orderly.find?_perm {size : Nat} (orderly : Orderly size patches)
    (perm : others.Perm patches) (offset : Nat) :
    others.find? (replacesAt offset) = patches.find? (replacesAt offset) := by
  cases found : patches.find? (replacesAt offset) with
  | none =>
    refine List.find?_eq_none.mpr fun other member => ?_
    exact List.find?_eq_none.mp found other (perm.subset member)
  | some patch =>
    have alone := filter_replacesAt_arrange orderly found
    cases found' : others.find? (replacesAt offset) with
    | none =>
      exact absurd (List.find?_some found) (List.find?_eq_none.mp found' patch
        (perm.symm.subset (List.mem_of_find?_eq_some found)))
    | some other =>
      have listed : other ∈ (arrange patches).filter (replacesAt offset) :=
        List.mem_filter.mpr ⟨(arrange_perm patches).symm.subset
          (perm.subset (List.mem_of_find?_eq_some found')), List.find?_some found'⟩
      rw [alone, List.mem_singleton] at listed
      rw [listed]

/-- The walk reads of a list which patches it has and which insertions it has at each offset. So
nothing but the order of these can show in the output. -/
theorem Orderly.reference_perm (orderly : Orderly source.length patches)
    (perm : others.Perm patches)
    (insertions : ∀ offset, others.filter (insertsAt offset) = patches.filter (insertsAt offset)) :
    reference source others offset = reference source patches offset := by
  induction left : source.length + 1 - offset using Nat.strongRecOn generalizing offset with
  | _ left ih =>
  subst left
  by_cases inside : offset ≤ source.length
  · have same := orderly.find?_perm perm offset
    cases found : patches.find? (replacesAt offset) with
    | some patch =>
      have further := replacesAt_iff.mp (List.find?_some found)
      rw [reference_of_replacement inside found, reference_of_replacement inside (same.trans found),
        insertions, ih _ (by omega) rfl]
    | none =>
      rw [reference_of_byte inside found, reference_of_byte inside (same.trans found), insertions,
        ih _ (by omega) rfl]
  · rw [reference_of_end (by omega), reference_of_end (by omega)]

end Walk

/-! ## Rendering -/

section Rendering

variable {source : List UInt8} {patches : List Patch} {text : String}

/-- Rendering reports that patches cannot be made together. -/
def Conflicts (source : List UInt8) (patches : List Patch) : Prop :=
  ∃ start stop, render source patches = .error (.conflict start stop)

theorem Orderly.render_eq (orderly : Orderly source.length patches) :
    render source patches =
      match decode (reference source patches 0) with
      | some text => .ok text
      | none => .error .undecodable := by
  cases decoded : decode (reference source patches 0) <;>
    simp only [render, orderly.apply_eq, decoded]

theorem conflicts_iff : Conflicts source patches ↔ ¬Orderly source.length patches := by
  constructor
  · rintro ⟨start, stop, failed⟩ orderly
    rw [orderly.render_eq] at failed
    split at failed <;> cases failed
  · intro disorder
    cases applied : apply source patches with
    | ok output => exact absurd (apply_eq_ok_iff.mp applied).1 disorder
    | error error =>
      obtain ⟨start, stop, rfl⟩ := conflict_of_splice applied
      exact ⟨start, stop, by simp [render, applied]⟩

/-- Orderly patches between the characters of a text can be rendered. -/
theorem Orderly.render_text (orderly : Orderly (encode text).length patches)
    (aligned : ∀ patch ∈ patches, Boundary text patch.start.toNat
      ∧ Boundary text patch.stop.toNat) :
    ∃ output, render (encode text) patches = .ok output := by
  have chain := (splice_eq_ok (Nat.zero_le _) orderly.apply_eq).1
  refine render_of_chain (fun patch member => ?_) (fun patch member => ?_) chain
  · have bounds := orderly.bounds member
    exact ⟨bounds.1, Int.le_trans bounds.1 bounds.2.1⟩
  · exact ⟨(aligned patch member).1, (aligned patch member).2, spelled_encode patch.text⟩

/-- Rendering conflicts on a list exactly if one patch has no range of the source or two of them
clash. Otherwise it decodes the bytes of the walk over the offsets, which depend on the order of the
list in nothing but the insertions at one offset; and patches between the characters of a text are
always rendered. -/
theorem render_meets_reference (source : List UInt8) (patches : List Patch) :
    (Conflicts source patches ↔
        (∃ patch ∈ patches, patch.start < 0 ∨ patch.stop < patch.start ∨ patch.stop > source.length)
          ∨ ∃ i j : Fin patches.length, i ≠ j ∧ Clash patches[i] patches[j])
      ∧ (¬Conflicts source patches →
          apply source patches = .ok (reference source patches 0)
          ∧ render source patches =
            match decode (reference source patches 0) with
            | some text => .ok text
            | none => .error .undecodable)
      ∧ (∀ others, others.Perm patches → (Conflicts source others ↔ Conflicts source patches)
          ∧ ((∀ offset, others.filter (insertsAt offset) = patches.filter (insertsAt offset)) →
              ¬Conflicts source patches → render source others = render source patches))
      ∧ ∀ text, source = encode text → ¬Conflicts source patches →
          (∀ patch ∈ patches, Boundary text patch.start.toNat ∧ Boundary text patch.stop.toNat) →
          ∃ output, render source patches = .ok output := by
  have orderly_of (calm : ¬Conflicts source patches) : Orderly source.length patches :=
    Classical.not_not.mp fun disorder => calm (conflicts_iff.mpr disorder)
  refine ⟨conflicts_iff.trans not_orderly_iff, fun calm => ?_, fun others perm => ⟨?_, ?_⟩, ?_⟩
  · exact ⟨(orderly_of calm).apply_eq, (orderly_of calm).render_eq⟩
  · rw [conflicts_iff, conflicts_iff, orderly_perm_iff perm]
  · intro insertions calm
    have orderly := orderly_of calm
    rw [orderly.render_eq, (orderly.perm perm.symm).render_eq,
      orderly.reference_perm perm insertions]
  · rintro text rfl calm aligned
    exact (orderly_of calm).render_text aligned

/-- Insertions come in the order of the list, before what replaces the byte behind them. -/
example :
    render (encode "abc") [⟨2, 3, "C"⟩, ⟨0, 1, "A"⟩, insert 0 "x", insert 2 "z", insert 0 "y"]
      = .ok "xyAbzC" := by
  decide +kernel

end Rendering

end RenderProbe.Patch
