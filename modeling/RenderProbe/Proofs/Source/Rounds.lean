import Mathlib.Data.List.Perm.Basic
import RenderProbe.Proofs.Source.Splice

/-!
# Edits in two rounds

Edits that stand apart can be made in any order. Some of them may also be made first, and the others
in the result, each where the first ones have moved it.

* `arrange_of_apart` and `arrange_swap`: patches that stand apart have one arrangement, in which
  each stands before the later ones.
* `weave_moved`: two rounds of edits weave what all edits weave at once.
* `copied`: a stretch that no edit meets stands unchanged where the edits have moved it.
-/

namespace RenderProbe.Patch

/-! ## Edits that stand apart -/

/-- The edit ends where the other starts or before that, and the other reaches further. -/
def Edit.Before (first second : Edit) : Prop :=
  first.stop ≤ second.start ∧ first.stop < second.stop

/-- One of the two edits stands before the other. -/
def Edit.Apart (first second : Edit) : Prop :=
  first.Before second ∨ second.Before first

theorem Edit.Apart.symm {first second : Edit} (apart : first.Apart second) : second.Apart first :=
  Or.symm apart

theorem Edit.Before.asymm {first second : Edit} (before : first.Before second) :
    ¬ second.Before first := by
  rintro ⟨-, further⟩
  have further' := before.2
  omega

theorem Edit.Apart.ne {first second : Edit} (apart : first.Apart second) : first ≠ second := by
  rintro rfl
  rcases apart with ⟨-, further⟩ | ⟨-, further⟩ <;> omega

/-- The edits stand one before the other, and none reaches beyond the size of the source. -/
structure Row (size : Nat) (edits : List Edit) : Prop where
  ordered : edits.Pairwise Edit.Before
  bounded : ∀ edit ∈ edits, edit.start ≤ edit.stop ∧ edit.stop ≤ size

section Rows

variable {size start : Nat} {edits done rest : List Edit} {edit : Edit}

theorem Row.sublist {others : List Edit} (row : Row size edits) (sub : others.Sublist edits) :
    Row size others :=
  ⟨row.ordered.sublist sub, fun edit member => row.bounded edit (sub.subset member)⟩

theorem Row.chain (row : Row size edits) (le : start ≤ size)
    (ahead : ∀ edit ∈ edits, start ≤ edit.start) : Chain start size edits := by
  induction edits generalizing start with
  | nil => exact le
  | cons edit later ih =>
    obtain ⟨before, -⟩ := List.pairwise_cons.mp row.ordered
    obtain ⟨inside, within⟩ := row.bounded edit List.mem_cons_self
    exact ⟨ahead edit List.mem_cons_self, inside,
      ih (row.sublist (List.sublist_cons_self _ _)) within fun other member =>
        (before other member).1⟩

/-- The edits of a row that end before an offset stand one behind the other up to it. -/
theorem Row.chain_to (row : Row size edits) (offset : Nat)
    (reached : ∀ edit ∈ edits, edit.stop ≤ offset) : Chain 0 offset edits := by
  have row' : Row offset edits :=
    ⟨row.ordered, fun edit member => ⟨(row.bounded edit member).1, reached edit member⟩⟩
  exact row'.chain (Nat.zero_le _) fun _ _ => Nat.zero_le _

theorem Row.of_advances {stop : Nat} (advances : Advances start stop edits) : Row stop edits := by
  induction edits generalizing start with
  | nil => exact ⟨.nil, by simp⟩
  | cons edit later ih =>
    obtain ⟨-, inside, -, after⟩ := advances
    have row := ih after
    refine ⟨.cons (fun other member => ?_) row.ordered, ?_⟩
    · obtain ⟨starts, -, further⟩ := after.of_mem member
      exact ⟨starts, further⟩
    · intro other member
      rcases List.mem_cons.mp member with rfl | member
      · exact ⟨inside, after.chain.le⟩
      · exact row.bounded other member

/-- Rows of the same edits are the same. -/
theorem Row.eq_of_perm {others : List Edit} (row : Row size edits) (row' : Row size others)
    (perm : edits.Perm others) : edits = others :=
  perm.eq_of_pairwise (fun _ _ _ _ before after => absurd after before.asymm)
    row.ordered row'.ordered

end Rows

/-! ## Arrangement -/

section Arrangement

variable {patches others : List Patch} {size : Nat}

/-- A patch that can be rendered on its own: it has its range in the source. -/
def Fits (size : Nat) (patch : Patch) : Prop :=
  patch.Grounded ∧ patch.edit.start ≤ patch.edit.stop ∧ patch.edit.stop ≤ size

/-- A patch that stands before another strictly precedes it. -/
theorem precedes_of_before {p q : Patch} (fits : p.Fits size) (fits' : q.Fits size)
    (before : p.edit.Before q.edit) : p.precedes q = true ∧ q.precedes p = false :=
  precedes_of_advances fits.1 fits'.1 fits.2.1 (Nat.le_refl _) before.1 before.2

/-- Patches that stand apart are arranged one before the other. -/
theorem arrange_of_apart (fits : ∀ patch ∈ patches, patch.Fits size)
    (apart : patches.Pairwise fun p q => p.edit.Apart q.edit) :
    Row size ((arrange patches).map edit) := by
  have perm := arrange_perm patches
  have fits' : ∀ patch ∈ arrange patches, patch.Fits size :=
    fun patch member => fits patch (perm.subset member)
  have apart' : (arrange patches).Pairwise fun p q => p.edit.Apart q.edit :=
    perm.symm.pairwise apart Edit.Apart.symm
  refine ⟨List.pairwise_map.mpr ?_, ?_⟩
  · refine (apart'.and (pairwise_arrange patches)).imp_of_mem ?_
    rintro p q first second ⟨before | after, precedes⟩
    · exact before
    · rw [(precedes_of_before (fits' q second) (fits' p first) after).2] at precedes
      cases precedes
  · intro edit member
    obtain ⟨patch, inPatches, rfl⟩ := List.mem_map.mp member
    exact (fits' patch inPatches).2

/-- Patches that stand apart have one arrangement, however they are listed. -/
theorem arrange_swap (fits : ∀ patch ∈ patches, patch.Fits size)
    (apart : patches.Pairwise fun p q => p.edit.Apart q.edit) (perm : others.Perm patches) :
    arrange others = arrange patches := by
  have row := arrange_of_apart fits apart
  refine arrange_eq (perm.trans (arrange_perm patches).symm) ?_
  refine (List.pairwise_map.mp row.ordered).imp_of_mem fun {p q} first second before => ?_
  exact precedes_of_before (fits p ((arrange_perm patches).subset first))
    (fits q ((arrange_perm patches).subset second)) before

/-- Patches whose arrangement is a row stand apart. -/
theorem apart_of_row (row : Row size ((arrange patches).map edit)) :
    patches.Pairwise fun p q => p.edit.Apart q.edit := by
  have arranged : (arrange patches).Pairwise fun p q => p.edit.Apart q.edit :=
    (List.pairwise_map.mp row.ordered).imp Or.inl
  exact (arrange_perm patches).pairwise arranged Edit.Apart.symm

/-- Patches whose arrangement is a row have their ranges in the source. -/
theorem fits_of_row {patch : Patch} (row : Row size ((arrange patches).map edit))
    (grounded : patch.Grounded) (member : patch ∈ patches) : patch.Fits size :=
  ⟨grounded, row.bounded _ (List.mem_map_of_mem ((arrange_perm patches).symm.subset member))⟩

end Arrangement

/-! ## Offsets in the result -/

/-- How much the edits before an offset make of the bytes before it. -/
def landing (bytes : List UInt8) (edits : List Edit) (offset : Nat) : Nat :=
  (weave bytes 0 offset edits).length

/-- Where something that starts at an offset starts in the result: behind what ends at the
offset. -/
def startAfter (bytes : List UInt8) (edits : List Edit) (offset : Nat) : Nat :=
  landing bytes (edits.filter (·.stop ≤ offset)) offset

/-- Where something that stops at an offset stops in the result: before what is put in at the
offset. -/
def stopAfter (bytes : List UInt8) (edits : List Edit) (offset : Nat) : Nat :=
  landing bytes (edits.filter (·.start < offset)) offset

/-- An edit where other edits have moved it. -/
def Edit.moved (bytes : List UInt8) (edits : List Edit) (edit : Edit) : Edit :=
  ⟨startAfter bytes edits edit.start, stopAfter bytes edits edit.stop, edit.new⟩

section Landing

variable {bytes : List UInt8} {edits done rest : List Edit} {edit : Edit} {offset further : Nat}

theorem length_slice {start stop : Nat} (le : stop ≤ bytes.length) :
    (slice bytes start stop).length = stop - start := by
  simp only [slice, List.length_take, List.length_drop]
  omega

theorem weave_further (chain : Chain 0 offset edits) (le : offset ≤ further) :
    weave bytes 0 further edits = weave bytes 0 offset edits ++ slice bytes offset further := by
  have split : weave bytes 0 further (edits ++ []) =
      weave bytes 0 offset edits ++ slice bytes offset further := weave_append chain le
  rw [List.append_nil] at split
  exact split

theorem landing_further (chain : Chain 0 offset edits) (le : offset ≤ further)
    (inside : further ≤ bytes.length) :
    landing bytes edits further = landing bytes edits offset + (further - offset) := by
  rw [landing, weave_further chain le, List.length_append, length_slice inside, landing]

theorem landing_concat (chain : Chain 0 edit.start edits) (ordered : edit.start ≤ edit.stop) :
    landing bytes (edits ++ [edit]) edit.stop
      = landing bytes edits edit.start + edit.new.length := by
  have here : Chain edit.start edit.stop [edit] := ⟨Nat.le_refl _, ordered, Nat.le_refl _⟩
  rw [landing, weave_append chain here, List.length_append]
  simp [weave, landing]

end Landing

/-! ## Two rounds -/

section Rounds

variable {bytes : List UInt8} {edits done rest : List Edit} {mine : Edit → Bool} {edit : Edit}
  {offset : Nat}

theorem filter_front {front back : List Edit} {test : Edit → Bool}
    (passes : ∀ edit ∈ front, test edit = true) (fails : ∀ edit ∈ back, test edit = false) :
    (front ++ back).filter test = front := by
  rw [List.filter_append, List.filter_eq_self.mpr passes,
    List.filter_eq_nil_iff.mpr fun edit member => by simp [fails edit member], List.append_nil]

/-- Of the edits made first, those before an edit of the second round are those listed before it. -/
theorem Row.moved_eq {size : Nat} (row : Row size (done ++ edit :: rest))
    (other : mine edit = false) :
    Edit.moved bytes ((done ++ edit :: rest).filter mine) edit =
      ⟨landing bytes (done.filter mine) edit.start, landing bytes (done.filter mine) edit.stop,
        edit.new⟩ := by
  obtain ⟨-, ordered, apart⟩ := List.pairwise_append.mp row.ordered
  obtain ⟨before, -⟩ := List.pairwise_cons.mp ordered
  obtain ⟨inside, -⟩ := row.bounded edit (by simp)
  have reached : ∀ other ∈ done.filter mine, other.stop ≤ edit.start ∧ other.start < edit.stop := by
    intro other member
    have isDone := (List.mem_filter.mp member).1
    obtain ⟨ends, further⟩ := apart other isDone edit List.mem_cons_self
    obtain ⟨within, -⟩ := row.bounded other (by simp [isDone])
    exact ⟨ends, Nat.lt_of_le_of_lt within further⟩
  have ahead : ∀ other ∈ rest.filter mine, edit.start < other.stop ∧ edit.stop ≤ other.start := by
    intro other member
    obtain ⟨starts, further⟩ := before other (List.mem_filter.mp member).1
    exact ⟨Nat.lt_of_le_of_lt inside further, starts⟩
  have starts : ((done ++ edit :: rest).filter mine).filter (·.stop ≤ edit.start) =
      done.filter mine := by
    rw [List.filter_append, List.filter_cons_of_neg (by simp [other])]
    exact filter_front (fun other member => by simpa using (reached other member).1)
      fun other member => by simpa using (ahead other member).1
  have stops : ((done ++ edit :: rest).filter mine).filter (·.start < edit.stop) =
      done.filter mine := by
    rw [List.filter_append, List.filter_cons_of_neg (by simp [other])]
    exact filter_front (fun other member => by simpa using (reached other member).2)
      fun other member => by simpa using (ahead other member).2
  rw [Edit.moved, startAfter, stopAfter, starts, stops]

/-- The edits of the second round, each moved by the first-round edits listed before it; `place` is
where the bytes from `offset` on have moved to. -/
def secondRound (mine : Edit → Bool) : Nat → Nat → List Edit → List Edit
  | _, _, [] => []
  | offset, place, edit :: rest =>
    let start := place + (edit.start - offset)
    if mine edit then secondRound mine edit.stop (start + edit.new.length) rest
    else
      let stop := start + (edit.stop - edit.start)
      ⟨start, stop, edit.new⟩ :: secondRound mine edit.stop stop rest

theorem Chain.filter {start stop : Nat} (chain : Chain start stop edits) :
    Chain start stop (edits.filter mine) := by
  induction edits generalizing start with
  | nil => exact chain
  | cons edit rest ih =>
    obtain ⟨before, fits, after⟩ := chain
    rw [List.filter_cons]
    split
    · exact ⟨before, fits, ih after⟩
    · exact (ih after).of_le_start (Nat.le_trans before fits)

/-- A list that goes on with two parts behind an offset has the first part there, and the second
behind it. -/
theorem cut_of_drop {whole front back : List UInt8} {place size : Nat}
    (inside : place ≤ whole.length) (stands : whole.drop place = front ++ back)
    (length : front.length = size) :
    slice whole place (place + size) = front ∧ whole.drop (place + size) = back
      ∧ place + size ≤ whole.length := by
  subst length
  have total := congrArg List.length stands
  rw [List.length_drop, List.length_append] at total
  refine ⟨by simp [slice, stands], ?_, by omega⟩
  rw [← List.drop_drop, stands, List.drop_left]

/-- The second round gives what all edits give. The invariant is that the result of the first round
has, from the place on, what its edits that are left weave from the offset on. -/
theorem weave_secondRound {once : List UInt8} {place : Nat}
    (chain : Chain offset bytes.length edits) (inside : place ≤ once.length)
    (stands : once.drop place = weave bytes offset bytes.length (edits.filter mine)) :
    Chain place once.length (secondRound mine offset place edits)
      ∧ weave once place once.length (secondRound mine offset place edits) =
        weave bytes offset bytes.length edits := by
  induction edits generalizing offset place with
  | nil =>
    refine ⟨inside, ?_⟩
    rw [secondRound, weave, weave, slice, List.take_of_length_le (by simp), stands]
    rfl
  | cons edit rest ih =>
    obtain ⟨before, fits, after⟩ := chain
    have gap : (slice bytes offset edit.start).length = edit.start - offset :=
      length_slice (Nat.le_trans fits after.le)
    cases kind : mine edit with
    | true =>
      rw [List.filter_cons_of_pos kind, weave, List.append_assoc] at stands
      obtain ⟨copied, stands, inside⟩ := cut_of_drop inside stands gap
      obtain ⟨added, stands, inside⟩ := cut_of_drop inside stands rfl
      obtain ⟨chain, woven⟩ := ih after inside stands
      have le : place + (edit.start - offset) ≤
          place + (edit.start - offset) + edit.new.length := Nat.le_add_right _ _
      simp only [secondRound, kind, if_true]
      have chain' := chain.of_le_start le
      refine ⟨chain'.of_le_start (Nat.le_add_right _ _), ?_⟩
      rw [weave_of_le_start (Nat.le_add_right _ _) chain', weave_of_le_start le chain, copied,
        added, woven, weave, List.append_assoc]
    | false =>
      have rest' : weave bytes offset bytes.length (rest.filter mine) =
          slice bytes offset edit.start ++ (slice bytes edit.start edit.stop
            ++ weave bytes edit.stop bytes.length (rest.filter mine)) := by
        rw [weave_of_le_start (Nat.le_trans before fits) after.filter,
          ← slice_append bytes before fits, List.append_assoc]
      rw [List.filter_cons_of_neg (by simp [kind]), rest'] at stands
      obtain ⟨copied, stands, inside⟩ := cut_of_drop inside stands gap
      obtain ⟨-, stands, inside⟩ := cut_of_drop inside stands (length_slice after.le)
      obtain ⟨chain, woven⟩ := ih after inside stands
      simp only [secondRound, kind, Bool.false_eq_true, if_false]
      refine ⟨⟨Nat.le_add_right _ _, Nat.le_add_right _ _, chain⟩, ?_⟩
      rw [weave, copied, woven, weave]

/-- The second round has the edits that were not made first, each where these have moved it. How far
an edit is moved depends on the edits before it alone. -/
theorem secondRound_eq (row : Row bytes.length (done ++ rest)) (inside : offset ≤ bytes.length)
    (reached : ∀ edit ∈ done, edit.stop ≤ offset) (ahead : ∀ edit ∈ rest, offset ≤ edit.start) :
    secondRound mine offset (landing bytes (done.filter mine) offset) rest =
      (rest.filter (!mine ·)).map (Edit.moved bytes ((done ++ rest).filter mine)) := by
  induction rest generalizing done offset with
  | nil => rfl
  | cons edit rest ih =>
    obtain ⟨-, ordered, -⟩ := List.pairwise_append.mp row.ordered
    obtain ⟨before, -⟩ := List.pairwise_cons.mp ordered
    obtain ⟨fits, within⟩ := row.bounded edit (by simp)
    have starts := ahead edit List.mem_cons_self
    have doneRow : Row bytes.length (done.filter mine) :=
      row.sublist (List.filter_sublist.trans (List.sublist_append_left _ _))
    have reachedMine : ∀ other ∈ done.filter mine, other.stop ≤ offset :=
      fun other member => reached other (List.mem_filter.mp member).1
    have toStart := landing_further (doneRow.chain_to offset reachedMine) starts
      (Nat.le_trans fits within)
    have chain := doneRow.chain_to edit.start fun other member =>
      Nat.le_trans (reachedMine other member) starts
    have rest' :
        secondRound mine edit.stop (landing bytes ((done ++ [edit]).filter mine) edit.stop) rest =
        (rest.filter (!mine ·)).map (Edit.moved bytes ((done ++ edit :: rest).filter mine)) := by
      have row' : Row bytes.length ((done ++ [edit]) ++ rest) := by simpa using row
      have reached' : ∀ other ∈ done ++ [edit], other.stop ≤ edit.stop := by
        intro other member
        rcases List.mem_append.mp member with isDone | same
        · have := reached other isDone
          omega
        · obtain rfl := List.mem_singleton.mp same
          exact Nat.le_refl _
      have later := ih row' within reached' fun other member => (before other member).1
      rwa [List.append_assoc, List.singleton_append] at later
    cases kind : mine edit with
    | true =>
      have more : (done ++ [edit]).filter mine = done.filter mine ++ [edit] := by simp [kind]
      rw [more, landing_concat chain fits, toStart] at rest'
      simpa [secondRound, kind] using rest'
    | false =>
      have same : (done ++ [edit]).filter mine = done.filter mine := by simp [kind]
      rw [same, landing_further chain fits within, toStart] at rest'
      have toStop := landing_further chain fits within
      rw [toStart] at toStop
      simp only [secondRound, kind, Bool.false_eq_true, if_false, Bool.not_false,
        List.filter_cons_of_pos, List.map_cons, rest', row.moved_eq kind, toStart, toStop]

/-- Two rounds of edits, the second moved by the first, weave what all edits weave at once. By
induction on the row of all edits, each of which is made in one round. -/
theorem weave_twice (row : Row bytes.length edits) (mine : Edit → Bool) :
    let once := weave bytes 0 bytes.length (edits.filter mine)
    weave once 0 once.length ((edits.filter (!mine ·)).map (Edit.moved bytes (edits.filter mine))) =
      weave bytes 0 bytes.length edits := by
  intro once
  have chain := row.chain (Nat.zero_le _) fun _ _ => Nat.zero_le _
  have moved : secondRound mine 0 (landing bytes (([] : List Edit).filter mine) 0) edits =
      (edits.filter (!mine ·)).map (Edit.moved bytes (edits.filter mine)) :=
    secondRound_eq row (Nat.zero_le _) (by simp) fun _ _ => Nat.zero_le _
  have start : landing bytes (([] : List Edit).filter mine) 0 = 0 := by simp [landing, weave]
  rw [start] at moved
  rw [← (weave_secondRound chain (Nat.zero_le _) rfl).2]
  exact congrArg _ moved.symm

/-- Edits made first and the others where these have moved them weave what all of them weave at
once. -/
theorem weave_moved {all first second : List Edit} (row : Row bytes.length all)
    (row₁ : Row bytes.length first) (row₂ : Row bytes.length second)
    (perm : all.Perm (first ++ second)) (distinct : ∀ edit ∈ second, edit ∉ first) :
    let once := weave bytes 0 bytes.length first
    weave once 0 once.length (second.map (Edit.moved bytes first))
      = weave bytes 0 bytes.length all := by
  have front : all.filter (fun edit => decide (edit ∈ first)) = first := by
    refine (row.sublist List.filter_sublist).eq_of_perm row₁ ((perm.filter _).trans (.of_eq ?_))
    exact filter_front (fun edit member => decide_eq_true member)
      fun edit member => decide_eq_false (distinct edit member)
  have back : all.filter (fun edit => !decide (edit ∈ first)) = second := by
    refine (row.sublist List.filter_sublist).eq_of_perm row₂
      ((perm.trans List.perm_append_comm).filter _ |>.trans (.of_eq ?_))
    exact filter_front (fun edit member => by simpa using distinct edit member)
      fun edit member => by simpa using member
  have twice := weave_twice row fun edit => decide (edit ∈ first)
  rwa [front, back] at twice

end Rounds

/-! ## Stretches that no edit meets -/

section Clear

variable {bytes : List UInt8} {edits : List Edit} {start stop offset : Nat}

/-- Every edit ends before the stretch or starts behind it. -/
def Clear (edits : List Edit) (start stop : Nat) : Prop :=
  ∀ edit ∈ edits, edit.stop ≤ start ∨ stop ≤ edit.start

/-- The edits of a row that end before an offset stand one behind the other up to it. -/
theorem Row.chain_before {size : Nat} (row : Row size edits) (offset : Nat) :
    Chain 0 offset (edits.filter (·.stop ≤ offset)) :=
  (row.sublist List.filter_sublist).chain_to offset fun _ member => by
    simpa using (List.mem_filter.mp member).2

/-- The edits of a row that end before an offset, and then the others, are all of them in order. -/
theorem Row.split {size : Nat} (row : Row size edits) :
    edits.filter (·.stop ≤ start) ++ edits.filter (fun edit => !decide (edit.stop ≤ start))
      = edits := by
  induction edits with
  | nil => rfl
  | cons edit rest ih =>
    obtain ⟨before, -⟩ := List.pairwise_cons.mp row.ordered
    have row' := row.sublist (List.sublist_cons_self _ _)
    by_cases ends : edit.stop ≤ start
    · simp only [List.filter_cons, ends, decide_true, if_true, Bool.not_true, Bool.false_eq_true,
        if_false, List.cons_append]
      rw [ih row']
    · -- The edit reaches beyond the offset, and so do the later ones.
      have behind : ∀ other ∈ edit :: rest, ¬ other.stop ≤ start := by
        intro other member
        rcases List.mem_cons.mp member with rfl | later
        · exact ends
        · have further := (before other later).2
          omega
      rw [List.filter_eq_nil_iff.mpr fun other member => by simpa using behind other member,
        List.filter_eq_self.mpr fun other member => by simpa using behind other member,
        List.nil_append]

/-- A stretch that no edit meets stands in the result where the edits have moved its start. This is
what a second reading of the text finds there. -/
theorem copied (row : Row bytes.length edits) (clear : Clear edits start stop) (lt : start < stop)
    (inside : stop ≤ bytes.length) :
    ∃ rest, (weave bytes 0 bytes.length edits).drop (startAfter bytes edits start) =
      slice bytes start stop ++ rest := by
  have row' : Row bytes.length (edits.filter fun edit => !decide (edit.stop ≤ start)) :=
    row.sublist List.filter_sublist
  have chain := row'.chain inside fun edit member => by
    obtain ⟨isEdit, behind⟩ := List.mem_filter.mp member
    rcases clear edit isEdit with ends | starts
    · simp [ends] at behind
    · exact starts
  have split : weave bytes 0 bytes.length _ = _ := weave_append (row.chain_before start)
    (chain.of_le_start (Nat.le_of_lt lt))
  rw [row.split, weave_of_le_start (Nat.le_of_lt lt) chain] at split
  rw [split]
  exact ⟨_, List.drop_left⟩

theorem stopAfter_of_clear (row : Row bytes.length edits) (clear : Clear edits start stop)
    (inside : stop ≤ bytes.length) (gt : start < offset) (le : offset ≤ stop) :
    stopAfter bytes edits offset = startAfter bytes edits start + (offset - start) := by
  have same : edits.filter (·.start < offset) = edits.filter (·.stop ≤ start) := by
    refine List.filter_congr fun edit member => ?_
    have fits := (row.bounded edit member).1
    rcases clear edit member with ends | starts
    · have before : edit.start < offset := by omega
      simp [ends, before]
    · have behind : ¬ edit.start < offset ∧ ¬ edit.stop ≤ start := by omega
      simp [behind.1, behind.2]
  rw [stopAfter, same, landing_further (row.chain_before start) (Nat.le_of_lt gt) (by omega),
    startAfter]

/-- The bytes of a stretch that no edit meets. -/
theorem slice_of_clear (row : Row bytes.length edits) (clear : Clear edits start stop)
    (lt : start < stop) (inside : stop ≤ bytes.length) :
    slice (weave bytes 0 bytes.length edits) (startAfter bytes edits start)
        (stopAfter bytes edits stop) = slice bytes start stop := by
  obtain ⟨rest, stands⟩ := copied row clear lt inside
  rw [stopAfter_of_clear row clear inside lt (Nat.le_refl _), slice, stands,
    Nat.add_sub_cancel_left, ← length_slice inside, List.take_left]

/-- Where nothing is put in at an offset, what stops there stops where the rest goes on. -/
theorem startAfter_eq_stopAfter (apart : ∀ edit ∈ edits, edit.stop ≤ offset ↔ edit.start < offset) :
    startAfter bytes edits offset = stopAfter bytes edits offset := by
  rw [startAfter, stopAfter, List.filter_congr
    fun edit member => decide_eq_decide.mpr (apart edit member)]

end Clear

end RenderProbe.Patch
