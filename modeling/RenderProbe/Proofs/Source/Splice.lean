import RenderProbe.Source.Patch

/-!
# Splicing

Rendering arranges patches by offset and splices them into the bytes of a source. Here the result is
written down without a cursor and without failure: `weave` copies the bytes between edits that stand
one behind the other.

* `splice_eq_ok` and `splice_of_chain`: splicing succeeds on exactly the edits that stand one behind
  the other, and gives what they weave.
* `arrange_eq`: a list in which each patch strictly precedes the later ones is the arrangement of
  each of its permutations.
* `render_eq_ok`: both together, for texts.
-/

namespace RenderProbe.Patch

/-! ## Texts and bytes -/

theorem encode_append (first second : String) :
    encode (first ++ second) = encode first ++ encode second := by
  simp [encode, String.toByteArray_append]

theorem encode_injective {first second : String} (same : encode first = encode second) :
    first = second :=
  String.toByteArray_inj.mp (ByteArray.ext (Array.toList_inj.mp same))

theorem encode_of_decode {bytes : List UInt8} {text : String} (decoded : decode bytes = some text) :
    encode text = bytes := by
  simp only [decode, String.fromUTF8?, Option.dite_none_right_eq_some, Option.some.injEq] at decoded
  obtain ⟨_, rfl⟩ := decoded
  simp [encode, String.fromUTF8]

/-- The bytes from an offset to another. -/
def slice (bytes : List UInt8) (start stop : Nat) : List UInt8 :=
  (bytes.drop start).take (stop - start)

@[simp] theorem slice_self (bytes : List UInt8) (offset : Nat) :
    slice bytes offset offset = [] := by
  simp [slice]

theorem slice_append {start middle stop : Nat} (bytes : List UInt8) (before : start ≤ middle)
    (after : middle ≤ stop) : slice bytes start middle ++ slice bytes middle stop =
      slice bytes start stop := by
  obtain ⟨first, rfl⟩ := Nat.exists_eq_add_of_le before
  obtain ⟨second, rfl⟩ := Nat.exists_eq_add_of_le after
  have total : start + first + second - start = first + second := by omega
  simp only [slice, Nat.add_sub_cancel_left, total, List.take_add, List.drop_drop]

/-- A stretch that spells a text is the text's bytes. -/
theorem encode_sliceText {bytes : List UInt8} {start stop : Nat}
    (spelled : (decode (slice bytes start stop)).isSome = true) :
    encode (sliceText bytes start stop) = slice bytes start stop := by
  obtain ⟨text, decoded⟩ := Option.isSome_iff_exists.mp spelled
  have read : sliceText bytes start stop = text := by
    unfold sliceText
    unfold slice at decoded
    rw [decoded, Option.getD_some]
  rw [read, encode_of_decode decoded]

/-! ## Edits -/

/-- New bytes for a range of old ones. -/
structure Edit where
  start : Nat
  stop : Nat
  new : List UInt8
  deriving DecidableEq, Inhabited

/-- The edit that a patch makes. -/
def edit (patch : Patch) : Edit :=
  ⟨patch.start.toNat, patch.stop.toNat, encode patch.text⟩

/-- The edits stand one behind the other from an offset to another. -/
def Chain (start stop : Nat) : List Edit → Prop
  | [] => start ≤ stop
  | edit :: rest => start ≤ edit.start ∧ edit.start ≤ edit.stop ∧ Chain edit.stop stop rest

instance decidableChain (start stop : Nat) : ∀ edits, Decidable (Chain start stop edits)
  | [] => inferInstanceAs (Decidable (start ≤ stop))
  | edit :: rest =>
    have := decidableChain edit.stop stop rest
    inferInstanceAs (Decidable (_ ∧ _ ∧ _))

/-- The bytes from an offset to another with edits made. -/
def weave (bytes : List UInt8) (start stop : Nat) : List Edit → List UInt8
  | [] => slice bytes start stop
  | edit :: rest => slice bytes start edit.start ++ edit.new ++ weave bytes edit.stop stop rest

section Chains

variable {bytes : List UInt8} {start middle stop : Nat} {edits others : List Edit}

theorem Chain.le (chain : Chain start stop edits) : start ≤ stop := by
  induction edits generalizing start with
  | nil => exact chain
  | cons edit rest ih =>
    obtain ⟨before, inside, after⟩ := chain
    exact Nat.le_trans before (Nat.le_trans inside (ih after))

theorem Chain.of_le_start (le : middle ≤ start) (chain : Chain start stop edits) :
    Chain middle stop edits := by
  cases edits with
  | nil => exact Nat.le_trans le chain
  | cons edit rest => exact ⟨Nat.le_trans le chain.1, chain.2⟩

theorem Chain.append (first : Chain start middle edits) (second : Chain middle stop others) :
    Chain start stop (edits ++ others) := by
  induction edits generalizing start with
  | nil => exact second.of_le_start first
  | cons edit rest ih => exact ⟨first.1, first.2.1, ih first.2.2⟩

/-- The bytes before a chain of edits are copied. -/
theorem weave_of_le_start (le : start ≤ middle) (chain : Chain middle stop edits) :
    weave bytes start stop edits = slice bytes start middle ++ weave bytes middle stop edits := by
  cases edits with
  | nil => exact (slice_append bytes le chain).symm
  | cons edit rest =>
    simp only [weave, ← List.append_assoc]
    rw [slice_append bytes le chain.1]

/-- What an offset between edits cuts apart is woven apart, so edits inside a node can be looked at
without the rest of the module. -/
theorem weave_append (first : Chain start middle edits) (second : Chain middle stop others) :
    weave bytes start stop (edits ++ others) =
      weave bytes start middle edits ++ weave bytes middle stop others := by
  induction edits generalizing start with
  | nil => exact weave_of_le_start first second
  | cons edit rest ih => simp only [List.cons_append, weave, List.append_assoc, ih first.2.2]

/-- Of two edits in a chain the first ends before the second starts. -/
theorem Chain.pairwise (chain : Chain start stop edits) :
    edits.Pairwise fun first second => first.stop ≤ second.start := by
  have starts : ∀ {start : Nat} {edits : List Edit}, Chain start stop edits →
      ∀ edit ∈ edits, start ≤ edit.start := by
    intro start edits chain
    induction edits generalizing start with
    | nil => simp
    | cons first rest ih =>
      intro edit member
      rcases List.mem_cons.mp member with rfl | later
      · exact chain.1
      · exact Nat.le_trans (Nat.le_trans chain.1 chain.2.1) (ih chain.2.2 edit later)
  induction edits generalizing start with
  | nil => exact .nil
  | cons edit rest ih => exact .cons (starts chain.2.2) (ih chain.2.2)

end Chains

/-- The edits stand one behind the other, and each stops further on than the one before it. -/
def Advances (start stop : Nat) : List Edit → Prop
  | [] => start ≤ stop
  | edit :: rest =>
    start ≤ edit.start ∧ edit.start ≤ edit.stop ∧ start < edit.stop ∧ Advances edit.stop stop rest

section Advances

variable {start middle stop : Nat} {edits others : List Edit}

theorem Advances.chain (advances : Advances start stop edits) : Chain start stop edits := by
  induction edits generalizing start with
  | nil => exact advances
  | cons edit rest ih => exact ⟨advances.1, advances.2.1, ih advances.2.2.2⟩

theorem Advances.of_le_start (le : middle ≤ start) (advances : Advances start stop edits) :
    Advances middle stop edits := by
  cases edits with
  | nil => exact Nat.le_trans le advances
  | cons edit rest =>
    obtain ⟨before, inside, further, after⟩ := advances
    exact ⟨Nat.le_trans le before, inside, Nat.lt_of_le_of_lt le further, after⟩

theorem Advances.of_stop_le (advances : Advances start middle edits) (le : middle ≤ stop) :
    Advances start stop edits := by
  induction edits generalizing start with
  | nil => exact Nat.le_trans advances le
  | cons edit rest ih =>
    obtain ⟨before, inside, further, after⟩ := advances
    exact ⟨before, inside, further, ih after⟩

theorem Advances.append (first : Advances start middle edits)
    (second : Advances middle stop others) :
    Advances start stop (edits ++ others) := by
  induction edits generalizing start with
  | nil => exact second.of_le_start first
  | cons edit rest ih => exact ⟨first.1, first.2.1, first.2.2.1, ih first.2.2.2⟩

/-- The edits of a row behind an offset start there or later and stop later. -/
theorem Advances.of_mem {edit : Edit} (advances : Advances start stop edits)
    (member : edit ∈ edits) : start ≤ edit.start ∧ edit.start ≤ edit.stop ∧ start < edit.stop := by
  induction edits generalizing start with
  | nil => cases member
  | cons first rest ih =>
    obtain ⟨before, inside, further, after⟩ := advances
    rcases List.mem_cons.mp member with rfl | later
    · exact ⟨before, inside, further⟩
    · obtain ⟨before', inside', further'⟩ := ih after later
      exact ⟨by omega, inside', by omega⟩

end Advances

/-- Splicing succeeds only on patches that stand one behind the other, and weaves them in. By
induction on the patches, with the cursor as the start of the chain. -/
theorem splice_eq_ok {bytes output : List UInt8} {cursor : Nat} {patches : List Patch}
    (inside : cursor ≤ bytes.length)
    (spliced : splice bytes.length cursor (bytes.drop cursor) patches = .ok output) :
    Chain cursor bytes.length (patches.map edit)
      ∧ output = weave bytes cursor bytes.length (patches.map edit) := by
  induction patches generalizing cursor output with
  | nil =>
    obtain rfl : bytes.drop cursor = output := by simpa [splice] using spliced
    exact ⟨inside, by simp [weave, slice, List.take_of_length_le]⟩
  | cons patch rest ih =>
    rcases patch with ⟨start, stop, text⟩
    rw [splice] at spliced
    split at spliced
    · cases spliced
    · next fits =>
      simp only [Bool.or_eq_true, decide_eq_true_eq, not_or, Int.not_lt] at fits
      obtain ⟨⟨after, ordered⟩, bounded⟩ := fits
      obtain ⟨start, rfl⟩ := Int.eq_ofNat_of_zero_le (a := start) (by omega)
      obtain ⟨stop, rfl⟩ := Int.eq_ofNat_of_zero_le (a := stop) (by omega)
      have skipped :
          cursor + ((start - cursor : Int).toNat + (stop - start : Int).toNat) = stop := by
        omega
      simp only [List.drop_drop, skipped] at spliced
      split at spliced
      · next rendered =>
        obtain ⟨chain, rfl⟩ := ih (by omega) rendered
        obtain rfl := Except.ok.inj spliced
        refine ⟨⟨by simp [edit]; omega, by simp [edit]; omega, chain⟩, ?_⟩
        have copied : (start - cursor : Int).toNat = start - cursor := by omega
        simp [weave, edit, slice, copied]
      · cases spliced

/-- Only overlaps and ranges beyond the source stop a splice. -/
theorem conflict_of_splice {size cursor : Int} {rest : List UInt8} {patches : List Patch}
    {error : Error} (failed : splice size cursor rest patches = .error error) :
    ∃ start stop, error = .conflict start stop := by
  induction patches generalizing cursor rest with
  | nil => cases failed
  | cons patch others ih =>
    rw [splice] at failed
    split at failed
    · obtain rfl := Except.error.inj failed
      exact ⟨_, _, rfl⟩
    · dsimp only at failed
      split at failed
      · cases failed
      · next inner =>
        obtain rfl := Except.error.inj failed
        exact ih inner

/-! ## Arrangement -/

theorem place_perm (patch : Patch) (patches : List Patch) :
    (place patch patches).Perm (patch :: patches) := by
  induction patches with
  | nil => exact .refl _
  | cons next rest ih =>
    unfold place
    split
    · exact .refl _
    · exact (ih.cons next).trans (.swap patch next rest)

theorem arrange_perm (patches : List Patch) : (arrange patches).Perm patches := by
  induction patches with
  | nil => exact .refl _
  | cons patch rest ih => exact (place_perm patch (arrange rest)).trans (ih.cons patch)

theorem precedes_total (p q : Patch) : p.precedes q = true ∨ q.precedes p = true := by
  rcases Int.lt_trichotomy p.start q.start with lt | eq | gt
  · exact .inl (by simp [precedes, lt])
  · cases first : p.isInsertion <;> cases second : q.isInsertion <;>
      simp [precedes, eq, first, second]
  · exact .inr (by simp [precedes, gt])

theorem precedes_trans {p q r : Patch} (first : p.precedes q = true)
    (second : q.precedes r = true) :
    p.precedes r = true := by
  simp only [precedes, Bool.or_eq_true, Bool.and_eq_true, decide_eq_true_eq, beq_iff_eq] at *
  rcases first with lt | ⟨eq, kind⟩
  · rcases second with lt' | ⟨eq', -⟩ <;> exact .inl (by omega)
  · rcases second with lt' | ⟨eq', kind'⟩
    · exact .inl (by omega)
    · refine .inr ⟨by omega, ?_⟩
      cases insertion : q.isInsertion <;> simp_all

theorem pairwise_place {patch : Patch} {patches : List Patch}
    (ordered : patches.Pairwise fun p q => p.precedes q = true) :
    (place patch patches).Pairwise fun p q => p.precedes q = true := by
  induction patches with
  | nil => exact List.pairwise_singleton _ _
  | cons next rest ih =>
    obtain ⟨least, ordered'⟩ := List.pairwise_cons.mp ordered
    unfold place
    split
    · next precedes =>
      refine .cons (fun other member => ?_) ordered
      rcases List.mem_cons.mp member with rfl | later
      · exact precedes
      · exact precedes_trans precedes (least other later)
    · next notBefore =>
      refine .cons (fun other member => ?_) (ih ordered')
      rcases List.mem_cons.mp ((place_perm patch rest).subset member) with rfl | later
      · exact (precedes_total other next).resolve_left notBefore
      · exact least other later

theorem pairwise_arrange (patches : List Patch) :
    (arrange patches).Pairwise fun p q => p.precedes q = true := by
  induction patches with
  | nil => exact .nil
  | cons patch rest ih => exact pairwise_place ih

/-- Where each patch strictly precedes the later ones, no two of them precede each other. -/
theorem eq_of_strict {patches : List Patch} {p q : Patch}
    (strict : patches.Pairwise fun p q => p.precedes q = true ∧ q.precedes p = false)
    (member : p ∈ patches) (member' : q ∈ patches) (first : p.precedes q = true)
    (second : q.precedes p = true) : p = q := by
  induction strict with
  | nil => cases member
  | cons least _ ih =>
    rcases List.mem_cons.mp member with rfl | later <;>
      rcases List.mem_cons.mp member' with rfl | later'
    · rfl
    · simp [(least q later').2] at second
    · simp [(least p later).2] at first
    · exact ih later later'

/-- A list in which each patch strictly precedes the later ones is the arrangement of each of its
permutations. -/
theorem arrange_eq {patches listed : List Patch} (perm : patches.Perm listed)
    (strict : listed.Pairwise fun p q => p.precedes q = true ∧ q.precedes p = false) :
    arrange patches = listed := by
  have perm' := (arrange_perm patches).trans perm
  exact perm'.eq_of_pairwise
    (fun _ _ member member' => eq_of_strict strict (perm'.subset member) member')
    (pairwise_arrange patches) (strict.imp And.left)

/-- The patch has no offset before the start of the source. -/
def Grounded (patch : Patch) : Prop :=
  0 ≤ patch.start ∧ 0 ≤ patch.stop

/-- A patch at or before an offset strictly precedes a patch that starts there or later and stops
later. -/
theorem precedes_of_advances {p q : Patch} {offset : Nat} (grounded : Grounded p)
    (grounded' : Grounded q) (ordered : p.edit.start ≤ p.edit.stop) (before : p.edit.stop ≤ offset)
    (after : offset ≤ q.edit.start) (further : offset < q.edit.stop) :
    p.precedes q = true ∧ q.precedes p = false := by
  obtain ⟨p0, p1⟩ := grounded
  obtain ⟨q0, q1⟩ := grounded'
  simp only [edit] at ordered before after further
  by_cases same : p.start = q.start
  · have insertion : p.isInsertion = true := by simp [isInsertion]; omega
    have replacement : q.isInsertion = false := by simp [isInsertion]; omega
    simp [precedes, same, insertion, replacement]
  · have lt : p.start < q.start := by omega
    simp [precedes, lt, Int.le_of_lt lt, Ne.symm same]

/-- Patches whose edits advance strictly precede one another. So their arrangement is the list
itself, and stability says nothing more. -/
theorem strict_of_advances {patches : List Patch} {start stop : Nat}
    (grounded : ∀ patch ∈ patches, Grounded patch)
    (advances : Advances start stop (patches.map edit)) :
    patches.Pairwise fun p q => p.precedes q = true ∧ q.precedes p = false := by
  induction patches generalizing start with
  | nil => exact .nil
  | cons patch rest ih =>
    obtain ⟨-, inside, -, after⟩ := advances
    have groundedRest : ∀ other ∈ rest, Grounded other :=
      fun other later => grounded other (List.mem_cons_of_mem _ later)
    refine .cons (fun other later => ?_) (ih groundedRest after)
    obtain ⟨starts, -, stops⟩ := after.of_mem (List.mem_map_of_mem later)
    exact precedes_of_advances (grounded patch List.mem_cons_self) (groundedRest other later) inside
      (Nat.le_refl _) starts stops

/-- Patches that stand one behind the other are spliced in. -/
theorem splice_of_chain {bytes : List UInt8} {cursor : Nat} {patches : List Patch}
    (grounded : ∀ patch ∈ patches, Grounded patch)
    (chain : Chain cursor bytes.length (patches.map edit)) :
    splice bytes.length cursor (bytes.drop cursor) patches =
      .ok (weave bytes cursor bytes.length (patches.map edit)) := by
  induction patches generalizing cursor with
  | nil => simp [splice, weave, slice, List.take_of_length_le]
  | cons patch rest ih =>
    rcases patch with ⟨start, stop, text⟩
    obtain ⟨start, rfl⟩ := Int.eq_ofNat_of_zero_le (grounded _ List.mem_cons_self).1
    obtain ⟨stop, rfl⟩ := Int.eq_ofNat_of_zero_le (grounded _ List.mem_cons_self).2
    obtain ⟨before, inside, after⟩ := chain
    simp only [edit, Int.toNat_natCast] at before inside after
    have fits := after.le
    have spliced := ih (fun other later => grounded other (List.mem_cons_of_mem _ later)) after
    have accepted : ((start : Int) < cursor || (stop : Int) < start
        || decide ((stop : Int) > bytes.length)) = false := by
      simp only [Bool.or_eq_false_iff, decide_eq_false_iff_not]
      omega
    have skipped : cursor + ((start - cursor : Int).toNat + (stop - start : Int).toNat) = stop := by
      omega
    have copied : (start - cursor : Int).toNat = start - cursor := by omega
    rw [splice, accepted]
    simp only [Bool.false_eq_true, if_false, List.drop_drop, skipped, spliced]
    simp [weave, edit, slice, copied]

/-- Patches that do not stand one behind the other conflict. -/
theorem apply_of_not_chain {source : List UInt8} {patches : List Patch}
    (broken : ¬ Chain 0 source.length ((arrange patches).map edit)) :
    ∃ start stop, apply source patches = .error (.conflict start stop) := by
  cases applied : apply source patches with
  | ok bytes => exact absurd (splice_eq_ok (Nat.zero_le source.length) applied).1 broken
  | error error =>
    obtain ⟨start, stop, rfl⟩ := conflict_of_splice applied
    exact ⟨start, stop, rfl⟩

/-- The ranges of two patches do not meet. -/
def Compatible (p q : Patch) : Prop :=
  p.stop ≤ q.start ∨ q.stop ≤ p.start

instance (p q : Patch) : Decidable (Compatible p q) :=
  inferInstanceAs (Decidable (_ ∨ _))

theorem Compatible.symm {p q : Patch} (compatible : Compatible p q) : Compatible q p :=
  Or.symm compatible

/-- Patches that stand one behind the other once they are arranged are compatible, in whatever order
they are listed. -/
theorem pairwise_compatible {patches : List Patch} {size : Nat}
    (grounded : ∀ patch ∈ patches, Grounded patch)
    (chain : Chain 0 size ((arrange patches).map edit)) : patches.Pairwise Compatible := by
  have ordered : (arrange patches).Pairwise fun p q => p.edit.stop ≤ q.edit.start :=
    List.pairwise_map.mp chain.pairwise
  refine ((arrange_perm patches).pairwise_iff Compatible.symm).mp ?_
  refine ordered.imp_of_mem fun {p q} first second le => .inl ?_
  have groundedFirst := grounded p ((arrange_perm patches).subset first)
  have groundedSecond := grounded q ((arrange_perm patches).subset second)
  simp only [edit, Grounded] at le groundedFirst groundedSecond
  omega

/-- Rendering arranges, splices and decodes. -/
theorem render_eq_ok {source : List UInt8} {patches : List Patch} {output : String}
    (rendered : render source patches = .ok output) :
    Chain 0 source.length ((arrange patches).map edit)
      ∧ encode output = weave source 0 source.length ((arrange patches).map edit) := by
  unfold render at rendered
  split at rendered
  · cases rendered
  · next bytes applied =>
    split at rendered
    · next text decoded =>
      obtain ⟨chain, rfl⟩ := splice_eq_ok (Nat.zero_le source.length) applied
      obtain rfl := Except.ok.inj rendered
      exact ⟨chain, encode_of_decode decoded⟩
    · cases rendered

end RenderProbe.Patch
