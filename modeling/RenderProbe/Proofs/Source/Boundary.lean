import RenderProbe.Proofs.Source.Splice

/-!
# Offsets between characters

Edits are made of bytes, and the bytes that are left spell a text again only if each edit starts and
stops between two characters.

* `spelled_slice_iff`: a stretch of a text's bytes spells a text exactly if it is empty or its two
  ends stand between characters.
* `spelled_weave`: edits between characters leave the bytes of a text.
* `render_of_chain`: hence rendering cannot fail on edits that stand one behind the other there.
-/

namespace RenderProbe.Patch

/-- The bytes spell a text. -/
def Spelled (bytes : List UInt8) : Prop :=
  (decode bytes).isSome = true

/-- The offset stands between two characters of a text, or at one of its ends. -/
def Boundary (text : String) (offset : Nat) : Prop :=
  String.Pos.Raw.IsValid text ⟨offset⟩

section Spelled

variable {bytes first second : List UInt8} {text : String} {start stop offset : Nat}

theorem spelled_iff : Spelled bytes ↔ ByteArray.IsValidUTF8 ⟨bytes.toArray⟩ := by
  simp [Spelled, decode, String.fromUTF8?]

theorem spelled_encode (text : String) : Spelled (encode text) := by
  rw [spelled_iff]
  simpa [encode] using text.isValidUTF8

theorem Spelled.append (left : Spelled first) (right : Spelled second) :
    Spelled (first ++ second) := by
  rw [spelled_iff] at *
  have joined :
      (⟨(first ++ second).toArray⟩ : ByteArray) = ⟨first.toArray⟩ ++ ⟨second.toArray⟩ := by
    apply ByteArray.ext
    simp
  rw [joined]
  exact left.append right

theorem length_encode (text : String) : (encode text).length = text.utf8ByteSize := by
  rw [encode, Array.length_toList, ByteArray.size_data]
  rfl

/-! ## Boundaries -/

theorem boundary_zero (text : String) : Boundary text 0 :=
  String.Pos.Raw.isValid_zero

theorem boundary_length (text : String) : Boundary text (encode text).length := by
  rw [length_encode]
  exact String.Pos.Raw.isValid_rawEndPos

/-- A stretch of a text spells a text if it is empty or starts and stops between characters, and
only then. -/
theorem spelled_slice_iff (ordered : start ≤ stop) (inside : stop ≤ (encode text).length) :
    Spelled (slice (encode text) start stop) ↔
      start = stop ∨ Boundary text start ∧ Boundary text stop := by
  have extracted : (⟨(slice (encode text) start stop).toArray⟩ : ByteArray) =
      text.toByteArray.extract start stop := by
    apply ByteArray.ext
    apply Array.toList_inj.mp
    simp [slice, encode, ByteArray.data_extract]
  have fits : (⟨stop⟩ : String.Pos.Raw) ≤ text.rawEndPos := by
    rw [length_encode] at inside
    simpa [String.Pos.Raw.le_iff] using inside
  have least : (⟨start⟩ : String.Pos.Raw) ≤ ⟨stop⟩ := by
    simpa [String.Pos.Raw.le_iff] using ordered
  rw [spelled_iff, extracted, String.Pos.Raw.isValidUTF8_extract_iff ⟨start⟩ ⟨stop⟩ least fits]
  simp [Boundary]

/-- What spells a text and is not empty starts and stops between characters. -/
theorem boundary_of_spelled (nonempty : start < stop) (inside : stop ≤ (encode text).length)
    (spelled : Spelled (slice (encode text) start stop)) :
    Boundary text start ∧ Boundary text stop := by
  rcases (spelled_slice_iff (Nat.le_of_lt nonempty) inside).mp spelled with same | boundaries
  · omega
  · exact boundaries

/-- The offset behind a byte that is a character by itself is a boundary. -/
theorem Boundary.succ {byte : UInt8} (found : (encode text)[offset]? = some byte)
    (alone : Spelled [byte]) : Boundary text (offset + 1) := by
  obtain ⟨inside, -⟩ := List.getElem?_eq_some_iff.mp found
  have single : slice (encode text) offset (offset + 1) = [byte] := by
    rw [slice, Nat.add_sub_cancel_left, List.take_one, List.head?_drop, found]
    rfl
  exact (boundary_of_spelled (Nat.lt_succ_self offset) inside (by rwa [single])).2

end Spelled

/-! ## Weaving -/

/-- The edit starts and stops between characters of a text and puts a text in. -/
structure Edit.OnBoundaries (text : String) (edit : Edit) : Prop where
  start : Boundary text edit.start
  stop : Boundary text edit.stop
  new : Spelled edit.new

/-- Edits between characters leave the bytes of a text. By induction on the edits: the stretch
before each is spelled by itself. -/
theorem spelled_weave {text : String} {start stop : Nat} {edits : List Edit}
    (inside : stop ≤ (encode text).length) (starts : Boundary text start)
    (stops : Boundary text stop) (chain : Chain start stop edits)
    (aligned : ∀ edit ∈ edits, edit.OnBoundaries text) :
    Spelled (weave (encode text) start stop edits) := by
  induction edits generalizing start with
  | nil => exact (spelled_slice_iff chain inside).mpr (.inr ⟨starts, stops⟩)
  | cons edit rest ih =>
    obtain ⟨before, within, after⟩ := chain
    have here := aligned edit List.mem_cons_self
    have reaches : edit.start ≤ (encode text).length :=
      Nat.le_trans within (Nat.le_trans after.le inside)
    have front := (spelled_slice_iff before reaches).mpr (.inr ⟨starts, here.start⟩)
    have back := ih here.stop after fun other later => aligned other (List.mem_cons_of_mem _ later)
    exact (front.append here.new).append back

/-- Patches between characters that stand one behind the other can be rendered. -/
theorem render_of_chain {text : String} {patches : List Patch}
    (grounded : ∀ patch ∈ patches, Grounded patch)
    (aligned : ∀ patch ∈ patches, patch.edit.OnBoundaries text)
    (chain : Chain 0 (encode text).length ((arrange patches).map edit)) :
    ∃ output, render (encode text) patches = .ok output := by
  have listed := (arrange_perm patches).subset
  have applied : apply (encode text) patches =
      .ok (weave (encode text) 0 (encode text).length ((arrange patches).map edit)) :=
    splice_of_chain (fun patch member => grounded patch (listed member)) chain
  have spelled : Spelled (weave (encode text) 0 (encode text).length
      ((arrange patches).map edit)) := by
    refine spelled_weave (Nat.le_refl _) (boundary_zero text) (boundary_length text) chain ?_
    intro edit member
    obtain ⟨patch, isPatch, rfl⟩ := List.mem_map.mp member
    exact aligned patch (listed isPatch)
  obtain ⟨output, decoded⟩ := Option.isSome_iff_exists.mp spelled
  exact ⟨output, by simp [render, applied, decoded]⟩

end RenderProbe.Patch
