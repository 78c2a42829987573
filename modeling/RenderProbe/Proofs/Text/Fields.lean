import RenderProbe.Text.Fields

/-!
# Fields that are joined

Fields without a separator in them come back when the text that they are joined to is cut again, so
different rows of them are different texts.

* `fields_append_separator`, `joinFields_append`: cutting and joining on both sides of a separator.
* `split_join` and `join_split`: rows of fields and texts go over into each other.
* `isAbove_iff`: what stands before a separator is the first of the fields, joined.
-/

namespace RenderProbe.Text

variable {separator : Char}

theorem fields_of_notMem {field : List Char} (plain : separator ∉ field) :
    fields separator field = [field] := by
  induction field with
  | nil => rfl
  | cons c rest ih =>
    rw [List.mem_cons, not_or] at plain
    simp [fields, Ne.symm plain.1, ih plain.2]

/-- What stands before a separator and what stands behind it are cut apart from each other. -/
theorem fields_append_separator (front text : List Char) :
    fields separator (front ++ separator :: text)
      = fields separator front ++ fields separator text := by
  induction front with
  | nil => simp [fields]
  | cons c rest ih =>
    rw [List.cons_append, fields, fields, ih]
    split
    · rfl
    · cases isFields : fields separator rest with
      | nil => exact absurd isFields (fields_ne_nil separator rest)
      | cons field others => rfl

theorem fields_append {field : List Char} (plain : separator ∉ field) (text : List Char) :
    fields separator (field ++ separator :: text) = field :: fields separator text := by
  rw [fields_append_separator, fields_of_notMem plain, List.singleton_append]

/-- Fields without separator come back. -/
theorem fields_joinFields {parts : List (List Char)} (nonempty : parts ≠ [])
    (plain : ∀ part ∈ parts, separator ∉ part) :
    fields separator (joinFields separator parts) = parts := by
  induction parts with
  | nil => exact absurd rfl nonempty
  | cons part rest ih =>
    rw [List.forall_mem_cons] at plain
    cases rest with
    | nil => exact fields_of_notMem plain.1
    | cons next others =>
      rw [joinFields, fields_append plain.1, ih (by simp) plain.2]
      simp

/-- No field has a separator in it. -/
theorem notMem_of_mem_fields {text field : List Char} (member : field ∈ fields separator text) :
    separator ∉ field := by
  induction text generalizing field with
  | nil =>
    obtain rfl := List.mem_singleton.mp member
    exact List.not_mem_nil
  | cons c rest ih =>
    rw [fields] at member
    split at member
    · rcases List.mem_cons.mp member with rfl | later
      · exact List.not_mem_nil
      · exact ih later
    · next other =>
      have notSeparator : separator ≠ c := fun same => other (beq_iff_eq.mpr same.symm)
      split at member
      · next none => exact absurd none (fields_ne_nil separator rest)
      · next first others isFields =>
        rw [isFields] at ih
        rcases List.mem_cons.mp member with rfl | later
        · rw [List.mem_cons, not_or]
          exact ⟨notSeparator, ih List.mem_cons_self⟩
        · exact ih (List.mem_cons_of_mem _ later)

/-- Fields that are joined in two parts have a separator between these. -/
theorem joinFields_append {parts others : List (List Char)}
    (nonempty : parts ≠ []) (more : others ≠ []) :
    joinFields separator (parts ++ others) =
      joinFields separator parts ++ separator :: joinFields separator others := by
  induction parts with
  | nil => exact absurd rfl nonempty
  | cons part rest ih =>
    cases rest with
    | nil =>
      cases others with
      | nil => exact absurd rfl more
      | cons next last => rfl
    | cons next last => simp [joinFields, ← ih (by simp)]

theorem subset_joinFields {parts : List (List Char)} {part : List Char} (member : part ∈ parts) :
    part ⊆ joinFields separator parts := by
  induction parts with
  | nil => cases member
  | cons first rest ih =>
    cases rest with
    | nil =>
      obtain rfl := List.mem_singleton.mp member
      exact List.Subset.refl _
    | cons next others =>
      change part ⊆ first ++ separator :: joinFields separator (next :: others)
      rcases List.mem_cons.mp member with rfl | later
      · exact List.subset_append_left ..
      · exact List.subset_append_of_subset_right _ (List.subset_cons_of_subset _ (ih later))

/-- A field has only characters of the text. -/
theorem subset_of_mem_fields {text field : List Char} (member : field ∈ fields separator text) :
    field ⊆ text := by
  have joined : field ⊆ joinFields separator (fields separator text) := subset_joinFields member
  rwa [joinFields_fields] at joined

/-- The last field stands behind a separator, unless it is the only one. -/
theorem joinFields_concat {parts : List (List Char)} (nonempty : parts ≠ []) (last : List Char) :
    joinFields separator (parts ++ [last]) = joinFields separator parts ++ separator :: last :=
  joinFields_append nonempty (List.cons_ne_nil last [])

/-! ## Fields as texts -/

section Texts

variable {parts others : List String} {front text : String}

theorem split_ne_nil (separator : Char) (text : String) : split separator text ≠ [] := by
  simpa [split] using fields_ne_nil separator text.toList

theorem notMem_of_mem_split {part : String} (member : part ∈ split separator text) :
    separator ∉ part.toList := by
  obtain ⟨field, isField, rfl⟩ := List.mem_map.mp member
  simpa using notMem_of_mem_fields isField

/-- The fields of a text that are joined are the text. -/
theorem join_split (separator : Char) (text : String) :
    join separator (split separator text) = text := by
  rw [join, split, List.map_map]
  simp [Function.comp_def, joinFields_fields]

theorem split_join (nonempty : parts ≠ [])
    (plain : ∀ part ∈ parts, separator ∉ part.toList) :
    split separator (join separator parts) = parts := by
  have back : fields separator (joinFields separator (parts.map String.toList)) =
      parts.map String.toList :=
    fields_joinFields (by simpa using nonempty) (by simpa using plain)
  rw [split, join, String.toList_ofList, back, List.map_map]
  simp [Function.comp_def]

/-- Rows of fields without separator that are joined to the same text are the same. So different
rows of names are different paths. -/
theorem join_inj (nonempty : parts ≠ []) (nonempty' : others ≠ [])
    (plain : ∀ part ∈ parts, separator ∉ part.toList)
    (plain' : ∀ part ∈ others, separator ∉ part.toList)
    (same : join separator parts = join separator others) : parts = others := by
  rw [← split_join nonempty plain, same, split_join nonempty' plain']

theorem toList_join_append (nonempty : parts ≠ []) (more : others ≠ []) :
    (join separator (parts ++ others)).toList =
      (join separator parts).toList ++ separator :: (join separator others).toList := by
  simp only [join, String.toList_ofList, List.map_append]
  exact joinFields_append (by simpa using nonempty) (by simpa using more)

/-- A text is above another one that goes on behind it with a separator. -/
def IsAbove (separator : Char) (front text : String) : Prop :=
  front.toList ++ [separator] <+: text.toList

/-- What is above a text is some of its first fields, but not all, joined. -/
theorem isAbove_iff : IsAbove separator front text ↔
    ∃ parts others, parts ≠ [] ∧ others ≠ [] ∧ split separator text = parts ++ others
      ∧ front = join separator parts := by
  constructor
  · rintro ⟨rest, isText⟩
    refine ⟨split separator front, split separator (String.ofList rest), split_ne_nil _ _,
      split_ne_nil _ _, ?_, (join_split separator front).symm⟩
    rw [List.append_assoc, List.singleton_append] at isText
    simp [split, ← isText, fields_append_separator]
  · rintro ⟨parts, others, nonempty, more, isSplit, rfl⟩
    refine ⟨(join separator others).toList, ?_⟩
    rw [List.append_assoc, List.singleton_append, ← toList_join_append nonempty more,
      ← isSplit, join_split]

end Texts

end RenderProbe.Text
