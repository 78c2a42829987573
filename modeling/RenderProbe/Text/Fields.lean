/-!
# Fields of a text

Cutting a text at every occurrence of a separator, and putting the fields together again.

* `joinFields_fields`: joining the fields of a text gives the text back.
-/

namespace RenderProbe.Text

/-- The fields between the separators; a text without separator is its own only field. So there is
one field more than separators, and some may be empty. -/
def fields (separator : Char) : List Char → List (List Char)
  | [] => [[]]
  | c :: rest =>
    if c == separator then [] :: fields separator rest
    else match fields separator rest with
      | [] => [[c]]
      | field :: others => (c :: field) :: others

/-- Fields joined by a separator. -/
def joinFields (separator : Char) : List (List Char) → List Char
  | [] => []
  | [field] => field
  | field :: others => field ++ separator :: joinFields separator others

theorem fields_ne_nil (separator : Char) (text : List Char) : fields separator text ≠ [] := by
  fun_cases fields separator text <;> simp

theorem joinFields_fields (separator : Char) (text : List Char) :
    joinFields separator (fields separator text) = text := by
  induction text with
  | nil => rfl
  | cons c rest ih =>
    have hne := fields_ne_nil separator rest
    rw [fields]
    split
    · rename_i h
      obtain rfl := beq_iff_eq.mp h
      cases hf : fields c rest with
      | nil => exact absurd hf hne
      | cons field others => simp [joinFields, ← hf, ih]
    · cases hf : fields separator rest with
      | nil => exact absurd hf hne
      | cons field others =>
        rw [hf] at ih
        cases others <;> simp_all [joinFields]

def split (separator : Char) (text : String) : List String :=
  (fields separator text.toList).map String.ofList

def join (separator : Char) (parts : List String) : String :=
  String.ofList (joinFields separator (parts.map String.toList))

end RenderProbe.Text
