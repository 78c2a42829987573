import Mathlib.Data.List.Induction
import RenderProbe.Path
import RenderProbe.Proofs.Text.Fields

/-!
# Walks between places

A place is the row of names that leads to it from the root. A walk is a row of components: `.`
stays, `..` goes up and a name goes down.

* `walk?`: the place a walk leads to, if it stays below the root and has no empty component.
* `walk?_up` and `walk?_names`: what the two halves of a walk from one place to another do.
* `isEntryName_of_mem_normalize`: the names of a normalised place can be those of entries.
-/

namespace RenderProbe.Path

/-- One component of a walk. -/
def step? (place : List String) (component : String) : Option (List String) :=
  if component = "." then some place
  else if component = ".." then if place = [] then none else some place.dropLast
  else if component = "" then none
  else some (place ++ [component])

/-- The place that a walk leads to. -/
def walk? (place : List String) (components : List String) : Option (List String) :=
  components.foldlM step? place

/-- A component that goes down. -/
structure IsName (component : String) : Prop where
  nonempty : component ≠ ""
  notHere : component ≠ "."
  notUp : component ≠ ".."

/-- What can be the name of an entry: a component that goes down, in one piece. -/
structure IsEntryName (name : String) : Prop extends IsName name where
  whole : '/' ∉ name.toList

instance (name : String) : Decidable (IsEntryName name) :=
  decidable_of_iff (name ≠ "" ∧ name ≠ "." ∧ name ≠ ".." ∧ '/' ∉ name.toList)
    ⟨fun ⟨nonempty, notHere, notUp, whole⟩ => ⟨⟨nonempty, notHere, notUp⟩, whole⟩,
      fun isName => ⟨isName.nonempty, isName.notHere, isName.notUp, isName.whole⟩⟩

section Walks

variable {place names others : List String} {component : String}

theorem step?_name (isName : IsName component) :
    step? place component = some (place ++ [component]) := by
  rw [step?, if_neg isName.notHere, if_neg isName.notUp, if_neg isName.nonempty]

theorem walk?_append :
    walk? place (names ++ others) = (walk? place names).bind fun between => walk? between others :=
  List.foldlM_append

/-- Names lead down. -/
theorem walk?_names (areNames : ∀ name ∈ names, IsName name) (place : List String) :
    walk? place names = some (place ++ names) := by
  induction names generalizing place with
  | nil => simp [walk?]
  | cons name rest ih =>
    rw [List.forall_mem_cons] at areNames
    have further := ih areNames.2 (place ++ [name])
    rw [walk?, List.foldlM_cons, step?_name areNames.1, Option.bind_eq_bind, Option.bind_some]
    rw [walk?, List.append_assoc, List.singleton_append] at further
    exact further

/-- As many components `..` as there are names below a place lead up to it. -/
theorem walk?_up (place names : List String) :
    walk? (place ++ names) (names.map fun _ => "..") = some place := by
  induction names using List.reverseRecOn with
  | nil => simp [walk?]
  | append_singleton names name ih =>
    have up : step? (place ++ (names ++ [name])) ".." = some (place ++ names) := by
      simp [step?, ← List.append_assoc]
    have turned : (names ++ [name]).map (fun _ => "..") = ".." :: names.map fun _ => ".." := by
      rw [List.map_append, List.map_const', List.map_const', List.length_singleton,
        List.replicate_one, ← List.replicate_succ', List.replicate_succ]
    rw [turned, walk?, List.foldlM_cons, up, Option.bind_eq_bind, Option.bind_some]
    exact ih

/-- The walk from one place to another goes up to a shared one and then down, so no name comes
before a `..` in it. -/
theorem relativeTo_eq (start place : List String) : ∃ shared above below,
    start = shared ++ above ∧ place = shared ++ below
      ∧ relativeTo start place = above.map (fun _ => "..") ++ below := by
  induction start generalizing place with
  | nil => exact ⟨[], [], place, rfl, rfl, by cases place <;> rfl⟩
  | cons name start ih =>
    cases place with
    | nil => exact ⟨[], name :: start, [], rfl, rfl, rfl⟩
    | cons other place =>
      by_cases same : name = other
      · subst same
        obtain ⟨shared, above, below, rfl, rfl, walked⟩ := ih place
        exact ⟨name :: shared, above, below, rfl, rfl, by simp [relativeTo, walked]⟩
      · exact ⟨[], name :: start, other :: place, rfl, rfl, by simp [relativeTo, same]⟩

end Walks

/-! ## Normalised places -/

section Normalised

variable {place names : List String} {name : String} {path workingDirectory : Path}

/-- A name as written in a path: neither empty nor `.`, and in one piece. -/
structure IsWritten (name : String) : Prop where
  nonempty : name ≠ ""
  notHere : name ≠ "."
  whole : '/' ∉ name.toList

theorem isWritten_of_mem_ofText {text : String} (member : name ∈ (ofText text).names) :
    IsWritten name := by
  obtain ⟨inText, proper⟩ := List.mem_filter.mp member
  obtain ⟨field, isField, rfl⟩ := List.mem_map.mp inText
  simp only [Bool.and_eq_true, bne_iff_ne] at proper
  exact ⟨proper.1, proper.2, by simpa using Text.notMem_of_mem_fields isField⟩

theorem isWritten_of_mem_under (first : ∀ name ∈ workingDirectory.names, IsWritten name)
    (second : ∀ name ∈ path.names, IsWritten name)
    (member : name ∈ (workingDirectory.under path).names) :
    IsWritten name := by
  unfold under at member
  split at member
  · exact second name member
  · rcases List.mem_append.mp member with inFirst | inSecond
    · exact first name inFirst
    · exact second name inSecond

/-- A stack of names keeps names that go down when a written name is put on it. -/
theorem isEntryName_of_mem_push (written : IsWritten name)
    (stacked : ∀ other ∈ place, IsEntryName other) :
    ∀ other ∈ push place name, IsEntryName other := by
  intro other member
  unfold push at member
  split at member
  · exact stacked other (List.dropLast_subset _ member)
  · next down =>
    rcases List.mem_append.mp member with before | last
    · exact stacked other before
    · obtain rfl := List.mem_singleton.mp last
      exact ⟨⟨written.nonempty, written.notHere, by simpa using down⟩, written.whole⟩

theorem isEntryName_of_mem_foldl_push (written : ∀ name ∈ names, IsWritten name)
    (stacked : ∀ other ∈ place, IsEntryName other) :
    ∀ other ∈ names.foldl push place, IsEntryName other := by
  induction names generalizing place with
  | nil => exact stacked
  | cons name rest ih =>
    rw [List.forall_mem_cons] at written
    exact ih written.2 (isEntryName_of_mem_push written.1 stacked)

/-- The names of the place that a written path leads to go down, and each is in one piece. By
induction along the names, with the stack as what is kept. -/
theorem isEntryName_of_mem_normalize (directory text : String) :
    ∀ name ∈ normalize (ofText directory) (ofText text), IsEntryName name := by
  refine isEntryName_of_mem_foldl_push (fun name member => ?_) (by simp)
  exact isWritten_of_mem_under (fun _ => isWritten_of_mem_ofText) (fun _ => isWritten_of_mem_ofText)
    member

end Normalised

end RenderProbe.Path
