import Mathlib.Data.List.Induction
import Mathlib.Data.List.Nodup
import RenderProbe.Component.Tree
import RenderProbe.Proofs.Text.Fields

/-!
# What a component tree shows

A forest shows contents, that is, rows of names with the components that stand there, if every row
of siblings has exactly the nodes that the contents ask for. Adding a component to a forest adds it
to what the forest shows, and putting siblings in order changes nothing of that.

* `Shows`: the relation, row by row.
* `shows_addAlong`: what one more component does.
* `shows_tree`: the tree of candidates shows each of them at the fields of its path.
-/

namespace RenderProbe.Component

namespace TreeNode

/-- What tells a node from its siblings: a directory and a file may share a name. -/
def key (node : TreeNode) : Bool × String :=
  (node.isDirectory, node.name)

end TreeNode

/-! ## Changing one of the siblings -/

section Siblings

variable {new node : TreeNode} {nodes result : List TreeNode} {name path : String} {leaf : Leaf}
  {key : Bool × String} {change : Option TreeNode → TreeNode}

/-- Change the node of a key, or put one at the end if there is none. -/
def changeAt (key : Bool × String) (change : Option TreeNode → TreeNode) :
    List TreeNode → List TreeNode
  | [] => [change none]
  | node :: rest =>
    if node.key = key then change (some node) :: rest else node :: changeAt key change rest

/-- The node of a key, if there is one. -/
def nodeAt? (key : Bool × String) (nodes : List TreeNode) : Option TreeNode :=
  nodes.find? fun node => node.key = key

/-- A file with one more component. -/
def withComponent (name path : String) (leaf : Leaf) : Option TreeNode → TreeNode
  | some (.file name path components) => .file name path (components ++ [leaf])
  | _ => .file name path [leaf]

/-- A directory with its children changed. -/
def withChildren (name path : String) (change : List TreeNode → List TreeNode) :
    Option TreeNode → TreeNode
  | some (.directory name path children) => .directory name path (change children)
  | _ => .directory name path (change [])

theorem addToFile_eq (name path : String) (leaf : Leaf) (nodes : List TreeNode) :
    addToFile name path leaf nodes
      = changeAt (false, name) (withComponent name path leaf) nodes := by
  induction nodes with
  | nil => rfl
  | cons node rest ih =>
    cases node with
    | directory => simpa [addToFile, changeAt, TreeNode.key, TreeNode.isDirectory] using ih
    | file n there components =>
      simp only [addToFile, changeAt, TreeNode.key, TreeNode.isDirectory, TreeNode.name, beq_iff_eq,
        Prod.mk.injEq, true_and, ih]
      rfl

theorem changeDirectory_eq (name path : String) (change : List TreeNode → List TreeNode)
    (nodes : List TreeNode) : changeDirectory name path change nodes =
      changeAt (true, name) (withChildren name path change) nodes := by
  induction nodes with
  | nil => rfl
  | cons node rest ih =>
    cases node with
    | file => simpa [changeDirectory, changeAt, TreeNode.key, TreeNode.isDirectory] using ih
    | directory n there children =>
      simp only [changeDirectory, changeAt, TreeNode.key, TreeNode.isDirectory, TreeNode.name,
        beq_iff_eq, Prod.mk.injEq, true_and, ih]
      rfl

theorem key_of_nodeAt? (found : nodeAt? key nodes = some node) : node ∈ nodes ∧ node.key = key :=
  ⟨List.mem_of_find?_eq_some found, by simpa using List.find?_some found⟩

theorem nodeAt?_eq_none_iff : nodeAt? key nodes = none ↔ key ∉ nodes.map TreeNode.key := by
  simp [nodeAt?]

theorem nodeAt?_cons :
    nodeAt? key (node :: nodes) = if node.key = key then some node else nodeAt? key nodes := by
  by_cases same : node.key = key <;> simp [nodeAt?, same]

theorem mem_keys_changeAt {other : Bool × String}
    (keeps : (change (nodeAt? key nodes)).key = key) :
    other ∈ (changeAt key change nodes).map TreeNode.key ↔
      other ∈ nodes.map TreeNode.key ∨ other = key := by
  induction nodes with
  | nil => simpa [changeAt, nodeAt?] using keeps ▸ Iff.rfl
  | cons node rest ih =>
    rw [nodeAt?_cons] at keeps
    rw [changeAt]
    split at keeps
    · next same =>
      simp only [same, if_true, List.map_cons, List.mem_cons, keeps]
      tauto
    · next differs =>
      simp only [differs, if_false, List.map_cons, List.mem_cons, ih keeps]
      tauto

theorem nodup_changeAt (keeps : (change (nodeAt? key nodes)).key = key)
    (distinct : (nodes.map TreeNode.key).Nodup) :
    ((changeAt key change nodes).map TreeNode.key).Nodup := by
  induction nodes with
  | nil => simp [changeAt]
  | cons node rest ih =>
    rw [nodeAt?_cons] at keeps
    rw [List.map_cons, List.nodup_cons] at distinct
    rw [changeAt]
    split at keeps
    · next same =>
      rw [if_pos same, List.map_cons, keeps, ← same]
      exact List.nodup_cons.mpr distinct
    · next differs =>
      rw [if_neg differs, List.map_cons, List.nodup_cons, mem_keys_changeAt keeps, not_or]
      exact ⟨⟨distinct.1, differs⟩, ih keeps distinct.2⟩

/-- The other siblings are those that were there before. -/
theorem mem_changeAt_iff (distinct : (nodes.map TreeNode.key).Nodup) :
    node ∈ changeAt key change nodes ↔
      node = change (nodeAt? key nodes) ∨ node ∈ nodes ∧ node.key ≠ key := by
  induction nodes with
  | nil => simp [changeAt, nodeAt?]
  | cons first rest ih =>
    rw [List.map_cons, List.nodup_cons] at distinct
    rw [changeAt, nodeAt?_cons]
    split
    · next same =>
      subst same
      have apart : node ∈ rest → node.key ≠ first.key := fun isMember again =>
        distinct.1 (again ▸ List.mem_map_of_mem isMember)
      simp only [List.mem_cons]
      constructor
      · rintro (isNew | later)
        · exact .inl isNew
        · exact .inr ⟨.inr later, apart later⟩
      · rintro (isNew | ⟨rfl | later, differs⟩)
        · exact .inl isNew
        · exact absurd rfl differs
        · exact .inr later
    · next differs =>
      simp only [List.mem_cons, ih distinct.2]
      constructor
      · rintro (rfl | isNew | ⟨later, apart⟩)
        · exact .inr ⟨.inl rfl, differs⟩
        · exact .inl isNew
        · exact .inr ⟨.inr later, apart⟩
      · rintro (isNew | ⟨rfl | later, apart⟩)
        · exact .inr (.inl isNew)
        · exact .inl rfl
        · exact .inr (.inr ⟨later, apart⟩)

end Siblings

/-! ## What a forest shows -/

section Shows

variable {contents others : List String → List Leaf} {above names : List String}
  {nodes : List TreeNode} {name path : String} {leaf : Leaf}

/-- Contents ask for a file where components stand, and for a directory everywhere above these. A
name may be asked for as both. -/
def Wanted (contents : List String → List Leaf) : Bool → List String → Prop
  | false, names => contents names ≠ []
  | true, names => ∃ more, more ≠ [] ∧ contents (names ++ more) ≠ []

/-- The nodes below some names are those that contents ask for, and each has what the contents have
there. This is the invariant of a forest that grows. -/
inductive Shows (contents : List String → List Leaf) : List String → List TreeNode → Prop
  | intro {above : List String} {nodes : List TreeNode}
    (distinct : (nodes.map TreeNode.key).Nodup)
    (wanted : ∀ isDirectory name,
      (isDirectory, name) ∈ nodes.map TreeNode.key ↔ Wanted contents isDirectory (above ++ [name]))
    (path : ∀ node ∈ nodes, node.path = Text.join '/' (above ++ [node.name]))
    (components : ∀ name path components, .file name path components ∈ nodes →
      components = contents (above ++ [name]))
    (below : ∀ name path children, .directory name path children ∈ nodes →
      Shows contents (above ++ [name]) children) :
    Shows contents above nodes

theorem shows_nil (empty : ∀ more, more ≠ [] → contents (above ++ more) = []) :
    Shows contents above [] := by
  refine .intro List.nodup_nil (fun isDirectory name => ?_) nofun nofun nofun
  simp only [List.map_nil, List.not_mem_nil, false_iff]
  cases isDirectory with
  | false => exact fun wanted => wanted (empty [name] (by simp))
  | true =>
    rintro ⟨more, -, wanted⟩
    exact wanted (by simpa using empty (name :: more) (by simp))

/-- A forest looks only at what is below its names. -/
theorem Shows.congr (shows : Shows contents above nodes)
    (same : ∀ more, more ≠ [] → contents (above ++ more) = others (above ++ more)) :
    Shows others above nodes := by
  induction shows with
  | @intro above nodes distinct wanted path components below ih =>
    refine .intro distinct (fun isDirectory name => ?_) path (fun name path leaves isMember => ?_)
      fun name path children isMember => ih name path children isMember fun more _ => ?_
    · rw [wanted]
      cases isDirectory with
      | false => simp only [Wanted, same [name] (by simp)]
      | true =>
        simp only [Wanted, List.append_assoc, List.singleton_append, same (name :: _) (by simp)]
    · rw [← same [name] (by simp)]
      exact components name path leaves isMember
    · simpa using same (name :: more) (by simp)

/-- The file that gets a component has what the contents have there. -/
theorem Shows.withComponent_eq (shows : Shows contents above nodes) (name : String) (leaf : Leaf) :
    withComponent name (Text.join '/' (above ++ [name])) leaf (nodeAt? (false, name) nodes) =
      .file name (Text.join '/' (above ++ [name])) (contents (above ++ [name]) ++ [leaf]) := by
  obtain ⟨-, wanted, path, components, -⟩ := shows
  cases found : nodeAt? (false, name) nodes with
  | none =>
    have absent := (wanted false name).not.mp (nodeAt?_eq_none_iff.mp found)
    have empty : contents (above ++ [name]) = [] := not_not.mp absent
    simp [withComponent, empty]
  | some node =>
    obtain ⟨isMember, isKey⟩ := key_of_nodeAt? found
    cases node with
    | directory => cases isKey
    | file n there leaves =>
      obtain rfl : n = name := congrArg Prod.snd isKey
      obtain rfl : there = Text.join '/' (above ++ [n]) := path _ isMember
      rw [withComponent, components _ _ _ isMember]

/-- The directory that is changed shows what the contents have below it. -/
theorem Shows.exists_withChildren_eq (shows : Shows contents above nodes) (name : String)
    (change : List TreeNode → List TreeNode) :
    ∃ children, Shows contents (above ++ [name]) children
      ∧ withChildren name (Text.join '/' (above ++ [name])) change (nodeAt? (true, name) nodes) =
        .directory name (Text.join '/' (above ++ [name])) (change children) := by
  obtain ⟨-, wanted, path, -, below⟩ := shows
  cases found : nodeAt? (true, name) nodes with
  | none =>
    have absent := (wanted true name).not.mp (nodeAt?_eq_none_iff.mp found)
    refine ⟨[], shows_nil fun more some => ?_, rfl⟩
    by_contra stands
    exact absent ⟨more, some, by simpa using stands⟩
  | some node =>
    obtain ⟨isMember, isKey⟩ := key_of_nodeAt? found
    cases node with
    | file => cases isKey
    | directory n there children =>
      obtain rfl : n = name := congrArg Prod.snd isKey
      obtain rfl : there = Text.join '/' (above ++ [n]) := path _ isMember
      exact ⟨children, below _ _ _ isMember, rfl⟩

/-! ## Growth -/

/-- Contents with one more component at some names. -/
def addedAt (contents : List String → List Leaf) (names : List String)
    (leaf : Leaf) (place : List String) :
    List Leaf :=
  if place = names then contents place ++ [leaf] else contents place

theorem addedAt_self (contents : List String → List Leaf) (names : List String) (leaf : Leaf) :
    addedAt contents names leaf names = contents names ++ [leaf] :=
  if_pos rfl

theorem addedAt_of_ne {place : List String} (differs : place ≠ names) :
    addedAt contents names leaf place = contents place :=
  if_neg differs

theorem addedAt_ne_nil_iff {place : List String} :
    addedAt contents names leaf place ≠ [] ↔ contents place ≠ [] ∨ place = names := by
  unfold addedAt
  split <;> simp_all

/-- One more component asks for one more node, unless that is there already. -/
theorem wanted_addedAt {rest : List String} {isDirectory : Bool} {other : String} :
    Wanted (addedAt contents (above ++ name :: rest) leaf) isDirectory (above ++ [other]) ↔
      Wanted contents isDirectory (above ++ [other])
        ∨ (isDirectory, other) = (!rest.isEmpty, name) := by
  cases isDirectory with
  | false =>
    simp only [Wanted, addedAt_ne_nil_iff, List.append_cancel_left_eq, List.cons.injEq,
      Prod.mk.injEq, eq_comm (a := false), Bool.not_eq_false', List.isEmpty_iff]
    tauto
  | true =>
    simp only [Wanted, addedAt_ne_nil_iff, List.append_assoc, List.singleton_append,
      List.append_cancel_left_eq, List.cons.injEq, Prod.mk.injEq, eq_comm (a := true),
      Bool.not_eq_true', List.isEmpty_eq_false_iff]
    constructor
    · rintro ⟨more, some, stands | ⟨rfl, rfl⟩⟩
      · exact .inl ⟨more, some, stands⟩
      · exact .inr ⟨some, rfl⟩
    · rintro (⟨more, some, stands⟩ | ⟨some, rfl⟩)
      · exact ⟨more, some, .inl stands⟩
      · exact ⟨rest, some, .inr ⟨rfl, rfl⟩⟩

/-- It is enough that the changed node shows the component that is added. -/
theorem Shows.changeAt (shows : Shows contents above nodes) {rest : List String}
    {change : Option TreeNode → TreeNode} {new : TreeNode}
    (isNew : change (nodeAt? (!rest.isEmpty, name) nodes) = new)
    (isKey : new.key = (!rest.isEmpty, name)) (isPath : new.path = Text.join '/' (above ++ [name]))
    (newComponents : ∀ there leaves, new = .file name there leaves →
      leaves = addedAt contents (above ++ name :: rest) leaf (above ++ [name]))
    (newBelow : ∀ there children, new = .directory name there children →
      Shows (addedAt contents (above ++ name :: rest) leaf) (above ++ [name]) children) :
    Shows (addedAt contents (above ++ name :: rest) leaf) above
      (changeAt (!rest.isEmpty, name) change nodes) := by
  obtain ⟨distinct, wanted, path, components, below⟩ := shows
  have keeps : (change (nodeAt? (!rest.isEmpty, name) nodes)).key = (!rest.isEmpty, name) :=
    isNew ▸ isKey
  have isName : new.name = name := congrArg Prod.snd isKey
  refine .intro (nodup_changeAt keeps distinct) (fun isDirectory n => ?_) (fun node isMember => ?_)
    (fun n there leaves isMember => ?_) fun n there children isMember => ?_
  · rw [mem_keys_changeAt keeps, wanted, wanted_addedAt]
  · rcases (mem_changeAt_iff distinct).mp isMember with rfl | ⟨isOld, -⟩
    · rw [isNew, isPath, isName]
    · exact path node isOld
  · rcases (mem_changeAt_iff distinct).mp isMember with same | ⟨isOld, differs⟩
    · rw [isNew] at same
      obtain rfl : n = name := by rw [← isName, ← same]; rfl
      exact newComponents there leaves same.symm
    · rw [components n there leaves isOld, addedAt_of_ne]
      -- a file of another name, or beside the directory of its name
      intro same
      obtain ⟨rfl, rfl⟩ : n = name ∧ [] = rest := by simpa using same
      exact differs rfl
  · rcases (mem_changeAt_iff distinct).mp isMember with same | ⟨isOld, differs⟩
    · rw [isNew] at same
      obtain rfl : n = name := by rw [← isName, ← same]; rfl
      exact newBelow there children same.symm
    · refine (below n there children isOld).congr fun more some => (addedAt_of_ne ?_).symm
      intro same
      obtain ⟨rfl, rfl⟩ : n = name ∧ more = rest := by simpa using same
      have isDirectory : more.isEmpty = false := by simpa using some
      exact differs (by rw [isDirectory]; rfl)

/-- A forest with one more component shows what it showed, and that component as the last at its
names. By induction on the names: at each of them one node changes, and its siblings stay. -/
theorem shows_addAlong (shows : Shows contents above nodes) (nonempty : names ≠ []) (leaf : Leaf) :
    Shows (addedAt contents (above ++ names) leaf) above (addAlong leaf above names nodes) := by
  induction names generalizing above nodes with
  | nil => exact absurd rfl nonempty
  | cons name rest ih =>
    cases rest with
    | nil =>
      rw [addAlong, addToFile_eq]
      refine shows.changeAt (shows.withComponent_eq name leaf) rfl rfl (fun there leaves same => ?_)
        nofun
      cases same
      exact (addedAt_self ..).symm
    | cons next rest =>
      obtain ⟨children, isBelow, changed⟩ :=
        shows.exists_withChildren_eq name (addAlong leaf (above ++ [name]) (next :: rest))
      rw [addAlong, changeDirectory_eq]
      · refine shows.changeAt changed rfl rfl nofun fun there children same => ?_
        cases same
        simpa using ih isBelow (by simp)
      · simp

/-! ## Order -/

/-- Siblings in order, and so everything below them. -/
def arranged (nodes : List TreeNode) : List TreeNode :=
  (sortedAll nodes).mergeSort precedes

theorem sortedAll_eq_map (nodes : List TreeNode) : sortedAll nodes = nodes.map sorted := by
  induction nodes with
  | nil => rfl
  | cons node rest ih => rw [sortedAll, ih, List.map_cons]

theorem sorted_directory (name path : String) (children : List TreeNode) :
    sorted (.directory name path children) = .directory name path (arranged children) := by
  rw [sorted, arranged]

theorem sorted_file (name path : String) (leaves : List Leaf) :
    sorted (.file name path leaves) = .file name path leaves := by
  rw [sorted]

theorem key_sorted (node : TreeNode) : (sorted node).key = node.key := by
  cases node with
  | directory => rw [sorted_directory]; rfl
  | file => rw [sorted_file]

theorem path_sorted (node : TreeNode) : (sorted node).path = node.path := by
  cases node with
  | directory => rw [sorted_directory]; rfl
  | file => rw [sorted_file]

theorem arranged_perm (nodes : List TreeNode) : (arranged nodes).Perm (nodes.map sorted) := by
  rw [arranged, sortedAll_eq_map]
  exact List.mergeSort_perm _ precedes

theorem mem_arranged_iff {node : TreeNode} :
    node ∈ arranged nodes ↔ ∃ other ∈ nodes, sorted other = node := by
  rw [(arranged_perm nodes).mem_iff, List.mem_map]

theorem directory_mem_arranged {children : List TreeNode}
    (isMember : .directory name path children ∈ arranged nodes) :
    ∃ before, .directory name path before ∈ nodes ∧ children = arranged before := by
  obtain ⟨other, isOther, same⟩ := mem_arranged_iff.mp isMember
  cases other with
  | file => cases same.symm.trans (sorted_file ..)
  | directory n there before =>
    rw [sorted_directory] at same
    cases same
    exact ⟨before, isOther, rfl⟩

theorem file_mem_arranged {leaves : List Leaf}
    (isMember : .file name path leaves ∈ arranged nodes) :
    .file name path leaves ∈ nodes := by
  obtain ⟨other, isOther, same⟩ := mem_arranged_iff.mp isMember
  cases other with
  | directory => cases same.symm.trans (sorted_directory ..)
  | file =>
    rw [sorted_file] at same
    exact same ▸ isOther

/-- Order changes nothing of what a forest shows, so what is proved of the grown forest holds of the
tree that is reported. -/
theorem shows_arranged (shows : Shows contents above nodes) :
    Shows contents above (arranged nodes) := by
  induction shows with
  | @intro above nodes distinct wanted path components below ih =>
    have keys : ((arranged nodes).map TreeNode.key).Perm (nodes.map TreeNode.key) := by
      have sameKeys := (arranged_perm nodes).map TreeNode.key
      have same : TreeNode.key ∘ sorted = TreeNode.key := funext key_sorted
      rwa [List.map_map, same] at sameKeys
    refine .intro (keys.nodup_iff.mpr distinct)
      (fun isDirectory n => keys.mem_iff.trans (wanted isDirectory n)) (fun node isMember => ?_)
      (fun n there leaves isMember => ?_) fun n there children isMember => ?_
    · obtain ⟨other, isOther, rfl⟩ := mem_arranged_iff.mp isMember
      have sameName : (sorted other).name = other.name := congrArg Prod.snd (key_sorted other)
      rw [path_sorted, sameName]
      exact path other isOther
    · exact components n there leaves (file_mem_arranged isMember)
    · obtain ⟨before, isBefore, rfl⟩ := directory_mem_arranged isMember
      exact ih n there before isBefore

end Shows

/-! ## Trees of candidates -/

section Candidates

variable {candidates : List Candidate} {candidate : Candidate} {names : List String} {path : String}

/-- The component that a tree has for a candidate. -/
def Candidate.leaf (candidate : Candidate) : Leaf :=
  ⟨candidate.name, candidate.target⟩

/-- The names that lead to a candidate's file, if its path is not empty. -/
def Candidate.place? (candidate : Candidate) : Option (List String) :=
  match candidate.path with
  | some path => if path = "" then none else some (Text.split '/' path)
  | none => none

/-- The components of the candidates that belong at some names, in the order of the candidates. -/
def contentsOf (candidates : List Candidate) (names : List String) : List Leaf :=
  (candidates.filter fun candidate => candidate.place? = some names).map Candidate.leaf

theorem addCandidate_eq (nodes : List TreeNode) (candidate : Candidate) :
    addCandidate nodes candidate = match candidate.place? with
      | some names => addAlong candidate.leaf [] names nodes
      | none => nodes := by
  unfold addCandidate Candidate.place?
  cases candidate.path with
  | none => rfl
  | some path => by_cases empty : path = "" <;> simp [empty, Candidate.leaf]

theorem contentsOf_concat_of_none (nowhere : candidate.place? = none) :
    contentsOf (candidates ++ [candidate]) = contentsOf candidates := by
  funext names
  simp [contentsOf, nowhere]

theorem contentsOf_concat_of_some (there : candidate.place? = some names) :
    contentsOf (candidates ++ [candidate])
      = addedAt (contentsOf candidates) names candidate.leaf := by
  funext place
  by_cases same : place = names
  · simp [contentsOf, addedAt, there, same]
  · simp [contentsOf, addedAt, there, same, Ne.symm same]

theorem ne_nil_of_place? (there : candidate.place? = some names) : names ≠ [] := by
  unfold Candidate.place? at there
  split at there
  · next path _ =>
    split at there
    · cases there
    · cases there
      exact Text.split_ne_nil '/' path
  · cases there

/-- The forest that grows candidate by candidate shows each at its names. By induction on the
candidates, each of which is one step of `shows_addAlong`. -/
theorem shows_foldl_addCandidate (candidates : List Candidate) :
    Shows (contentsOf candidates) [] (candidates.foldl addCandidate []) := by
  induction candidates using List.reverseRecOn with
  | nil => exact shows_nil fun _ _ => rfl
  | append_singleton candidates candidate ih =>
    rw [List.foldl_append, List.foldl_cons, List.foldl_nil, addCandidate_eq]
    split
    · next names there =>
      rw [contentsOf_concat_of_some there]
      exact shows_addAlong ih (ne_nil_of_place? there) candidate.leaf
    · next nowhere =>
      rw [contentsOf_concat_of_none nowhere]
      exact ih

theorem shows_tree (candidates : List Candidate) :
    Shows (contentsOf candidates) [] (tree candidates) :=
  shows_arranged (shows_foldl_addCandidate candidates)

end Candidates

end RenderProbe.Component
