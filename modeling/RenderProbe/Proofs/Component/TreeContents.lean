import Mathlib.Data.Option.Basic
import RenderProbe.Proofs.Component.TreeGrowth

/-!
# What stands in a component tree

The nodes of a tree, each by itself with the names that lead to it.

* `mem_spotsBelow_iff`, `nodup_keys_spotsBelow`: the nodes of a forest that shows contents are those
  that the contents ask for, each once.
* `tree_holds_exactly`: the tree of candidates has each of them as a component of the one file of
  its path, the directories above these files, and nothing else.
-/

namespace RenderProbe.Component

/-! ## Nodes by themselves -/

/-- A node by itself: the names on the way to it, its own included, whether it is a directory, its
path, and the components right below it. -/
structure Spot where
  names : List String
  isDirectory : Bool
  path : String
  components : List Leaf

namespace Spot

/-- What tells a node of a forest from all others. -/
def key (spot : Spot) : Bool × List String :=
  (spot.isDirectory, spot.names)

end Spot

namespace TreeNode

/-- The components right below a node, which only a file has. -/
def components : TreeNode → List Leaf
  | directory .. => []
  | file _ _ components => components

/-- A node by itself, where `above` are the names on the way to it. -/
def spot (above : List String) (node : TreeNode) : Spot :=
  ⟨above ++ [node.name], node.isDirectory, node.path, node.components⟩

end TreeNode

mutual

/-- A node and all nodes below it, with the names on the way to each. -/
def spotsOf (above : List String) : TreeNode → List Spot
  | .directory name path children =>
    (TreeNode.directory name path children).spot above :: spotsBelow (above ++ [name]) children
  | .file name path components => [(TreeNode.file name path components).spot above]

/-- All nodes of a forest, with the names on the way to each. -/
def spotsBelow (above : List String) : List TreeNode → List Spot
  | [] => []
  | node :: rest => spotsOf above node ++ spotsBelow above rest

end

section Spots

variable {contents : List String → List Leaf} {above names : List String} {nodes : List TreeNode}
  {node other : TreeNode} {spot : Spot} {isDirectory : Bool}

theorem spotsBelow_eq_flatMap (above : List String) (nodes : List TreeNode) :
    spotsBelow above nodes = nodes.flatMap (spotsOf above) := by
  induction nodes with
  | nil => rfl
  | cons node rest ih => rw [spotsBelow, ih, List.flatMap_cons]

theorem mem_spotsOf_iff : spot ∈ spotsOf above node ↔ spot = node.spot above
    ∨ ∃ name path children, node = .directory name path children
      ∧ spot ∈ spotsBelow (above ++ [name]) children := by
  cases node with
  | file => simp [spotsOf]
  | directory name path children =>
    rw [spotsOf, List.mem_cons]
    simp

theorem mem_spotsBelow : spot ∈ spotsBelow above nodes ↔ (∃ node ∈ nodes, node.spot above = spot)
    ∨ ∃ name path children, .directory name path children ∈ nodes
      ∧ spot ∈ spotsBelow (above ++ [name]) children := by
  simp only [spotsBelow_eq_flatMap above nodes, List.mem_flatMap, mem_spotsOf_iff]
  constructor
  · rintro ⟨node, isMember, rfl | ⟨name, path, children, rfl, isBelow⟩⟩
    · exact .inl ⟨node, isMember, rfl⟩
    · exact .inr ⟨name, path, children, isMember, isBelow⟩
  · rintro (⟨node, isMember, rfl⟩ | ⟨name, path, children, isMember, isBelow⟩)
    · exact ⟨node, isMember, .inl rfl⟩
    · exact ⟨_, isMember, .inr ⟨name, path, children, rfl, isBelow⟩⟩

/-- The node that contents ask for at some names. -/
def spotOf (contents : List String → List Leaf) (isDirectory : Bool) (names : List String) : Spot :=
  ⟨names, isDirectory, Text.join '/' names, if isDirectory then [] else contents names⟩

/-- The roots of a forest that shows contents. -/
theorem Shows.exists_spot_iff (shows : Shows contents above nodes) :
    (∃ node ∈ nodes, node.spot above = spot) ↔
      ∃ isDirectory name, Wanted contents isDirectory (above ++ [name])
        ∧ spot = spotOf contents isDirectory (above ++ [name]) := by
  obtain ⟨-, wanted, path, components, -⟩ := shows
  have spot_eq (node : TreeNode) (isMember : node ∈ nodes) :
      node.spot above = spotOf contents node.isDirectory (above ++ [node.name]) := by
    rw [TreeNode.spot, path node isMember]
    cases node with
    | directory => rfl
    | file name there leaves =>
      rw [TreeNode.components, components name there leaves isMember]
      rfl
  constructor
  · rintro ⟨node, isMember, rfl⟩
    have isWanted := (wanted node.isDirectory node.name).mp (List.mem_map_of_mem isMember)
    exact ⟨node.isDirectory, node.name, isWanted, spot_eq node isMember⟩
  · rintro ⟨isDirectory, name, isWanted, rfl⟩
    obtain ⟨node, isMember, isKey⟩ := List.mem_map.mp ((wanted isDirectory name).mpr isWanted)
    cases isKey
    exact ⟨node, isMember, spot_eq node isMember⟩

/-- Where contents ask for something below some names, they ask for a directory there. -/
theorem directory_wanted {more : List String} (wanted : Wanted contents isDirectory (names ++ more))
    (some : more ≠ []) : Wanted contents true names := by
  cases isDirectory with
  | false => exact ⟨more, some, wanted⟩
  | true =>
    obtain ⟨further, -, stands⟩ := wanted
    exact ⟨more ++ further, by simp [some], by simpa using stands⟩

/-- A forest that shows contents has exactly the nodes that the contents ask for. All that is said
of files and directories below is read off from this. -/
theorem mem_spotsBelow_iff (shows : Shows contents above nodes) : spot ∈ spotsBelow above nodes ↔
    ∃ isDirectory more, more ≠ [] ∧ Wanted contents isDirectory (above ++ more)
      ∧ spot = spotOf contents isDirectory (above ++ more) := by
  have roots := @Shows.exists_spot_iff
  induction shows generalizing spot with
  | @intro above nodes distinct wanted path components below ih =>
    rw [mem_spotsBelow, roots (.intro distinct wanted path components below)]
    constructor
    · rintro (⟨isDirectory, name, isWanted, rfl⟩ | ⟨name, there, children, isMember, isBelow⟩)
      · exact ⟨isDirectory, [name], by simp, isWanted, rfl⟩
      · obtain ⟨isDirectory, more, -, isWanted, rfl⟩ := (ih name there children isMember).mp isBelow
        rw [List.append_assoc] at isWanted ⊢
        exact ⟨isDirectory, [name] ++ more, by simp, isWanted, rfl⟩
    · rintro ⟨isDirectory, more, some, isWanted, rfl⟩
      obtain ⟨name, rest, rfl⟩ := List.exists_cons_of_ne_nil some
      by_cases last : rest = []
      · subst last
        exact .inl ⟨isDirectory, name, isWanted, rfl⟩
      · rw [← List.singleton_append, ← List.append_assoc] at isWanted ⊢
        obtain ⟨node, isMember, isKey⟩ :=
          List.mem_map.mp ((wanted true name).mpr (directory_wanted isWanted last))
        cases node with
        | file => cases isKey
        | directory n there children =>
          cases isKey
          exact .inr ⟨n, there, children, isMember,
            (ih n there children isMember).mpr ⟨isDirectory, rest, last, isWanted, rfl⟩⟩

/-- The names of everything in a node start with those of the node. -/
theorem lead_of_mem_spotsOf (shows : Shows contents above nodes) (isMember : node ∈ nodes)
    (isSpot : spot ∈ spotsOf above node) : ∃ more, spot.names = above ++ node.name :: more
      ∧ (more = [] → spot.isDirectory = node.isDirectory)
      ∧ (more ≠ [] → node.isDirectory = true) := by
  rcases mem_spotsOf_iff.mp isSpot with rfl | ⟨name, there, children, rfl, isBelow⟩
  · exact ⟨[], rfl, fun _ => rfl, absurd rfl⟩
  · obtain ⟨-, -, -, -, below⟩ := shows
    obtain ⟨_, more, some, -, rfl⟩ :=
      (mem_spotsBelow_iff (below name there children isMember)).mp isBelow
    exact ⟨more, by simp [spotOf, TreeNode.name], fun none => absurd none some, fun _ => rfl⟩

/-- Nothing stands in two siblings. -/
theorem key_eq_of_mem_spotsOf (shows : Shows contents above nodes) {spot' : Spot}
    (isMember : node ∈ nodes) (isOther : other ∈ nodes) (isSpot : spot ∈ spotsOf above node)
    (isSpot' : spot' ∈ spotsOf above other) (same : spot.key = spot'.key) :
    node.key = other.key := by
  obtain ⟨more, isNames, here, further⟩ := lead_of_mem_spotsOf shows isMember isSpot
  obtain ⟨more', isNames', here', further'⟩ := lead_of_mem_spotsOf shows isOther isSpot'
  have sameNames : spot.names = spot'.names := congrArg Prod.snd same
  have sameKind : spot.isDirectory = spot'.isDirectory := congrArg Prod.fst same
  rw [isNames, isNames', List.append_cancel_left_eq, List.cons.injEq] at sameNames
  obtain ⟨sameName, rfl⟩ := sameNames
  refine Prod.ext ?_ sameName
  by_cases last : more = []
  · exact (here last).symm.trans (sameKind.trans (here' last))
  · exact (further last).trans (further' last).symm

/-- No two nodes of a forest that shows contents are of one kind with the same names. What is in two
siblings differs in the name at their level, so each node is looked at by itself. -/
theorem nodup_keys_spotsBelow (shows : Shows contents above nodes) :
    ((spotsBelow above nodes).map Spot.key).Nodup := by
  have apart := @key_eq_of_mem_spotsOf
  induction shows with
  | @intro above nodes distinct wanted path components below ih =>
    rw [spotsBelow_eq_flatMap, List.map_flatMap, List.nodup_flatMap]
    constructor
    · intro node isMember
      cases node with
      | file => simp [spotsOf]
      | directory name there children =>
        rw [spotsOf, List.map_cons, List.nodup_cons]
        refine ⟨fun again => ?_, ih name there children isMember⟩
        -- what is below a directory has more names
        obtain ⟨spot, isBelow, same⟩ := List.mem_map.mp again
        obtain ⟨_, more, some, -, rfl⟩ :=
          (mem_spotsBelow_iff (below name there children isMember)).mp isBelow
        have sameNames : above ++ [name] ++ more = above ++ [name] := congrArg Prod.snd same
        exact some (by simpa using sameNames)
    · refine (List.pairwise_map.mp distinct).imp_of_mem
        fun isMember isOther differs key isKey isKey' => ?_
      obtain ⟨spot, isSpot, rfl⟩ := List.mem_map.mp isKey
      obtain ⟨spot', isSpot', same⟩ := List.mem_map.mp isKey'
      exact differs
        (apart (.intro distinct wanted path components below) isMember isOther
          isSpot isSpot' same.symm)

end Spots

/-! ## Trees of candidates -/

section Candidates

variable {candidates : List Candidate} {candidate : Candidate} {names : List String} {path : String}
  {spot : Spot} {isDirectory : Bool}

theorem place?_eq_some_iff : candidate.place? = some names ↔
    ∃ path, candidate.path = some path ∧ path ≠ "" ∧ Text.split '/' path = names := by
  unfold Candidate.place?
  cases candidate.path with
  | none => simp
  | some path => by_cases empty : path = "" <;> simp [empty]

theorem contentsOf_ne_nil_iff : contentsOf candidates names ≠ [] ↔
    ∃ candidate ∈ candidates, ∃ path, candidate.path = some path ∧ path ≠ ""
      ∧ Text.split '/' path = names := by
  simp [contentsOf, List.filter_eq_nil_iff, ← place?_eq_some_iff]

/-- The components of the candidates with a path, in the order of the candidates. -/
def leavesOf (candidates : List Candidate) (path : String) : List Leaf :=
  (candidates.filter fun candidate => candidate.path = some path).map Candidate.leaf

/-- What stands at the fields of a path are the candidates with this path. -/
theorem contentsOf_split (some : path ≠ "") :
    contentsOf candidates (Text.split '/' path) = leavesOf candidates path := by
  have same (candidate : Candidate) :
      candidate.place? = .some (Text.split '/' path) ↔ candidate.path = .some path := by
    rw [place?_eq_some_iff]
    constructor
    · rintro ⟨other, isPath, -, isSplit⟩
      rw [isPath, ← Text.join_split '/' other, isSplit, Text.join_split]
    · exact fun isPath => ⟨path, isPath, some, rfl⟩
  simp only [contentsOf, leavesOf, same]

/-- The nodes of a tree are the files at the fields of the candidates' paths and the directories
above them. -/
theorem mem_spots_tree_iff : spot ∈ spotsBelow [] (tree candidates) ↔
    ∃ isDirectory names, names ≠ [] ∧ Wanted (contentsOf candidates) isDirectory names
      ∧ spot = spotOf (contentsOf candidates) isDirectory names :=
  mem_spotsBelow_iff (shows_tree candidates)

/-- Names at which something is asked for are those that a path starts with. -/
theorem exists_split_of_wanted (wanted : Wanted (contentsOf candidates) isDirectory names) :
    ∃ path more, Text.split '/' path = names ++ more := by
  cases isDirectory with
  | false =>
    obtain ⟨_, -, path, -, -, isSplit⟩ := contentsOf_ne_nil_iff.mp wanted
    exact ⟨path, [], by simpa using isSplit⟩
  | true =>
    obtain ⟨more, -, stands⟩ := wanted
    obtain ⟨_, -, path, -, -, isSplit⟩ := contentsOf_ne_nil_iff.mp stands
    exact ⟨path, more, isSplit⟩

theorem slash_notMem_of_mem_spots (isSpot : spot ∈ spotsBelow [] (tree candidates)) :
    spot.names ≠ [] ∧ ∀ name ∈ spot.names, '/' ∉ name.toList := by
  obtain ⟨isDirectory, names, some, wanted, rfl⟩ := mem_spots_tree_iff.mp isSpot
  obtain ⟨path, more, isSplit⟩ := exists_split_of_wanted wanted
  refine ⟨some, fun name isMember => ?_⟩
  have isField : name ∈ Text.split '/' path := isSplit ▸ List.mem_append_left more isMember
  exact Text.notMem_of_mem_split isField

/-- The names on the way to a node, joined, are its path. -/
theorem join_names_of_mem_spots (isSpot : spot ∈ spotsBelow [] (tree candidates)) :
    Text.join '/' spot.names = spot.path := by
  obtain ⟨_, _, -, -, rfl⟩ := mem_spots_tree_iff.mp isSpot
  rfl

theorem nodup_paths_spots (candidates : List Candidate) :
    ((spotsBelow [] (tree candidates)).map fun spot => (spot.isDirectory, spot.path)).Nodup := by
  have byNames : ((spotsBelow [] (tree candidates)).map fun spot => (spot.isDirectory, spot.path)) =
      ((spotsBelow [] (tree candidates)).map Spot.key).map fun key =>
        (key.1, Text.join '/' key.2) := by
    rw [List.map_map]
    refine List.map_congr_left fun spot isSpot => ?_
    rw [← join_names_of_mem_spots isSpot]
    rfl
  rw [byNames]
  refine (nodup_keys_spotsBelow (shows_tree candidates)).map_on
    fun key isKey other isOther same => ?_
  obtain ⟨spot, isSpot, rfl⟩ := List.mem_map.mp isKey
  obtain ⟨spot', isSpot', rfl⟩ := List.mem_map.mp isOther
  obtain ⟨nonempty, plain⟩ := slash_notMem_of_mem_spots isSpot
  obtain ⟨nonempty', plain'⟩ := slash_notMem_of_mem_spots isSpot'
  obtain ⟨sameKind, samePath⟩ := Prod.mk.inj same
  exact Prod.ext sameKind (Text.join_inj nonempty nonempty' plain plain' samePath)

/-- The paths of files are those of the candidates. -/
theorem exists_file_iff : (∃ spot ∈ spotsBelow [] (tree candidates), spot.isDirectory = false
      ∧ spot.path = path) ↔ path ≠ "" ∧ ∃ candidate ∈ candidates, candidate.path = some path := by
  constructor
  · rintro ⟨spot, isSpot, isFile, rfl⟩
    obtain ⟨isDirectory, names, -, wanted, rfl⟩ := mem_spots_tree_iff.mp isSpot
    obtain rfl : isDirectory = false := isFile
    obtain ⟨candidate, isMember, path, isPath, some, rfl⟩ := contentsOf_ne_nil_iff.mp wanted
    rw [spotOf, Text.join_split]
    exact ⟨some, candidate, isMember, isPath⟩
  · rintro ⟨some, candidate, isMember, isPath⟩
    have wanted : Wanted (contentsOf candidates) false (Text.split '/' path) :=
      contentsOf_ne_nil_iff.mpr ⟨candidate, isMember, path, isPath, some, rfl⟩
    exact ⟨_, mem_spots_tree_iff.mpr ⟨false, _, Text.split_ne_nil '/' path, wanted, rfl⟩, rfl,
      Text.join_split '/' path⟩

/-- The paths of directories are those above the candidates' paths. -/
theorem exists_directory_iff : (∃ spot ∈ spotsBelow [] (tree candidates), spot.isDirectory = true
      ∧ spot.path = path) ↔ ∃ candidate ∈ candidates, ∃ whole, candidate.path = some whole
        ∧ Text.IsAbove '/' path whole := by
  constructor
  · rintro ⟨spot, isSpot, isDirectory, rfl⟩
    obtain ⟨kind, names, nonempty, wanted, rfl⟩ := mem_spots_tree_iff.mp isSpot
    obtain rfl : kind = true := isDirectory
    obtain ⟨more, some, stands⟩ := wanted
    obtain ⟨candidate, isMember, whole, isPath, -, isSplit⟩ := contentsOf_ne_nil_iff.mp stands
    have isAbove := Text.isAbove_iff.mpr ⟨names, more, nonempty, some, isSplit, rfl⟩
    exact ⟨candidate, isMember, whole, isPath, isAbove⟩
  · rintro ⟨candidate, isMember, whole, isPath, isAbove⟩
    obtain ⟨names, more, nonempty, some, isSplit, rfl⟩ := Text.isAbove_iff.mp isAbove
    have notEmpty : whole ≠ "" := by
      rintro rfl
      simpa using isAbove.length_le
    have wanted : Wanted (contentsOf candidates) true names :=
      ⟨more, some,
        contentsOf_ne_nil_iff.mpr ⟨candidate, isMember, whole, isPath, notEmpty, isSplit⟩⟩
    exact ⟨_, mem_spots_tree_iff.mpr ⟨true, names, nonempty, wanted, rfl⟩, rfl, rfl⟩

/-- The components of a file are the candidates with its path, in their order. -/
theorem components_of_mem_spots (isSpot : spot ∈ spotsBelow [] (tree candidates)) :
    spot.components = if spot.isDirectory then [] else leavesOf candidates spot.path := by
  obtain ⟨isDirectory, names, -, wanted, rfl⟩ := mem_spots_tree_iff.mp isSpot
  cases isDirectory with
  | true => rfl
  | false =>
    obtain ⟨_, -, path, -, some, rfl⟩ := contentsOf_ne_nil_iff.mp wanted
    simp only [spotOf, Text.join_split, Bool.false_eq_true, if_false]
    exact contentsOf_split some

/-! ## All components -/

/-- The paths of the files among some nodes. -/
def filePaths (spots : List Spot) : List String :=
  (spots.filter fun spot => !spot.isDirectory).map Spot.path

theorem mem_filePaths_iff : path ∈ filePaths (spotsBelow [] (tree candidates)) ↔
    path ≠ "" ∧ ∃ candidate ∈ candidates, candidate.path = some path := by
  rw [← exists_file_iff]
  simp [filePaths, and_assoc]

theorem nodup_filePaths (candidates : List Candidate) :
    (filePaths (spotsBelow [] (tree candidates))).Nodup := by
  refine (List.nodup_map_iff_inj_on ?_).mpr fun spot isSpot other isOther same => ?_
  · exact (nodup_paths_spots candidates).of_map.filter _
  · have isFile := List.mem_filter.mp isSpot
    have isFile' := List.mem_filter.mp isOther
    refine List.inj_on_of_nodup_map (nodup_paths_spots candidates) isFile.1 isFile'.1
      (Prod.ext ?_ same)
    simp_all

/-- Components of nodes come from their files. -/
theorem flatMap_components {spots : List Spot} {leaves : String → List Leaf}
    (there : ∀ spot ∈ spots, spot.components = if spot.isDirectory then [] else leaves spot.path) :
    spots.flatMap Spot.components = (filePaths spots).flatMap leaves := by
  induction spots with
  | nil => rfl
  | cons spot rest ih =>
    rw [List.forall_mem_cons] at there
    rw [List.flatMap_cons, there.1, ih there.2]
    cases isDirectory : spot.isDirectory <;> simp [filePaths, isDirectory]

/-- A row put together again from the parts that have one key each. -/
theorem flatMap_filter_perm {α κ : Type*} [DecidableEq κ] (keyOf : α → κ) (row : List α)
    {keys : List κ} (distinct : keys.Nodup) :
    (keys.flatMap fun key => row.filter fun x => keyOf x = key).Perm
      (row.filter fun x => keyOf x ∈ keys) := by
  induction keys with
  | nil => simp
  | cons key rest ih =>
    rw [List.nodup_cons] at distinct
    rw [List.flatMap_cons]
    have parts :=
      List.filter_append_perm (fun x => keyOf x = key) (row.filter fun x => keyOf x ∈ key :: rest)
    rw [List.filter_filter, List.filter_filter] at parts
    refine (List.Perm.append (.of_eq ?_) ((ih distinct.2).trans (.of_eq ?_))).trans parts
    · refine List.filter_congr fun x _ => ?_
      by_cases here : keyOf x = key <;> simp [here]
    · refine List.filter_congr fun x _ => ?_
      by_cases here : keyOf x = key <;> simp [here, distinct.1]

/-- The components of all files are those of the candidates with a path. As a multiset: the order
inside a file is kept, the one across files is that of the tree. -/
theorem components_spots_perm (candidates : List Candidate) :
    ((spotsBelow [] (tree candidates)).flatMap Spot.components).Perm
      ((candidates.filter fun candidate => candidate.path ≠ none ∧ candidate.path ≠ some "").map
        Candidate.leaf) := by
  have gathered : (spotsBelow [] (tree candidates)).flatMap Spot.components =
      (((filePaths (spotsBelow [] (tree candidates))).map some).flatMap fun path =>
        candidates.filter fun candidate => candidate.path = path).map Candidate.leaf := by
    rw [flatMap_components fun spot isSpot => components_of_mem_spots isSpot, List.flatMap_map,
      List.map_flatMap]
    rfl
  have listed (candidate : Candidate) (isMember : candidate ∈ candidates) :
      candidate.path ∈ (filePaths (spotsBelow [] (tree candidates))).map some ↔
        candidate.path ≠ none ∧ candidate.path ≠ some "" := by
    cases isPath : candidate.path with
    | none => simp
    | some path =>
      simp only [List.mem_map, Option.some.injEq, exists_eq_right, mem_filePaths_iff]
      simpa using fun _ => ⟨candidate, isMember, isPath⟩
  have distinct := (nodup_filePaths candidates).map (Option.some_injective String)
  rw [gathered, List.filter_congr fun candidate isMember =>
    decide_eq_decide.mpr (listed candidate isMember).symm]
  exact (flatMap_filter_perm Candidate.path candidates distinct).map Candidate.leaf

/-! ## The whole tree -/

/-- Nodes hold candidates: none is lost, none is there twice, and nothing else is there. -/
structure HoldsExactly (candidates : List Candidate) (spots : List Spot) : Prop where
  /-- A path is that of at most one file and of at most one directory. -/
  once : (spots.map fun spot => (spot.isDirectory, spot.path)).Nodup
  /-- There is a file for each path of a candidate, and no other file. -/
  file : ∀ path, (∃ spot ∈ spots, spot.isDirectory = false ∧ spot.path = path) ↔
    path ≠ "" ∧ ∃ candidate ∈ candidates, candidate.path = some path
  /-- There is a directory for each path above that of a candidate, and no other directory. -/
  directory : ∀ path, (∃ spot ∈ spots, spot.isDirectory = true ∧ spot.path = path) ↔
    ∃ candidate ∈ candidates, ∃ whole, candidate.path = some whole ∧ Text.IsAbove '/' path whole
  /-- The names on the way to a node, joined, are its path. -/
  chain : ∀ spot ∈ spots, Text.join '/' spot.names = spot.path
  /-- A file has the candidates with its path, in their order. -/
  components : ∀ spot ∈ spots, spot.isDirectory = false →
    spot.components = leavesOf candidates spot.path
  /-- All components together are those of the candidates with a path that is not empty. -/
  leaves : (spots.flatMap Spot.components).Perm
    ((candidates.filter fun candidate => candidate.path ≠ none
      ∧ candidate.path ≠ some "").map Candidate.leaf)

/-- The tree of candidates holds them, each below the one file of its path, with the directories
above these files, and nothing else. -/
theorem tree_holds_exactly (candidates : List Candidate) :
    HoldsExactly candidates (spotsBelow [] (tree candidates)) where
  once := nodup_paths_spots candidates
  file _ := exists_file_iff
  directory _ := exists_directory_iff
  chain _ := join_names_of_mem_spots
  components spot isSpot isFile := by rw [components_of_mem_spots isSpot, if_neg (by simp [isFile])]
  leaves := components_spots_perm candidates

end Candidates

end RenderProbe.Component
