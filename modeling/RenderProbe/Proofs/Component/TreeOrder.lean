import RenderProbe.Proofs.Component.TreeContents

/-!
# The order of a component tree

A tree is in order in each of its rows of siblings. Where no two siblings of one kind have names
that only differ in case, the order leaves no choice, so the tree depends on the candidates of each
path alone.

* `inOrder_of_row`: every row of a tree has its directories first, and each kind by lowercase name.
* `eq_of_shows`: forests in order that show the same contents are the same.
* `tree_in_order`: both for the trees of candidates.
-/

namespace RenderProbe.Component

section Order

variable {first second third : TreeNode} {forest row nodes : List TreeNode} {name path : String}
  {children : List TreeNode}

/-! ## Rows -/

/-- A row of siblings in a forest: its roots, or what is in a directory of such a row. -/
inductive Row (forest : List TreeNode) : List TreeNode → Prop
  | roots : Row forest forest
  | inside {row : List TreeNode} {name path : String} {children : List TreeNode} :
    Row forest row → .directory name path children ∈ row → Row forest children

/-- The rows in a directory are rows of the forest around it. -/
theorem Row.within (isRow : Row children row) (isMember : .directory name path children ∈ nodes) :
    Row nodes row := by
  induction isRow with
  | roots => exact .inside .roots isMember
  | inside _ isBelow ih => exact .inside ih isBelow

theorem row_cases (isRow : Row forest row) : row = forest
    ∨ ∃ name path children, .directory name path children ∈ forest ∧ Row children row := by
  induction isRow with
  | roots => exact .inl rfl
  | @inside row name path children _ isMember ih =>
    rcases ih with rfl | ⟨n, there, around, isAround, isRow⟩
    · exact .inr ⟨name, path, children, isMember, .roots⟩
    · exact .inr ⟨n, there, around, isAround, .inside isRow isMember⟩

/-- Directories come before files, and nodes of one kind by their lowercase names. -/
def InOrder (row : List TreeNode) : Prop :=
  ∃ directories files, row = directories ++ files
    ∧ (∀ node ∈ directories, node.isDirectory = true) ∧ (∀ node ∈ files, node.isDirectory = false)
    ∧ directories.Pairwise
      (fun first second => Text.lowercase first.name ≤ Text.lowercase second.name)
    ∧ files.Pairwise (fun first second => Text.lowercase first.name ≤ Text.lowercase second.name)

/-- Siblings of one kind with the same lowercase name have the same name. Without this the order of
the candidates decides which of the two comes first. -/
def NamesApart (row : List TreeNode) : Prop :=
  ∀ first ∈ row, ∀ second ∈ row, first.isDirectory = second.isDirectory →
    Text.lowercase first.name = Text.lowercase second.name → first.name = second.name

theorem namesApart_of_nodup (distinct : (row.map fun node => Text.lowercase node.name).Nodup) :
    NamesApart row := fun _ isMember _ isMember' _ same =>
  congrArg TreeNode.name (List.inj_on_of_nodup_map distinct isMember isMember' same)

theorem precedes_iff : precedes first second = true ↔
    (first.isDirectory = second.isDirectory
      ∧ Text.lowercase first.name ≤ Text.lowercase second.name)
      ∨ (first.isDirectory = true ∧ second.isDirectory = false) := by
  have notAfter : (!decide (Text.lowercase second.name < Text.lowercase first.name)) = true ↔
      Text.lowercase first.name ≤ Text.lowercase second.name := by
    rw [Bool.not_eq_true', decide_eq_false_iff_not, String.not_lt]
  rw [precedes, ← notAfter]
  generalize (!decide (Text.lowercase second.name < Text.lowercase first.name)) = byName
  cases first.isDirectory <;> cases second.isDirectory <;> simp

theorem precedes_transitive (before : precedes first second = true)
    (after : precedes second third = true) :
    precedes first third = true := by
  rw [precedes_iff] at before after ⊢
  rcases before with ⟨same, le⟩ | ⟨isDirectory, isFile⟩ <;>
    rcases after with ⟨same', le'⟩ | ⟨isDirectory', isFile'⟩
  · exact .inl ⟨same.trans same', String.le_trans le le'⟩
  · exact .inr ⟨same.trans isDirectory', isFile'⟩
  · exact .inr ⟨isDirectory, same'.symm.trans isFile⟩
  · exact .inr ⟨isDirectory, isFile'⟩

theorem precedes_or_precedes (first second : TreeNode) :
    (precedes first second || precedes second first) = true := by
  rw [Bool.or_eq_true, precedes_iff, precedes_iff]
  rcases String.le_total (Text.lowercase first.name) (Text.lowercase second.name) with le | ge
  · cases first.isDirectory <;> cases second.isDirectory <;> simp [le]
  · cases first.isDirectory <;> cases second.isDirectory <;> simp [ge]

theorem pairwise_arranged (nodes : List TreeNode) :
    (arranged nodes).Pairwise fun first second => precedes first second = true := by
  refine List.pairwise_mergeSort (fun first second third => ?_) precedes_or_precedes
    (sortedAll nodes)
  exact precedes_transitive

/-- Every row of a forest in order is in order. -/
theorem exists_of_row (isRow : Row (arranged nodes) row) : ∃ before, row = arranged before := by
  generalize isForest : arranged nodes = forest at isRow
  induction isRow with
  | roots => exact ⟨nodes, isForest.symm⟩
  | inside _ isMember ih =>
    obtain ⟨before, rfl⟩ := ih
    obtain ⟨inner, -, rfl⟩ := directory_mem_arranged isMember
    exact ⟨inner, rfl⟩

/-- Behind a file there are only files. -/
theorem inOrder_of_pairwise
    (ordered : row.Pairwise fun first second => precedes first second = true) :
    InOrder row := by
  induction row with
  | nil => exact ⟨[], [], rfl, nofun, nofun, .nil, .nil⟩
  | cons node rest ih =>
    rw [List.pairwise_cons] at ordered
    obtain ⟨directories, files, rfl, areDirectories, areFiles, pairwise, pairwise'⟩ := ih ordered.2
    have later (other : TreeNode) (isMember : other ∈ directories ++ files)
        (same : node.isDirectory = other.isDirectory) :
        Text.lowercase node.name ≤ Text.lowercase other.name := by
      rcases precedes_iff.mp (ordered.1 other isMember) with ⟨-, le⟩ | ⟨isDirectory, isFile⟩
      · exact le
      · rw [isDirectory, isFile] at same
        cases same
    cases kind : node.isDirectory with
    | true =>
      refine ⟨node :: directories, files, rfl, List.forall_mem_cons.mpr ⟨kind, areDirectories⟩,
        areFiles, List.pairwise_cons.mpr ⟨fun other isMember => ?_, pairwise⟩, pairwise'⟩
      exact later other (List.mem_append_left _ isMember)
        (kind.trans (areDirectories other isMember).symm)
    | false =>
      have none : directories = [] := List.eq_nil_iff_forall_not_mem.mpr fun other isMember => by
        rcases precedes_iff.mp (ordered.1 other (List.mem_append_left _ isMember)) with
          ⟨same, -⟩ | ⟨is, -⟩
        · rw [kind, areDirectories other isMember] at same
          cases same
        · rw [kind] at is
          cases is
      subst none
      refine ⟨[], node :: files, rfl, nofun, List.forall_mem_cons.mpr ⟨kind, areFiles⟩, .nil,
        List.pairwise_cons.mpr ⟨fun other isMember => ?_, pairwise'⟩⟩
      exact later other isMember (kind.trans (areFiles other isMember).symm)

/-- Siblings that stand before each other have the same key, where names are apart. -/
theorem key_eq_of_precedes (apart : NamesApart row) (isMember : first ∈ row)
    (isMember' : second ∈ row) (before : precedes first second = true)
    (after : precedes second first = true) :
    first.key = second.key := by
  rcases precedes_iff.mp before with ⟨sameKind, le⟩ | ⟨isDirectory, isFile⟩ <;>
    rcases precedes_iff.mp after with ⟨sameKind', ge⟩ | ⟨isDirectory', isFile'⟩
  · exact Prod.ext sameKind
      (apart first isMember second isMember' sameKind (String.le_antisymm le ge))
  · exact absurd (isDirectory'.symm.trans (sameKind.symm.trans isFile')) (by decide)
  · exact absurd (isDirectory.symm.trans (sameKind'.symm.trans isFile)) (by decide)
  · exact absurd (isDirectory.symm.trans isFile') (by decide)

end Order

/-! ## One tree for the same contents -/

section Uniqueness

variable {contents : List String → List Leaf} {above : List String} {first second : List TreeNode}

/-- Rows in order with the same nodes are the same, if the names of siblings are apart. -/
theorem eq_of_mem_iff (distinct : (first.map TreeNode.key).Nodup)
    (distinct' : (second.map TreeNode.key).Nodup) (same : ∀ node, node ∈ first ↔ node ∈ second)
    (ordered : first.Pairwise fun a b => precedes a b = true)
    (ordered' : second.Pairwise fun a b => precedes a b = true) (apart : NamesApart first) :
    first = second := by
  have perm : first.Perm second :=
    (List.perm_ext_iff_of_nodup distinct.of_map distinct'.of_map).mpr same
  refine perm.eq_of_pairwise (fun a b isMember isMember' before after => ?_) ordered ordered'
  have isMember' := (same b).mpr isMember'
  exact List.inj_on_of_nodup_map distinct isMember isMember'
    (key_eq_of_precedes apart isMember isMember' before after)

/-- Forests in order that show the same contents are the same, if the names of siblings are apart.
By induction on what is shown: a row is fixed by its nodes and its order. -/
theorem eq_of_shows (shows : Shows contents above first) (shows' : Shows contents above second)
    (ordered : ∀ row, Row first row → row.Pairwise fun a b => precedes a b = true)
    (ordered' : ∀ row, Row second row → row.Pairwise fun a b => precedes a b = true)
    (apart : ∀ row, Row first row → NamesApart row) : first = second := by
  induction shows generalizing second with
  | @intro above first distinct wanted path components below ih =>
    obtain ⟨distinct', wanted', path', components', below'⟩ := shows'
    have forward (node : TreeNode) (isMember : node ∈ first) : node ∈ second := by
      have isWanted := (wanted node.isDirectory node.name).mp (List.mem_map_of_mem isMember)
      obtain ⟨other, isOther, isKey⟩ := List.mem_map.mp ((wanted' _ _).mpr isWanted)
      have samePath := path node isMember
      have samePath' := path' other isOther
      cases node with
      | file name there leaves =>
        cases other with
        | directory => cases isKey
        | file name' there' leaves' =>
          obtain rfl : name' = name := congrArg Prod.snd isKey
          obtain rfl : there = there' := samePath.trans samePath'.symm
          rw [components _ _ _ isMember, ← components' _ _ _ isOther]
          exact isOther
      | directory name there children =>
        cases other with
        | file => cases isKey
        | directory name' there' children' =>
          obtain rfl : name' = name := congrArg Prod.snd isKey
          obtain rfl : there = there' := samePath.trans samePath'.symm
          rw [ih _ _ _ isMember (below' _ _ _ isOther)
            (fun row isRow => ordered row (isRow.within isMember))
            (fun row isRow => ordered' row (isRow.within isOther))
            (fun row isRow => apart row (isRow.within isMember))]
          exact isOther
    have backward (node : TreeNode) (isMember : node ∈ second) : node ∈ first := by
      have isWanted := (wanted' node.isDirectory node.name).mp (List.mem_map_of_mem isMember)
      obtain ⟨other, isOther, isKey⟩ := List.mem_map.mp ((wanted _ _).mpr isWanted)
      rw [← List.inj_on_of_nodup_map distinct' (forward other isOther) isMember isKey]
      exact isOther
    exact eq_of_mem_iff distinct distinct' (fun node => ⟨forward node, backward node⟩)
      (ordered first .roots) (ordered' second .roots) (apart first .roots)

end Uniqueness

/-! ## Trees of candidates -/

section Candidates

variable {candidates others : List Candidate}

/-- The same candidates in another order, but those of each path in the same one. -/
structure Reordered (candidates others : List Candidate) : Prop where
  perm : candidates.Perm others
  ofPath : ∀ path, (candidates.filter fun candidate => candidate.path = path) =
    others.filter fun candidate => candidate.path = path

theorem Reordered.contentsOf_eq (reordered : Reordered candidates others) :
    contentsOf candidates = contentsOf others := by
  funext names
  by_cases isSplit : ∃ path, path ≠ "" ∧ Text.split '/' path = names
  · obtain ⟨path, some, rfl⟩ := isSplit
    rw [contentsOf_split some, contentsOf_split some, leavesOf, reordered.ofPath, leavesOf]
  · have empty (candidates : List Candidate) : contentsOf candidates names = [] := by
      by_contra stands
      obtain ⟨_, -, path, -, some, split⟩ := contentsOf_ne_nil_iff.mp stands
      exact isSplit ⟨path, some, split⟩
    rw [empty, empty]

theorem pairwise_of_row_tree {row : List TreeNode} (isRow : Row (tree candidates) row) :
    row.Pairwise fun a b => precedes a b = true := by
  obtain ⟨before, rfl⟩ := exists_of_row isRow
  exact pairwise_arranged before

/-- A tree is in order row by row, and where no siblings of one kind have different names with the
same lowercase form, it does not change when candidates of different paths come in another order. -/
theorem tree_in_order (candidates : List Candidate) :
    (∀ row, Row (tree candidates) row → InOrder row)
      ∧ ∀ others, Reordered candidates others →
        (∀ row, Row (tree candidates) row → NamesApart row) →
        tree candidates = tree others := by
  refine ⟨fun row isRow => inOrder_of_pairwise (pairwise_of_row_tree isRow),
    fun others reordered apart => ?_⟩
  have shows : Shows (contentsOf candidates) [] (tree others) :=
    reordered.contentsOf_eq ▸ shows_tree others
  exact eq_of_shows (shows_tree candidates) shows (fun _ => pairwise_of_row_tree)
    (fun _ => pairwise_of_row_tree) apart

/-- Components of three files, two of these in directories. -/
def listedComponents : List Candidate :=
  [⟨"Row", .function, .named, some "src/list/Row.tsx"⟩,
   ⟨"App", .function, .default, some "App.tsx"⟩,
    ⟨"Header", .function, .named, some "src/Header.tsx"⟩,
    ⟨"Footer", .function, .named, some "src/Header.tsx"⟩]

/-- The same components, only the two of one file still one after the other. -/
def reorderedComponents : List Candidate :=
  [⟨"Header", .function, .named, some "src/Header.tsx"⟩,
   ⟨"Row", .function, .named, some "src/list/Row.tsx"⟩,
    ⟨"Footer", .function, .named, some "src/Header.tsx"⟩,
      ⟨"App", .function, .default, some "App.tsx"⟩]

/-- The tree of the components. -/
def listedTree : List TreeNode :=
  [.directory "src" "src"
      [.directory "list" "src/list"
        [.file "Row.tsx" "src/list/Row.tsx" [⟨"Row", "src/list/Row.tsx::Row"⟩]],
        .file "Header.tsx" "src/Header.tsx"
          [⟨"Header", "src/Header.tsx::Header"⟩, ⟨"Footer", "src/Header.tsx::Footer"⟩]],
    .file "App.tsx" "App.tsx" [⟨"App", "App.tsx::App"⟩]]

theorem tree_listedComponents : tree listedComponents = listedTree := by
  have added : listedComponents.foldl addCandidate [] = listedTree := rfl
  rw [tree, added, listedTree]
  simp only [sortedAll, sorted, List.mergeSort_singleton]
  -- Added in this order, the components leave every row of siblings in order already.
  rw [List.mergeSort_of_pairwise, List.mergeSort_of_pairwise]
  all_goals decide +kernel

theorem namesApart_listedComponents {row : List TreeNode}
    (isRow : Row (tree listedComponents) row) :
    NamesApart row := by
  rw [tree_listedComponents, listedTree] at isRow
  rcases row_cases isRow with rfl | ⟨_, _, _, isMember, isRow⟩
  · exact namesApart_of_nodup (by decide +kernel)
  · simp only [List.mem_cons, List.not_mem_nil, reduceCtorEq, or_false] at isMember
    cases isMember
    rcases row_cases isRow with rfl | ⟨_, _, _, isMember, isRow⟩
    · exact namesApart_of_nodup (by decide +kernel)
    · simp only [List.mem_cons, List.not_mem_nil, reduceCtorEq, or_false] at isMember
      cases isMember
      rcases row_cases isRow with rfl | ⟨_, _, _, isMember, -⟩
      · exact namesApart_of_nodup (by decide +kernel)
      · simp at isMember

theorem reordered_listedComponents : Reordered listedComponents reorderedComponents where
  perm := by decide
  ofPath path := by
    by_cases isRow : path = some "src/list/Row.tsx"
    · subst isRow
      decide
    · by_cases isHeader : path = some "src/Header.tsx"
      · subst isHeader
        decide
      · -- at most one component has another path
        simp [listedComponents, reorderedComponents, List.filter_cons,
          Ne.symm isRow, Ne.symm isHeader]

/-- The tree of the reordered components is the same, file by file. -/
theorem tree_in_order_listedComponents : Reordered listedComponents reorderedComponents
    ∧ (∀ row, Row (tree listedComponents) row → NamesApart row)
    ∧ tree listedComponents = tree reorderedComponents :=
  ⟨reordered_listedComponents, fun _ => namesApart_listedComponents,
    (tree_in_order listedComponents).2 reorderedComponents reordered_listedComponents
      fun _ => namesApart_listedComponents⟩

end Candidates

end RenderProbe.Component
