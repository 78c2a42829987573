import RenderProbe.Proofs.Syntax.Outline
import RenderProbe.Syntax.Program
import RenderProbe.Wrap.Import

/-!
# What the import scan finds

The scan of a module's imports says whether one of them binds a name to a value, and where the next
one goes. Its two loops over the top level run as far as they can: over the comments that trail the
last import, and over the lines that lead a module without imports.

* `BindsLocally`: the ways in which an import binds a local name.
* `Trails` and `InPrologue`: the nodes that the import goes behind.
* `scanImports_meets_spec`: what the scan finds in a module whose nodes stand in order.
-/

namespace RenderProbe.Wrap

open Syntax (Node)

/-! ## Names that imports bind -/

/-- The local name of a specifier: its alias if it has one, else its name. -/
def localName (specifier : Node) : String :=
  match specifier.child? .alias, specifier.child? .name with
  | some renamed, _ => renamed.lexeme
  | none, some name => name.lexeme
  | none, none => ""

/-- An item of an import clause that binds a local name to a value. -/
inductive ItemBinds (name : String) (item : Node) : Prop
  | defaultImport : item.kind = .identifier → item.lexeme = name → ItemBinds name item
  | namespaceImport (child : Node) : item.kind = .namespaceImport → child ∈ item.children →
    child.kind = .identifier → child.lexeme = name → ItemBinds name item
  | specifier (specifier : Node) : item.kind = .namedImports → specifier ∈ item.namedChildren →
    specifier.kind = .importSpecifier → specifier.hasKeyword "type" = false →
    localName specifier = name → ItemBinds name item

/-- An import of values that binds a local name. -/
structure BindsLocally (name : String) (statement : Node) : Prop where
  isImport : statement.kind = .importStatement
  untyped : statement.hasKeyword "type" = false
  binds : ∃ clause ∈ statement.namedChildren, clause.kind = .importClause
    ∧ ∃ item ∈ clause.namedChildren, ItemBinds name item

section Bindings

variable {name : String} {item statement : Node}

theorem specifierBinding?_eq_some {specifier : Node} : specifierBinding? specifier = some name ↔
    specifier.kind = .importSpecifier ∧ specifier.hasKeyword "type" = false
      ∧ localName specifier = name := by
  have same : ((specifier.child? .alias <|> specifier.child? .name).map (·.lexeme)).getD "" =
      localName specifier := by
    unfold localName
    cases specifier.child? .alias <;> cases specifier.child? .name <;> rfl
  rw [specifierBinding?, same]
  by_cases isSpecifier : specifier.kind = .importSpecifier <;>
    cases typed : specifier.hasKeyword "type" <;> simp [isSpecifier]

theorem mem_itemBindings : name ∈ itemBindings item ↔ ItemBinds name item := by
  constructor
  · intro member
    unfold itemBindings at member
    split at member
    · next isName => exact .defaultImport isName (List.mem_singleton.mp member).symm
    · next isNamespace =>
      obtain ⟨child, inside, same⟩ := List.mem_map.mp member
      obtain ⟨isChild, isName⟩ := List.mem_filter.mp inside
      exact .namespaceImport child isNamespace isChild (by simpa using isName) same
    · next isNamed =>
      obtain ⟨specifier, isChild, bound⟩ := List.mem_filterMap.mp member
      obtain ⟨isSpecifier, untyped, same⟩ := specifierBinding?_eq_some.mp bound
      exact .specifier specifier isNamed isChild isSpecifier untyped same
    · cases member
  · intro binds
    cases binds with
    | defaultImport isName same => simp [itemBindings, isName, same]
    | namespaceImport child isNamespace isChild isName same =>
      have found : ∃ child ∈ item.children, child.kind = .identifier ∧ child.lexeme = name :=
        ⟨child, isChild, isName, same⟩
      simpa [itemBindings, isNamespace, and_assoc] using found
    | specifier specifier isNamed isChild isSpecifier untyped same =>
      simp only [itemBindings, isNamed, List.mem_filterMap]
      exact ⟨specifier, isChild, specifierBinding?_eq_some.mpr ⟨isSpecifier, untyped, same⟩⟩

/-- A name is bound to a value exactly if an item of a clause binds it. -/
theorem bindsValue_iff : bindsValue name statement = true ↔ BindsLocally name statement := by
  have inClauses : name ∈ importedBindings statement ↔
      ∃ clause ∈ statement.namedChildren, clause.kind = .importClause
        ∧ ∃ item ∈ clause.namedChildren, ItemBinds name item := by
    simp [importedBindings, mem_itemBindings, and_assoc]
  simp only [bindsValue, Bool.and_eq_true, beq_iff_eq, Bool.not_eq_true', List.contains_eq_mem,
    decide_eq_true_eq, inClauses]
  exact ⟨fun ⟨⟨isImport, untyped⟩, binds⟩ => ⟨isImport, untyped, binds⟩,
    fun ⟨isImport, untyped, binds⟩ => ⟨⟨isImport, untyped⟩, binds⟩⟩

end Bindings

/-! ## Rows of nodes in order -/

/-- The nodes stand one behind the other. -/
structure InOrder (nodes : List Node) : Prop where
  forward : ∀ node ∈ nodes, node.span.start ≤ node.span.stop
  apart : nodes.Pairwise fun node later => node.span.stop ≤ later.span.start

namespace InOrder

variable {node : Node} {nodes before after : List Node}

theorem of_append (inOrder : InOrder (before ++ after)) : InOrder before ∧ InOrder after := by
  obtain ⟨first, second, -⟩ := List.pairwise_append.mp inOrder.apart
  exact ⟨⟨fun node member => inOrder.forward node (List.mem_append_left _ member), first⟩,
    ⟨fun node member => inOrder.forward node (List.mem_append_right _ member), second⟩⟩

/-- A node ends before one behind it starts. -/
theorem stop_le {later : Node} (inOrder : InOrder (node :: nodes)) (member : later ∈ nodes) :
    node.span.stop ≤ later.span.start :=
  (List.pairwise_cons.mp inOrder.apart).1 later member

theorem stop_le_stop {later : Node} (inOrder : InOrder (node :: nodes)) (member : later ∈ nodes) :
    node.span.stop ≤ later.span.stop :=
  Nat.le_trans (inOrder.stop_le member) (inOrder.forward later (List.mem_cons_of_mem _ member))

end InOrder

/-! ## Behind the last import -/

/-- A comment that starts on the row where a node ends. -/
def TrailedBy (node comment : Node) : Prop :=
  comment.kind = .comment ∧ comment.span.startRow = node.span.stopRow

/-- The nodes are comments, each on the row where the node before it ends. -/
def Trails (node : Node) : List Node → Prop
  | [] => True
  | comment :: rest => TrailedBy node comment ∧ Trails comment rest

/-- The node that a row with another node in front ends with. -/
def lastOf (node : Node) (trailing : List Node) : Node :=
  trailing.getLast?.getD node

section Imports

variable {node : Node} {nodes rest : List Node}

@[simp] theorem lastOf_nil : lastOf node [] = node := rfl

@[simp] theorem lastOf_cons (comment : Node) (trailing : List Node) :
    lastOf node (comment :: trailing) = lastOf comment trailing := by
  cases trailing <;> rfl

theorem lastOf_mem (node : Node) (trailing : List Node) :
    lastOf node trailing ∈ node :: trailing := by
  induction trailing generalizing node with
  | nil => exact List.mem_cons_self
  | cons comment trailing ih =>
    rw [lastOf_cons]
    exact List.mem_cons_of_mem _ (ih comment)

theorem Trails.isComment {trailing : List Node} (trails : Trails node trailing) :
    ∀ comment ∈ trailing, comment.kind = .comment := by
  induction trailing generalizing node with
  | nil => simp
  | cons comment trailing ih => exact List.forall_mem_cons.mpr ⟨trails.1.1, ih trails.2⟩

theorem lastImport?_eq_none (absent : lastImport? nodes = none) :
    ∀ node ∈ nodes, node.kind ≠ .importStatement := by
  induction nodes with
  | nil => simp
  | cons first others ih =>
    unfold lastImport? at absent
    split at absent
    · cases absent
    · next none =>
      split at absent
      · cases absent
      · next other =>
        intro node member
        rcases List.mem_cons.mp member with rfl | later
        · simpa using other
        · exact ih none node later

/-- The last import splits the row: none stands behind it. What is read off the row goes by this
splitting. -/
theorem lastImport?_eq_some (found : lastImport? nodes = some (node, rest)) :
    ∃ before, nodes = before ++ node :: rest ∧ node.kind = .importStatement
      ∧ ∀ later ∈ rest, later.kind ≠ .importStatement := by
  induction nodes with
  | nil => cases found
  | cons first others ih =>
    unfold lastImport? at found
    split at found
    · next later =>
      obtain ⟨before, rfl, isImport, none⟩ := ih (later.trans found)
      exact ⟨first :: before, rfl, isImport, none⟩
    · next absent =>
      split at found
      · next isImport =>
        cases found
        exact ⟨[], rfl, by simpa using isImport, lastImport?_eq_none absent⟩
      · cases found

/-- The scan passes the comments that trail a node, all of them. The row of the last one counts, as
a comment may go over several. -/
theorem endOfComments_eq_stop (node : Node) (nodes : List Node) :
    ∃ trailing after, nodes = trailing ++ after ∧ Trails node trailing
      ∧ (∀ next ∈ after.head?, ¬ TrailedBy (lastOf node trailing) next)
      ∧ endOfComments node.span.stop node.span.stopRow nodes
        = (lastOf node trailing).span.stop := by
  induction nodes generalizing node with
  | nil => exact ⟨[], [], rfl, trivial, by simp, rfl⟩
  | cons first rest ih =>
    unfold endOfComments
    split
    · next trails =>
      simp only [Bool.and_eq_true, beq_iff_eq] at trails
      obtain ⟨trailing, after, rfl, further, ends, stop⟩ := ih first
      exact ⟨first :: trailing, after, rfl,
        ⟨trails, further⟩, by simpa using ends, by simpa using stop⟩
    · next ends =>
      simp only [Bool.and_eq_true, beq_iff_eq] at ends
      exact ⟨[], first :: rest, rfl, trivial, by simpa [TrailedBy] using ends, rfl⟩

end Imports

/-- Where the import goes in a row of nodes with imports: behind the last one and the comments that
trail it. -/
def GoesBehindImports (nodes : List Node) (offset : Nat) : Prop :=
  ∃ before last trailing after, nodes = before ++ last :: (trailing ++ after)
    ∧ last.kind = .importStatement ∧ (∀ node ∈ trailing ++ after, node.kind ≠ .importStatement)
    ∧ Trails last trailing ∧ (∀ next ∈ after.head?, ¬ TrailedBy (lastOf last trailing) next)
    ∧ offset = (lastOf last trailing).span.stop

/-- No import ends behind the place of the next one. -/
theorem GoesBehindImports.stop_le {nodes : List Node} {offset : Nat}
    (goes : GoesBehindImports nodes offset) (inOrder : InOrder nodes) :
    ∀ node ∈ nodes, node.kind = .importStatement → node.span.stop ≤ offset := by
  obtain ⟨before, last, trailing, after, rfl, -, none, -, -, rfl⟩ := goes
  have behind : last.span.stop ≤ (lastOf last trailing).span.stop := by
    rcases List.mem_cons.mp (lastOf_mem last trailing) with same | later
    · exact Nat.le_of_eq (by rw [same])
    · exact (inOrder.of_append.2).stop_le_stop (List.mem_append_left _ later)
  intro node member isImport
  rcases List.mem_append.mp member with earlier | here
  · obtain ⟨-, -, apart⟩ := List.pairwise_append.mp inOrder.apart
    have before := apart node earlier last List.mem_cons_self
    have forward := inOrder.forward last (List.mem_append_right _ List.mem_cons_self)
    omega
  · rcases List.mem_cons.mp here with rfl | later
    · exact behind
    · exact absurd isImport (none node later)

/-! ## Behind the prologue -/

/-- A statement that is a string literal and nothing else but comments. -/
def IsDirective (node : Node) : Prop :=
  node.kind = .expressionStatement ∧ ∃ literal, literal.kind = .stringLiteral
    ∧ node.namedChildren.filter (·.kind != .comment) = [literal]

/-- The line that names an interpreter, or a directive. -/
def Leads (node : Node) : Prop :=
  node.kind = .hashBang ∨ IsDirective node

/-- A node of a prologue: the line that names an interpreter, a directive, or a comment. -/
def InPrologue (node : Node) : Prop :=
  Leads node ∨ node.kind = .comment

/-- An offset is the end of the last line of a prologue that is no comment, or the start of
the module if there is none. -/
def EndsPrologue (prologue : List Node) (offset : Nat) : Prop :=
  (offset = 0 ∧ ∀ node ∈ prologue, ¬ Leads node)
    ∨ ∃ earlier last comments, prologue = earlier ++ last :: comments ∧ Leads last
      ∧ (∀ node ∈ comments, ¬ Leads node) ∧ offset = last.span.stop

/-- A row of nodes starts with a prologue that reaches as far as it can. -/
structure LongestPrologue (nodes prologue rest : List Node) : Prop where
  split : nodes = prologue ++ rest
  inside : ∀ node ∈ prologue, InPrologue node
  ends : ∀ next ∈ rest.head?, ¬ InPrologue next

section Prologue

variable {node : Node} {nodes prologue rest : List Node} {offset : Nat}

theorem isDirective_iff : isDirective node = true ↔ IsDirective node := by
  simp only [isDirective, IsDirective, Bool.and_eq_true, beq_iff_eq]
  refine and_congr_right fun _ => ?_
  split
  · next child same => simp [same]
  · next other =>
    refine ⟨by simp, ?_⟩
    rintro ⟨literal, -, same⟩
    exact absurd same (other literal)

theorem leads_iff : (node.kind == .hashBang || isDirective node) = true ↔ Leads node := by
  simp [Leads, isDirective_iff]

/-- The scan passes the longest prologue, and stops at the end of its last line that is no comment.
By induction on the row. -/
theorem endOfPrologue_eq_stop (stop : Nat) (nodes : List Node) :
    ∃ prologue rest, LongestPrologue nodes prologue rest
      ∧ ((endOfPrologue stop nodes = stop ∧ ∀ node ∈ prologue, ¬ Leads node)
        ∨ ∃ earlier last comments, prologue = earlier ++ last :: comments ∧ Leads last
          ∧ (∀ node ∈ comments, ¬ Leads node) ∧ endOfPrologue stop nodes = last.span.stop) := by
  induction nodes generalizing stop with
  | nil => exact ⟨[], [], ⟨rfl, by simp, by simp⟩, .inl ⟨rfl, by simp⟩⟩
  | cons first others ih =>
    unfold endOfPrologue
    split
    · next leads =>
      have leads := leads_iff.mp leads
      obtain ⟨prologue, rest, ⟨rfl, inside, ends⟩, stops⟩ := ih first.span.stop
      refine ⟨first :: prologue, rest, ⟨rfl, ?_, ends⟩, .inr ?_⟩
      · exact List.forall_mem_cons.mpr ⟨.inl leads, inside⟩
      · rcases stops with ⟨same, none⟩ | ⟨earlier, last, comments, rfl, isLast, none, same⟩
        · exact ⟨[], first, prologue, rfl, leads, none, same⟩
        · exact ⟨first :: earlier, last, comments, rfl, isLast, none, same⟩
    · next follows =>
      rw [leads_iff] at follows
      split
      · next comment =>
        have comment : first.kind = .comment := by simpa using comment
        obtain ⟨prologue, rest, ⟨rfl, inside, ends⟩, stops⟩ := ih stop
        refine ⟨first :: prologue, rest, ⟨rfl, ?_, ends⟩, ?_⟩
        · exact List.forall_mem_cons.mpr ⟨.inr comment, inside⟩
        · rcases stops with ⟨same, none⟩ | ⟨earlier, last, comments, rfl, isLast, none, same⟩
          · exact .inl ⟨same, List.forall_mem_cons.mpr ⟨follows, none⟩⟩
          · exact .inr ⟨first :: earlier, last, comments, rfl, isLast, none, same⟩
      · next other =>
        refine ⟨[], first :: others, ⟨rfl, by simp, ?_⟩, .inl ⟨rfl, by simp⟩⟩
        simpa [InPrologue, follows] using other

/-- What leads a module ends before its prologue does. -/
theorem EndsPrologue.stop_le (ends : EndsPrologue prologue offset) (inOrder : InOrder prologue) :
    ∀ node ∈ prologue, Leads node → node.span.stop ≤ offset := by
  intro node member leads
  rcases ends with ⟨-, none⟩ | ⟨earlier, last, comments, rfl, -, none, rfl⟩
  · exact absurd leads (none node member)
  · rcases List.mem_append.mp member with before | here
    · obtain ⟨-, -, apart⟩ := List.pairwise_append.mp inOrder.apart
      have before := apart node before last List.mem_cons_self
      have forward := inOrder.forward last (List.mem_append_right _ List.mem_cons_self)
      omega
    · rcases List.mem_cons.mp here with rfl | later
      · exact Nat.le_refl _
      · exact absurd leads (none node later)

/-- What follows a prologue starts behind the end of its last line. -/
theorem EndsPrologue.le_start (ends : EndsPrologue prologue offset)
    (inOrder : InOrder (prologue ++ rest)) : ∀ node ∈ rest, offset ≤ node.span.start := by
  intro node member
  rcases ends with ⟨rfl, -⟩ | ⟨earlier, last, comments, rfl, -, -, rfl⟩
  · exact Nat.zero_le _
  · obtain ⟨-, -, apart⟩ := List.pairwise_append.mp inOrder.apart
    exact apart last (List.mem_append_right _ List.mem_cons_self) node member

end Prologue

/-! ## The scan -/

/-- The scan of a module whose top-level nodes stand in order. It finds a binding exactly if
an import of values binds the name as a local one. With imports the next one goes behind all of
them, comments that trail the last one between; without, it goes behind the lines that lead
the module and before every statement that is no part of its prologue. -/
theorem scanImports_meets_spec (root : Node) (symbol : String)
    (inOrder : InOrder root.namedChildren) :
    ((scanImports root symbol).hasBinding = true ↔
        ∃ statement ∈ root.namedChildren, BindsLocally symbol statement)
      ∧ ((∃ statement ∈ root.namedChildren, statement.kind = .importStatement) →
        GoesBehindImports root.namedChildren (scanImports root symbol).offset
          ∧ ∀ statement ∈ root.namedChildren, statement.kind = .importStatement →
            statement.span.stop ≤ (scanImports root symbol).offset)
      ∧ ((∀ statement ∈ root.namedChildren, statement.kind ≠ .importStatement) →
        ∃ prologue rest, LongestPrologue root.namedChildren prologue rest
          ∧ EndsPrologue prologue (scanImports root symbol).offset
          ∧ (∀ node ∈ prologue, Leads node → node.span.stop ≤ (scanImports root symbol).offset)
          ∧ ∀ node ∈ rest, (scanImports root symbol).offset ≤ node.span.start) := by
  have bindings :
      (scanImports root symbol).hasBinding = root.namedChildren.any (bindsValue symbol) := by
    unfold scanImports
    dsimp only
    split <;> rfl
  refine ⟨?_, ?_, ?_⟩
  · rw [bindings, List.any_eq_true]
    exact exists_congr fun statement => and_congr_right fun _ => bindsValue_iff
  · rintro ⟨statement, member, isImport⟩
    cases found : lastImport? root.namedChildren with
    | none => exact absurd isImport (lastImport?_eq_none found statement member)
    | some split =>
      obtain ⟨last, behind⟩ := split
      obtain ⟨before, isRow, isLast, none⟩ := lastImport?_eq_some found
      obtain ⟨trailing, after, rfl, trails, ends, stop⟩ := endOfComments_eq_stop last behind
      have goes : GoesBehindImports root.namedChildren (scanImports root symbol).offset :=
        ⟨before, last, trailing, after, isRow, isLast, none, trails, ends, by
          simpa only [scanImports, found] using stop⟩
      exact ⟨goes, goes.stop_le inOrder⟩
  · intro none
    have absent : lastImport? root.namedChildren = .none := by
      cases found : lastImport? root.namedChildren with
      | none => rfl
      | some split =>
        obtain ⟨before, isRow, isLast, -⟩ := lastImport?_eq_some found
        exact absurd isLast (none _ (isRow ▸ by simp))
    have place : (scanImports root symbol).offset = endOfPrologue 0 root.namedChildren := by
      simp only [scanImports, absent]
    obtain ⟨prologue, rest, longest, stops⟩ := endOfPrologue_eq_stop 0 root.namedChildren
    rw [← place] at stops
    rw [longest.split] at inOrder
    exact ⟨prologue, rest, longest, stops, EndsPrologue.stop_le stops inOrder.of_append.1,
      EndsPrologue.le_start stops inOrder⟩

/-- The import in `import w from 'm'; /* a\n */ // b\nf`. -/
def trailedImport : Node :=
  ⟨.importStatement, .plain, ⟨0, 18, 0, 0⟩, "",
    [⟨.token, .plain, ⟨0, 6, 0, 0⟩, "import", []⟩,
      ⟨.importClause, .plain, ⟨7, 8, 0, 0⟩, "", [⟨.identifier, .plain, ⟨7, 8, 0, 0⟩, "w", []⟩]⟩,
      ⟨.token, .plain, ⟨9, 13, 0, 0⟩, "from", []⟩,
      ⟨.stringLiteral, .source, ⟨14, 17, 0, 0⟩, "'m'", []⟩,
      ⟨.token, .plain, ⟨17, 18, 0, 0⟩, ";", []⟩]⟩

/-- The module of that text. The second comment is on the row where the first one ends. -/
def trailedModule : Node :=
  ⟨.program, .plain, ⟨0, 34, 0, 2⟩, "",
    [trailedImport, ⟨.comment, .plain, ⟨19, 27, 0, 1⟩, "/* a\n */", []⟩,
      ⟨.comment, .plain, ⟨28, 32, 1, 1⟩, "// b", []⟩,
      ⟨.expressionStatement, .plain, ⟨33, 34, 2, 2⟩, "",
        [⟨.identifier, .plain, ⟨33, 34, 2, 2⟩, "f", []⟩]⟩]⟩

/-- The module of `// c\n'use client'\nf`. -/
def directedModule : Node :=
  ⟨.program, .plain, ⟨0, 19, 0, 2⟩, "",
    [⟨.comment, .plain, ⟨0, 4, 0, 0⟩, "// c", []⟩,
      ⟨.expressionStatement, .plain, ⟨5, 17, 1, 1⟩, "",
        [⟨.stringLiteral, .plain, ⟨5, 17, 1, 1⟩, "'use client'", []⟩]⟩,
      ⟨.expressionStatement, .plain, ⟨18, 19, 2, 2⟩, "",
        [⟨.identifier, .plain, ⟨18, 19, 2, 2⟩, "f", []⟩]⟩]⟩

/-- An import with two comments that trail it, and a module that starts with a comment and a
directive. -/
theorem scanImports_meets_spec_trailedImport :
    (∃ root, Syntax.parse true "import w from 'm'; /* a\n */ // b\nf" = some root
        ∧ InOrder root.namedChildren
        ∧ (∃ statement ∈ root.namedChildren, BindsLocally "w" statement)
        ∧ GoesBehindImports root.namedChildren 32)
      ∧ ∃ root, Syntax.parse true "// c\n'use client'\nf" = some root ∧ InOrder root.namedChildren
        ∧ ∃ prologue rest, LongestPrologue root.namedChildren prologue rest
          ∧ EndsPrologue prologue 17
          ∧ ∀ node ∈ rest, 17 ≤ node.span.start := by
  constructor
  · have parsed :
        Syntax.parse true "import w from 'm'; /* a\n */ // b\nf" = some trailedModule := by
      decide +kernel
    have inOrder : InOrder trailedModule.namedChildren := ⟨by decide, by decide⟩
    obtain ⟨bound, behind, -⟩ := scanImports_meets_spec trailedModule "w" inOrder
    exact ⟨trailedModule, parsed, inOrder, bound.mp (by decide),
      (behind ⟨trailedImport, by decide, rfl⟩).1⟩
  · have parsed :
        Syntax.parse true "// c\n'use client'\nf" = some directedModule := by decide +kernel
    have inOrder : InOrder directedModule.namedChildren := ⟨by decide, by decide⟩
    obtain ⟨-, -, leads⟩ := scanImports_meets_spec directedModule "w" inOrder
    obtain ⟨prologue, rest, longest, ends, -, later⟩ := leads (by decide)
    exact ⟨directedModule, parsed, inOrder, prologue, rest, longest, ends, later⟩

end RenderProbe.Wrap
