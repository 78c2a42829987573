import RenderProbe.Proofs.Syntax.LexemeEnd

/-!
# Parsers whose nodes sit in the source

What a parser reads sits in the source if it does so in its parts. There is one lemma for each way
of putting parsers together, and a grammar rule is followed by the lemmas of its combinators; for a
row of parsers the proofs stand in a row as well.

* `Reads`: wherever the parser is started, all it reads sits in the source.
* `Reads.seq`, `Reads.firstOf`, `Reads.node` and the other combinators.
* `Yields.grow`: an operand that grows into a node still sits in the source.
-/

namespace RenderProbe.Syntax

open Text (Parts StyledText)

/-- If a parser that was started at the cursor answers with nodes, these sit in the source. -/
def Answers (source : StyledText) (floor : Nat) (cursor : Cursor)
    (result : Option (Forest × Cursor)) : Prop :=
  ∀ nodes stop, result = some (nodes, stop) → Yields source floor cursor nodes stop

/-- Started anywhere, the parser reads nodes that sit in the source. -/
def Reads (source : StyledText) (floor : Nat) (p : Parser) : Prop :=
  ∀ cursor : Cursor, cursor.Stands source.text floor → Answers source floor cursor (p cursor)

section Answers

variable {source : StyledText} {floor : Nat} {cursor stop : Cursor} {nodes : Forest}

theorem Answers.fail : Answers source floor cursor none := by
  intro nodes stop read
  cases read

theorem Answers.found (yields : Yields source floor cursor nodes stop) :
    Answers source floor cursor (some (nodes, stop)) := by
  intro nodes stop read
  cases read
  exact yields

theorem Reads.answers {p : Parser} (reads : Reads source floor p)
    (stands : cursor.Stands source.text floor) : Answers source floor cursor (p cursor) :=
  reads cursor stands

end Answers

/-! ## Leaves -/

section Leaves

variable {source : StyledText} {floor : Nat} {kind : Kind} {scan : List Char → Nat} {text : String}

/-- A leaf without trivia before it, read from a cut. -/
theorem Reads.rawLeaf (crisp : Crisp scan) : Reads source 0 (rawLeaf kind scan) := by
  intro cursor stands
  unfold Syntax.rawLeaf
  split
  · exact .fail
  · next taken positive =>
    obtain ⟨before, here⟩ := stands.placed
    obtain ⟨there, left⟩ := here.advance (scan cursor.rest)
    have whole : ¬ Parts (before ++ cursor.rest.take (scan cursor.rest))
        (cursor.advance (scan cursor.rest)).rest := by
      have starts := stands.not_parts here
      rw [left]
      intro parts
      by_cases empty : cursor.rest.take (scan cursor.rest) = []
      · rw [empty, List.append_nil] at parts
        have none : cursor.rest = [] := by
          rw [List.take_eq_nil_iff] at empty
          exact empty.resolve_left positive
        rw [none] at parts
        simp [Parts] at parts
      · exact crisp _ (Nat.pos_of_ne_zero positive) ((Text.parts_append empty).mp parts)
    have ahead : cursor.offset ≤ (cursor.advance (scan cursor.rest)).offset := by
      rw [here.offset, there.offset, width_append]
      omega
    exact .found {
      behind := Nat.zero_le _
      ahead
      stands := there.stands (Nat.zero_le _) whole
      sits := fun node member => by
        obtain rfl := List.mem_singleton.mp member
        exact sits_leaf kind here there (stands.not_parts here) whole
      starts := fun node member => by
        obtain rfl := List.mem_singleton.mp member
        exact ⟨Nat.le_refl _, ahead⟩ }

/-- A leaf after trivia ends at a cut, wherever its parser was started. -/
theorem leaf_stands {cursor stop : Cursor} {nodes : Forest} (crisp : Crisp scan)
    (stands : cursor.Stands source.text floor) (read : leaf kind scan cursor = some (nodes, stop)) :
    Yields source floor cursor nodes stop ∧ stop.Stands source.text 0 := by
  have trivia := Cursor.sits_skipTrivia stands
  unfold leaf at read
  dsimp only at read
  split at read
  · cases read
  · next found =>
    cases read
    have yields := Reads.rawLeaf crisp _ trivia.stands _ _ found
    have behind := trivia.comments.stands.behind
    exact ⟨trivia.comments.append (yields.raise behind), yields.stands⟩

theorem Reads.leaf (crisp : Crisp scan) : Reads source floor (leaf kind scan) :=
  fun _ stands _ _ read => (leaf_stands crisp stands read).1

-- Tokens hold no carriage return. The grammar's are literals, so its rules show that by `rfl`.

theorem Reads.mark (plain : text.toList.contains '\r' = false) : Reads source floor (mark text) :=
  .leaf (crisp_markLength plain)

theorem Reads.markBut {following : List Char} (plain : text.toList.contains '\r' = false) :
    Reads source floor (markBut text following) :=
  .leaf (.of_notMem (notMem_markNotBefore plain following))

theorem Reads.word (plain : text.toList.contains '\r' = false) : Reads source floor (word text) :=
  .leaf (.of_notMem (notMem_keywordLength plain))

theorem Reads.identifier : Reads source floor identifier :=
  .leaf crisp_nameLength

theorem Reads.anyName : Reads source floor anyName :=
  .leaf crisp_wordLength

theorem Reads.stringLiteral : Reads source floor stringLiteral :=
  .leaf crisp_stringLength

end Leaves

/-! ## Combinators -/

section Combinators

variable {source : StyledText} {floor : Nat} {p q item separator : Parser} {ps : List Parser}
  {kind : Kind}

theorem Reads.nothing : Reads source floor nothing :=
  fun _ stands => .found (.nil stands)

theorem Reads.fail : Reads source floor fun _ => none :=
  fun _ _ => .fail

theorem Reads.seq (parts : ps.Forall (Reads source floor)) : Reads source floor (seq ps) := by
  induction ps with
  | nil => exact .nothing
  | cons p ps ih =>
    obtain ⟨first, others⟩ := List.forall_cons _ _ _ |>.mp parts
    intro cursor stands
    unfold Syntax.seq
    split
    · exact .fail
    · next found =>
      have yields := first cursor stands _ _ found
      split
      · exact .fail
      · next further => exact .found (yields.append (ih others _ yields.stands _ _ further))

/-- What follows a leaf is started at a cut. -/
theorem Reads.behind {scan : List Char → Nat} (crisp : Crisp scan)
    (rest : Reads source 0 (Syntax.seq ps)) :
    Reads source floor (Syntax.seq (Syntax.leaf kind scan :: ps)) := by
  intro cursor stands
  unfold Syntax.seq
  split
  · exact .fail
  · next found =>
    obtain ⟨yields, cut⟩ := leaf_stands crisp stands found
    split
    · exact .fail
    · next further =>
      exact .found (yields.append ((rest _ cut _ _ further).raise yields.stands.behind))

theorem Reads.firstOf (parts : ps.Forall (Reads source floor)) :
    Reads source floor (firstOf ps) := by
  induction ps with
  | nil => exact .fail
  | cons p ps ih =>
    obtain ⟨first, others⟩ := List.forall_cons _ _ _ |>.mp parts
    intro cursor stands
    unfold Syntax.firstOf
    split
    · exact ih others cursor stands
    · next found => exact fun _ _ read => first cursor stands _ _ (found.trans read)

theorem Reads.optional (part : Reads source floor p) : Reads source floor (optional p) := by
  intro cursor stands
  unfold Syntax.optional
  split
  · exact .found (.nil stands)
  · next found => exact fun _ _ read => part cursor stands _ _ (found.trans read)

theorem Reads.many {rounds : Nat} (part : Reads source floor p) :
    Reads source floor (many rounds p) := by
  induction rounds with
  | zero => exact .nothing
  | succ rounds ih =>
    intro cursor stands
    unfold Syntax.many
    split
    · exact .found (.nil stands)
    · next found =>
      split
      · exact .found (.nil stands)
      · have yields := part cursor stands _ _ found
        split
        · exact .fail
        · next further => exact .found (yields.append (ih _ yields.stands _ _ further))

theorem Reads.listUntil {rounds : Nat} {close : String} (part : Reads source floor item)
    (plain : close.toList.contains '\r' = false) :
    Reads source floor (listUntil rounds item close) := by
  induction rounds with
  | zero => exact .fail
  | succ rounds ih =>
    have ends : Reads source floor (Syntax.firstOf
        [Syntax.seq [Syntax.mark ",", Syntax.listUntil rounds item close], Syntax.mark close]) :=
      .firstOf ⟨.seq ⟨.mark rfl, ih⟩, .mark plain⟩
    refine .firstOf ⟨.mark plain, fun cursor stands => ?_⟩
    dsimp only
    split
    · exact .fail
    · next found =>
      have yields := part cursor stands _ _ found
      split
      · exact .fail
      · next further => exact .found (yields.append (ends _ yields.stands _ _ further))

theorem Reads.separated {rounds : Nat} (part : Reads source floor item)
    (between : Reads source floor separator) :
    Reads source floor (separated rounds item separator) :=
  .seq ⟨part, .many (.seq ⟨between, part⟩)⟩

/-- A node starts where its first token does and stops where its parser does. -/
theorem Reads.nodeBy {kindOf : Forest → Kind} (part : Reads source floor p) :
    Reads source floor (nodeBy kindOf p) := by
  intro cursor stands
  have trivia := Cursor.sits_skipTrivia stands
  obtain ⟨before, here⟩ := trivia.stands.placed
  have starts := here.cut (trivia.stands.not_parts here)
  unfold Syntax.nodeBy
  dsimp only
  split
  · exact .fail
  · next found =>
    have yields := part _ trivia.comments.stands _ _ found
    have stops := yields.stands.cut starts yields.behind yields.ahead
    refine .found (trivia.comments.append ⟨yields.behind, yields.ahead, yields.stands, ?_, ?_⟩)
    · intro node member
      obtain rfl := List.mem_singleton.mp member
      exact .mk starts stops Text.LineStyle.keeps_nil yields.sits
    · intro node member
      obtain rfl := List.mem_singleton.mp member
      exact ⟨Nat.le_refl _, yields.ahead⟩

theorem Reads.node (part : Reads source floor p) : Reads source floor (node kind p) :=
  .nodeBy part

theorem Reads.role {r : Role} (part : Reads source floor p) : Reads source floor (role r p) := by
  intro cursor stands
  unfold Syntax.role
  split
  · exact .fail
  · next found =>
    have yields := part cursor stands _ _ found
    refine .found ⟨yields.behind, yields.ahead, yields.stands, ?_, ?_⟩
    · intro node member
      rcases mem_withRole member with same | ⟨other, inNodes, rfl⟩
      · exact yields.sits node same
      · exact (yields.sits other inNodes).withRole r
    · intro node member
      rcases mem_withRole member with same | ⟨other, inNodes, rfl⟩
      · exact yields.starts node same
      · exact yields.starts other inNodes

theorem Reads.whenAhead {test : List Char → Bool} (part : Reads source floor p) :
    Reads source floor (whenAhead test p) := by
  intro cursor stands
  unfold Syntax.whenAhead
  split
  · exact part cursor stands
  · exact .fail

theorem Reads.sameLine (part : Reads source floor p) : Reads source floor (sameLine p) := by
  intro cursor stands
  unfold Syntax.sameLine
  split
  · exact .fail
  · exact part cursor stands

/-- The comments at the end of a line, or nothing. -/
theorem answers_trailing {cursor : Cursor} (stands : cursor.Stands source.text floor) :
    Answers source floor cursor (cursor.skipTrivia.trailing <|> some ([], cursor)) := by
  have trivia := Cursor.sits_skipTrivia stands
  cases found : cursor.skipTrivia.trailing with
  | none => exact .found (.nil stands)
  | some line => exact .found (trivia.trailing line found)

theorem Reads.trailingComments : Reads source floor trailingComments := by
  intro cursor stands
  unfold Syntax.trailingComments
  dsimp only
  split
  · exact answers_trailing stands
  · exact .found (.nil stands)

theorem Reads.semicolon {afterExpression : Bool} :
    Reads source floor (semicolon afterExpression) := by
  intro cursor stands
  unfold Syntax.semicolon
  dsimp only
  split
  · next found =>
    have ends : Reads source floor (Syntax.mark ";") := .mark rfl
    exact fun _ _ read => ends cursor stands _ _ (found.trans read)
  · split
    · exact answers_trailing stands
    · exact .fail

end Combinators

/-! ## Operands that grow -/

section Grow

variable {source : StyledText} {floor : Nat} {start cursor stop : Cursor} {operand more : Forest}
  {kind : Kind} {r : Role} {p : Parser}

theorem mem_grow {node : Node} (member : node ∈ grow kind r more stop operand) :
    node ∈ operand ∨ ∃ first ∈ operand, node.span.start = first.span.start
      ∧ node.span.stop = stop.offset ∧ node.lexeme = ""
      ∧ node.children = first.withRole r :: more := by
  induction operand with
  | nil => cases member
  | cons first rest ih =>
    cases rest with
    | nil =>
      obtain rfl := List.mem_singleton.mp member
      exact .inr ⟨first, List.mem_cons_self, rfl, rfl, rfl, rfl⟩
    | cons second others =>
      rcases List.mem_cons.mp member with rfl | later
      · exact .inl List.mem_cons_self
      · rcases ih later with same | ⟨other, inRest, grown⟩
        · exact .inl (List.mem_cons_of_mem _ same)
        · exact .inr ⟨other, List.mem_cons_of_mem _ inRest, grown⟩

/-- A node that an operand and what is read behind it make. -/
theorem Yields.grow (first : Yields source floor start operand cursor)
    (second : Yields source floor cursor more stop) :
    Yields source floor start (grow kind r more stop operand) stop where
  behind := first.behind
  ahead := Nat.le_trans first.ahead second.ahead
  stands := second.stands
  sits node member := by
    rcases mem_grow member with same | ⟨operand, inside, starts, stops, spells, children⟩
    · exact first.sits node same
    · have sits := first.sits operand inside
      obtain ⟨low, high⟩ := first.starts operand inside
      refine .mk (starts ▸ sits.start) ?_ ?_ ?_
      · rw [stops]
        exact second.stands.cut sits.start (Nat.le_trans first.behind low)
          (Nat.le_trans high second.ahead)
      · rw [spells]
        exact Text.LineStyle.keeps_nil
      · rw [children]
        intro child member
        rcases List.mem_cons.mp member with rfl | further
        · exact sits.withRole r
        · exact second.sits child further
  starts node member := by
    have ahead := second.ahead
    rcases mem_grow member with same | ⟨operand, inside, starts, -, -, -⟩
    · have starts := first.starts node same
      omega
    · have starts' := first.starts operand inside
      omega

theorem Yields.grown (operands : Yields source floor start operand cursor)
    (part : Reads source floor p) : Answers source floor start (grown operand kind r p cursor) := by
  unfold Syntax.grown
  split
  · exact .fail
  · next found => exact .found (operands.grow (part cursor operands.stands _ _ found))

end Grow

end RenderProbe.Syntax
