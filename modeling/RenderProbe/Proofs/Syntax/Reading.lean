import RenderProbe.Proofs.Syntax.Outline
import RenderProbe.Syntax.Program

/-!
# What parsers read

Two properties of parsers that are kept by the ways of putting parsers together.

* `Ensures`: every node that the parser reads has a given property.
* `Single`: the parser reads one node that is no keyword or mark and no declaration, and comments
  before it.

A property is carried through a grammar rule by one lemma for each combinator in it.
-/

namespace RenderProbe.Syntax

/-! ## Comments -/

/-- Only comments have been read so far. -/
def TriviaSoFar.Sound (soFar : TriviaSoFar) : Prop :=
  (∀ node ∈ soFar.comments, node.isTrivia = true)
    ∧ ∀ line ∈ soFar.firstLine, ∀ node ∈ line.1, node.isTrivia = true

/-- The trivia between two tokens are comments. -/
def Trivia.Sound (trivia : Trivia) : Prop :=
  (∀ node ∈ trivia.comments, node.isTrivia = true)
    ∧ ∀ line ∈ trivia.trailing, ∀ node ∈ line.1, node.isTrivia = true

section Comments

variable {soFar : TriviaSoFar}

theorem TriviaSoFar.Sound.endLine (sound : soFar.Sound) : soFar.endLine.Sound := by
  refine ⟨sound.1, ?_⟩
  intro line noted node member
  simp only [TriviaSoFar.endLine] at noted
  cases first : soFar.firstLine with
  | some found =>
    rw [first] at noted
    obtain rfl : found = line := by simpa using noted
    exact sound.2 found (by simp [first]) node member
  | none =>
    rw [first] at noted
    obtain rfl : (soFar.comments.reverse, soFar.lastEnd) = line := by simpa using noted
    exact sound.1 node (List.mem_reverse.mp member)

theorem TriviaSoFar.Sound.addComment (sound : soFar.Sound) (start stop : Cursor)
    (read : List Char) : (soFar.addComment start stop read).Sound := by
  refine ⟨fun node member => ?_, sound.2⟩
  rcases List.mem_cons.mp member with rfl | later
  · rfl
  · exact sound.1 node later

theorem TriviaSoFar.Sound.finish (sound : soFar.Sound) (next : Cursor) (unclosed : Bool) :
    (soFar.finish next unclosed).Sound := by
  refine ⟨fun node member => sound.1 node (List.mem_reverse.mp member), ?_⟩
  intro line noted
  simp only [TriviaSoFar.finish] at noted
  split at noted
  · exact sound.endLine.2 line noted
  · exact sound.2 line noted

theorem readTrivia_sound (sound : soFar.Sound) (state : TriviaState) (cursor : Cursor)
    (rest : List Char) : (readTrivia state soFar cursor rest).Sound := by
  induction rest generalizing state soFar cursor with
  | nil =>
    cases state with
    | between => exact sound.finish _ _
    | lineComment start read => exact (sound.addComment _ _ _).finish _ _
    | blockComment start read => exact sound.finish _ _
  | cons c rest ih =>
    cases state with
    | between =>
      simp only [readTrivia]
      split
      · exact ih sound.endLine _ _
      · split
        · exact ih sound _ _
        · split
          · exact ih sound _ _
          · split
            · exact ih sound _ _
            · exact sound.finish _ _
    | lineComment start read =>
      simp only [readTrivia]
      split
      · exact ih (sound.addComment _ _ _).endLine _ _
      · split
        · exact ih (sound.addComment _ _ _) _ _
        · exact ih sound _ _
    | blockComment start read =>
      simp only [readTrivia]
      split
      · exact ih (sound.addComment _ _ _) _ _
      · exact ih sound _ _

theorem Cursor.skipTrivia_sound (cursor : Cursor) : cursor.skipTrivia.Sound :=
  readTrivia_sound ⟨by simp, by simp⟩ _ _ _

end Comments

/-! ## Properties of all nodes -/

/-- Every node that the parser reads has a property. -/
def Ensures (P : Node → Prop) (p : Parser) : Prop :=
  ∀ ⦃cursor nodes stop⦄, p cursor = some (nodes, stop) → ∀ node ∈ nodes, P node

/-- The property holds of comments. -/
def SparesTrivia (P : Node → Prop) : Prop :=
  ∀ node : Node, node.isTrivia = true → P node

section Ensures

variable {P : Node → Prop} {p : Parser} {ps : List Parser}

theorem Ensures.mono {Q : Node → Prop} (part : Ensures Q p) (weaker : ∀ node, Q node → P node) :
    Ensures P p := by
  intro cursor nodes stop read node member
  exact weaker node (part read node member)

theorem Ensures.done : Ensures P (seq []) := by
  intro cursor nodes stop read
  cases read
  simp

/-- A sequence reads what its first parser reads and then what the others read. -/
theorem seq_cons_eq_some {cursor stop : Cursor} {nodes : Forest} :
    seq (p :: ps) cursor = some (nodes, stop) ↔
      ∃ first next others, p cursor = some (first, next) ∧ seq ps next = some (others, stop)
        ∧ nodes = first ++ others := by
  simp only [Syntax.seq]
  constructor
  · intro read
    split at read
    · cases read
    · next found =>
      split at read
      · cases read
      · next others =>
        cases read
        exact ⟨_, _, _, found, others, rfl⟩
  · rintro ⟨first, next, others, found, rest, rfl⟩
    simp only [found, rest]

theorem Ensures.andThen (first : Ensures P p) (rest : Ensures P (seq ps)) :
    Ensures P (seq (p :: ps)) := by
  intro cursor nodes stop read node member
  obtain ⟨_, _, _, found, others, rfl⟩ := seq_cons_eq_some.mp read
  rcases List.mem_append.mp member with here | later
  · exact first found node here
  · exact rest others node later

theorem Ensures.fail : Ensures P (firstOf []) := by
  intro cursor nodes stop read
  cases read

theorem Ensures.orElse (first : Ensures P p) (rest : Ensures P (firstOf ps)) :
    Ensures P (firstOf (p :: ps)) := by
  intro cursor nodes stop read
  simp only [Syntax.firstOf] at read
  split at read
  · exact rest read
  · next found =>
    cases read
    exact first found

/-- One of the alternatives read what they read together. Which one it was is not told: those before
it may fail for any reason. -/
theorem of_firstOf {cursor stop : Cursor} {nodes : Forest}
    (read : firstOf ps cursor = some (nodes, stop)) :
    ∃ p ∈ ps, p cursor = some (nodes, stop) := by
  induction ps with
  | nil => cases read
  | cons first rest ih =>
    simp only [Syntax.firstOf] at read
    split at read
    · obtain ⟨p, member, found⟩ := ih read
      exact ⟨p, List.mem_cons_of_mem _ member, found⟩
    · next found =>
      cases read
      exact ⟨first, List.mem_cons_self, found⟩

/-- A sequence with alternatives at its end reads what it would with one of them in their place. -/
theorem of_seq_firstOf (front : List Parser) {cursor stop : Cursor} {nodes : Forest}
    (read : seq (front ++ [firstOf ps]) cursor = some (nodes, stop)) :
    ∃ p ∈ ps, seq (front ++ [p]) cursor = some (nodes, stop) := by
  induction front generalizing cursor nodes with
  | nil =>
    obtain ⟨first, next, others, found, rest, rfl⟩ := seq_cons_eq_some.mp read
    obtain ⟨p, member, found⟩ := of_firstOf found
    exact ⟨p, member, seq_cons_eq_some.mpr ⟨first, next, others, found, rest, rfl⟩⟩
  | cons part front ih =>
    obtain ⟨first, next, others, found, rest, rfl⟩ := seq_cons_eq_some.mp read
    obtain ⟨p, member, rest⟩ := ih rest
    exact ⟨p, member, seq_cons_eq_some.mpr ⟨first, next, others, found, rest, rfl⟩⟩

theorem Ensures.optional (part : Ensures P p) : Ensures P (optional p) := by
  intro cursor nodes stop read
  simp only [Syntax.optional] at read
  split at read
  · cases read
    simp
  · next found =>
    cases read
    exact part found

theorem Ensures.many (part : Ensures P p) (rounds : Nat) : Ensures P (many rounds p) := by
  induction rounds with
  | zero =>
    intro cursor nodes stop read
    cases read
    simp
  | succ rounds ih =>
    intro cursor nodes stop read node member
    simp only [Syntax.many] at read
    split at read
    · cases read
      cases member
    · next first =>
      split at read
      · cases read
        cases member
      · split at read
        · cases read
        · next others =>
          cases read
          rcases List.mem_append.mp member with here | later
          · exact part first node here
          · exact ih others node later

theorem Ensures.sameLine (part : Ensures P p) : Ensures P (sameLine p) := by
  intro cursor nodes stop read
  simp only [Syntax.sameLine] at read
  split at read
  · cases read
  · exact part read

theorem Ensures.whenAhead (part : Ensures P p) (test : List Char → Bool) :
    Ensures P (whenAhead test p) := by
  intro cursor nodes stop read
  simp only [Syntax.whenAhead] at read
  split at read
  · exact part read
  · cases read

/-- A leaf comes after comments; its scanner took at least one character. -/
theorem Ensures.leaf {kind : Kind} {scan : List Char → Nat} (trivia : SparesTrivia P)
    (leaves : ∀ span rest, 0 < scan rest →
      P ⟨kind, .plain, span, String.ofList (rest.take (scan rest)), []⟩) :
    Ensures P (leaf kind scan) := by
  intro cursor nodes stop read node member
  simp only [Syntax.leaf, rawLeaf] at read
  split at read
  · cases read
  · next found =>
    split at found
    · cases found
    · next taken positive =>
      cases found
      cases read
      rcases List.mem_append.mp member with comment | here
      · exact trivia node (cursor.skipTrivia_sound.1 node comment)
      · obtain rfl := List.mem_singleton.mp here
        exact leaves _ cursor.skipTrivia.next.rest (Nat.pos_of_ne_zero positive)

/-- A node comes after comments; its children are what its parser read. -/
theorem Ensures.nodeBy {kindOf : Forest → Kind} (trivia : SparesTrivia P)
    (inner : ∀ ⦃cursor children stop⦄, p cursor = some (children, stop) → ∀ span,
      P ⟨kindOf children, .plain, span, "", children⟩) : Ensures P (nodeBy kindOf p) := by
  intro cursor nodes stop read node member
  simp only [Syntax.nodeBy] at read
  split at read
  · cases read
  · next found =>
    cases read
    rcases List.mem_append.mp member with comment | here
    · exact trivia node (cursor.skipTrivia_sound.1 node comment)
    · obtain rfl := List.mem_singleton.mp here
      exact inner found _

theorem mem_withRole {role : Role} {nodes : Forest} {node : Node}
    (member : node ∈ Forest.withRole role nodes) :
    node ∈ nodes ∨ ∃ other ∈ nodes, node = other.withRole role := by
  induction nodes with
  | nil => cases member
  | cons first rest ih =>
    cases rest with
    | nil =>
      obtain rfl := List.mem_singleton.mp member
      exact .inr ⟨first, List.mem_cons_self, rfl⟩
    | cons second others =>
      rcases List.mem_cons.mp member with rfl | later
      · exact .inl List.mem_cons_self
      · rcases ih later with same | ⟨other, inRest, rfl⟩
        · exact .inl (List.mem_cons_of_mem _ same)
        · exact .inr ⟨other, List.mem_cons_of_mem _ inRest, rfl⟩

theorem Ensures.role {Q : Node → Prop} {r : Role} (part : Ensures Q p)
    (kept : ∀ node, Q node → P node ∧ P (node.withRole r)) : Ensures P (role r p) := by
  intro cursor nodes stop read node member
  simp only [Syntax.role] at read
  split at read
  · cases read
  · next found =>
    cases read
    rcases mem_withRole member with same | ⟨other, inNodes, rfl⟩
    · exact (kept node (part found node same)).1
    · exact (kept other (part found other inNodes)).2

/-- The end of a statement is a semicolon or comments. -/
theorem Ensures.semicolon (trivia : SparesTrivia P) (mark : Ensures P (mark ";"))
    (afterExpression : Bool) : Ensures P (semicolon afterExpression) := by
  intro cursor nodes stop read node member
  simp only [Syntax.semicolon] at read
  split at read
  · next found =>
    cases read
    exact mark found node member
  · split at read
    · cases trailing : cursor.skipTrivia.trailing with
      | none =>
        rw [trailing] at read
        cases read
        cases member
      | some line =>
        rw [trailing] at read
        cases read
        exact trivia node (cursor.skipTrivia_sound.2 _ trailing node member)
    · cases read

end Ensures

/-! ## Keywords and marks -/

theorem take_of_isPrefixOf {text : String} {rest : List Char}
    (isPrefix : text.toList.isPrefixOf rest = true) :
    String.ofList (rest.take text.length) = text := by
  obtain ⟨others, rfl⟩ := List.isPrefixOf_iff_prefix.mp isPrefix
  rw [← String.length_toList, List.take_left, String.ofList_toList]

/-- A keyword has its own letters. -/
theorem lexeme_keyword {keyword : String} {rest : List Char}
    (found : 0 < keywordLength keyword rest) :
    String.ofList (rest.take (keywordLength keyword rest)) = keyword := by
  unfold keywordLength at found ⊢
  split at found
  · next front =>
    rw [if_pos front]
    simp only [Bool.and_eq_true] at front
    exact take_of_isPrefixOf front.1
  · cases found

theorem lexeme_mark {mark : String} {rest : List Char} (found : 0 < markLength mark rest) :
    String.ofList (rest.take (markLength mark rest)) = mark := by
  unfold markLength at found ⊢
  split at found
  · next front =>
    rw [if_pos front]
    exact take_of_isPrefixOf front
  · cases found

section Tokens

variable {P : Node → Prop}

theorem Ensures.word (trivia : SparesTrivia P) {keyword : String}
    (token : ∀ span, P ⟨.token, .plain, span, keyword, []⟩) : Ensures P (word keyword) :=
  Ensures.leaf trivia fun span rest found => by
    rw [lexeme_keyword found]
    exact token span

theorem Ensures.mark (trivia : SparesTrivia P) {text : String}
    (token : ∀ span, P ⟨.token, .plain, span, text, []⟩) : Ensures P (mark text) :=
  Ensures.leaf trivia fun span rest found => by
    rw [lexeme_mark found]
    exact token span

end Tokens

/-! ## Single nodes -/

/-- The kinds of declarations. -/
def declarationKinds : List Kind :=
  [.functionDeclaration, .functionSignature, .generatorDeclaration, .classDeclaration,
   .abstractClassDeclaration, .variableDeclaration, .statement]

/-- The kinds of the members of classes. -/
def memberKinds : List Kind :=
  [.methodDefinition, .methodSignature, .fieldDefinition]

/-- A kind of node that is neither a token nor a comment nor a declaration nor a member of
a class. -/
def Kind.isSolid (kind : Kind) : Bool :=
  kind != .token && kind != .comment && !declarationKinds.contains kind
    && !memberKinds.contains kind

theorem isMeaningful_of_isSolid {node : Node} (solid : node.kind.isSolid = true) :
    node.isMeaningful = true := by
  simp only [Kind.isSolid, Bool.and_eq_true] at solid
  simp [Node.isMeaningful, Node.isNamed, solid.1.1]

/-- The row is one node of a solid kind, with comments before it. -/
def Forest.IsSingle (nodes : Forest) : Prop :=
  ∃ comments node, nodes = comments ++ [node] ∧ (∀ comment ∈ comments, comment.isTrivia = true)
    ∧ node.kind.isSolid = true ∧ node.role = .plain

/-- The parser reads a single node. -/
def Single (p : Parser) : Prop :=
  ∀ ⦃cursor nodes stop⦄, p cursor = some (nodes, stop) → Forest.IsSingle nodes

section Single

variable {p : Parser} {ps : List Parser}

theorem Single.leaf {kind : Kind} {scan : List Char → Nat} (solid : kind.isSolid = true) :
    Single (leaf kind scan) := by
  intro cursor nodes stop read
  simp only [Syntax.leaf, rawLeaf] at read
  split at read
  · cases read
  · next found =>
    split at found
    · cases found
    · cases found
      cases read
      exact ⟨_, _, rfl, cursor.skipTrivia_sound.1, solid, rfl⟩

theorem Single.nodeBy {kindOf : Forest → Kind} (solid : ∀ nodes, (kindOf nodes).isSolid = true) :
    Single (nodeBy kindOf p) := by
  intro cursor nodes stop read
  simp only [Syntax.nodeBy] at read
  split at read
  · cases read
  · next found =>
    cases read
    exact ⟨_, _, rfl, cursor.skipTrivia_sound.1, solid _, rfl⟩

theorem Single.node {kind : Kind} (solid : kind.isSolid = true) : Single (node kind p) :=
  Single.nodeBy fun _ => solid

theorem Single.fail : Single (firstOf []) := by
  intro cursor nodes stop read
  cases read

theorem Single.orElse (first : Single p) (rest : Single (firstOf ps)) :
    Single (firstOf (p :: ps)) := by
  intro cursor nodes stop read
  simp only [Syntax.firstOf] at read
  split at read
  · exact rest read
  · next found =>
    cases read
    exact first found

/-- What a single node grows into is a single node. -/
theorem Forest.IsSingle.grow {nodes : Forest} (single : nodes.IsSingle) {kind : Kind}
    (solid : kind.isSolid = true) (r : Role) (more : Forest) (stop : Cursor) :
    (grow kind r more stop nodes).IsSingle := by
  obtain ⟨comments, node, rfl, trivia, -, -⟩ := single
  induction comments with
  | nil => exact ⟨[], _, rfl, by simp, solid, rfl⟩
  | cons first rest ih =>
    obtain ⟨comments, node', same, trivia', solid', plain⟩ :=
      ih fun comment member => trivia comment (List.mem_cons_of_mem _ member)
    refine ⟨first :: comments, node', ?_, ?_, solid', plain⟩
    · have step : Syntax.grow kind r more stop (first :: (rest ++ [node])) =
          first :: Syntax.grow kind r more stop (rest ++ [node]) := by
        cases rest <;> rfl
      rw [List.cons_append, step, same, List.cons_append]
    · intro comment member
      rcases List.mem_cons.mp member with rfl | later
      · exact trivia comment List.mem_cons_self
      · exact trivia' comment later

theorem withRole_append_singleton (comments : Forest) (node : Node) (r : Role) :
    Forest.withRole r (comments ++ [node]) = comments ++ [node.withRole r] := by
  induction comments with
  | nil => rfl
  | cons first rest ih =>
    rw [List.cons_append, List.cons_append, ← ih]
    cases rest <;> rfl

/-- A single node has the role it is given; the comments before it do not. -/
theorem Single.role {P Q : Node → Prop} {r : Role} (single : Single p) (part : Ensures Q p)
    (trivia : SparesTrivia P)
    (given : ∀ node, Q node → node.kind.isSolid = true → P (node.withRole r)) :
    Ensures P (role r p) := by
  intro cursor nodes stop read node member
  simp only [Syntax.role] at read
  split at read
  · cases read
  · next found =>
    cases read
    obtain ⟨comments, last, rfl, isComment, solid, -⟩ := single found
    rw [withRole_append_singleton] at member
    rcases List.mem_append.mp member with comment | here
    · exact trivia node (isComment node comment)
    · obtain rfl := List.mem_singleton.mp here
      exact given last (part found last (by simp)) solid

/-- The nodes of a parser of single nodes are no tokens and no declarations, with comments in front
at most. -/
theorem Single.ensures (single : Single p) :
    Ensures (fun node => node.kind ≠ .token ∧ node.kind ∉ declarationKinds
      ∧ node.role = .plain) p := by
  intro cursor nodes stop read node member
  obtain ⟨comments, last, rfl, trivia, solid, plain⟩ := single read
  rcases List.mem_append.mp member with comment | here
  · have isComment := trivia node comment
    refine ⟨?_, ?_, Node.role_of_isTrivia isComment⟩
    · simp [Node.kind_of_isTrivia isComment]
    · simp [Node.kind_of_isTrivia isComment, declarationKinds]
  · obtain rfl := List.mem_singleton.mp here
    simp only [Kind.isSolid, Bool.and_eq_true, bne_iff_ne, Bool.not_eq_true',
      List.contains_eq_mem, decide_eq_false_iff_not] at solid
    exact ⟨solid.1.1.1, solid.1.2, plain⟩

end Single

end RenderProbe.Syntax
