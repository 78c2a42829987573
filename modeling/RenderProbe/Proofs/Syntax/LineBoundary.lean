import RenderProbe.Proofs.Source.Boundary
import RenderProbe.Proofs.Syntax.Reading
import RenderProbe.Proofs.Text.LineStyle

/-!
# Nodes and line breaks

A line break of two characters has an inside, and an edit that starts or stops there breaks it. A
node sits in its source when neither it nor a node in it starts or stops inside a line break.

* `Cut`: an offset between two characters that is not inside a line break.
* `Cursor.Stands`: a cursor at a cut. A parser may be started inside a line break, so a cursor that
  has not moved yet is exempt; the offset where it was started is the floor.
* `Yields`: what a parser reads between two cursors sits in the source.
* `Cursor.sits_skipTrivia`: the comments between two tokens do, and the next token is at a cut.
-/

namespace RenderProbe.Syntax

open Patch (Boundary)
open Text (Parts StyledText not_parts_of_head? not_parts_of_notMem not_parts_nil parts_append)

/-! ## Offsets -/

/-- How many bytes characters take. -/
def width (text : List Char) : Nat :=
  (String.ofList text).utf8ByteSize

theorem width_append (first second : List Char) :
    width (first ++ second) = width first + width second := by
  rw [width, String.ofList_append, String.utf8ByteSize_append]
  rfl

theorem width_singleton (c : Char) : width [c] = c.utf8Size :=
  String.utf8ByteSize_singleton

theorem eq_nil_of_width {text : List Char} (zero : width text = 0) : text = [] := by
  simpa using congrArg String.toList (String.utf8ByteSize_eq_zero_iff.mp zero)

/-- Of two places of a text the one with fewer bytes before it comes first. -/
theorem exists_between {before after before' after' : List Char}
    (split : before ++ after = before' ++ after') (le : width before ≤ width before') :
    ∃ middle, before' = before ++ middle ∧ after = middle ++ after' := by
  rcases List.append_eq_append_iff.mp split with found | ⟨middle, rfl, rfl⟩
  · exact found
  · rw [width_append] at le
    have empty : middle = [] := eq_nil_of_width (by omega)
    exact ⟨[], by simp [empty], by simp [empty]⟩

/-- An offset between two characters of a text, not inside a line break. -/
def Cut (text : List Char) (offset : Nat) : Prop :=
  ∃ before after, text = before ++ after ∧ offset = width before ∧ ¬ Parts before after

theorem cut_zero (text : List Char) : Cut text 0 :=
  ⟨[], text, rfl, rfl, not_parts_nil text⟩

theorem boundary_iff {text : List Char} {offset : Nat} :
    Boundary (String.ofList text) offset ↔
      ∃ before after, text = before ++ after ∧ offset = width before := by
  rw [Boundary, String.Pos.Raw.isValid_iff_exists_append]
  constructor
  · rintro ⟨front, back, split, place⟩
    refine ⟨front.toList, back.toList, ?_, ?_⟩
    · simpa using congrArg String.toList split
    · rw [width, String.ofList_toList]
      exact congrArg String.Pos.Raw.byteIdx place
  · rintro ⟨before, after, rfl, rfl⟩
    exact ⟨String.ofList before, String.ofList after, String.ofList_append, rfl⟩

/-- Without carriage returns no line break has an inside. -/
theorem cut_of_boundary {text : List Char} {offset : Nat}
    (boundary : Boundary (String.ofList text) offset) (plain : '\r' ∉ text) : Cut text offset := by
  obtain ⟨before, after, rfl, place⟩ := boundary_iff.mp boundary
  have plainBefore : '\r' ∉ before := fun member => plain (List.mem_append_left _ member)
  exact ⟨before, after, rfl, place, not_parts_of_notMem plainBefore⟩

/-- The node and all nodes in it start and stop at cuts of the source, and what they spell is of its
style. -/
inductive Node.Sits (source : StyledText) : Node → Prop
  | mk {node : Node} (start : Cut source.text node.span.start)
      (stop : Cut source.text node.span.stop)
    (lexeme : source.style.Keeps node.lexeme.toList)
    (children : ∀ child ∈ node.children, child.Sits source) : node.Sits source

section Sits

variable {source : StyledText} {node : Node}

theorem Node.Sits.start (sits : node.Sits source) : Cut source.text node.span.start := by
  cases sits
  assumption

theorem Node.Sits.stop (sits : node.Sits source) : Cut source.text node.span.stop := by
  cases sits
  assumption

theorem Node.Sits.lexeme (sits : node.Sits source) : source.style.Keeps node.lexeme.toList := by
  cases sits
  assumption

theorem Node.Sits.children (sits : node.Sits source) :
    ∀ child ∈ node.children, child.Sits source := by
  cases sits
  assumption

theorem Node.Sits.withRole (sits : node.Sits source) (role : Role) :
    (node.withRole role).Sits source :=
  .mk sits.start sits.stop sits.lexeme sits.children

theorem Node.Sits.child {child : Node} {role : Role} (sits : node.Sits source)
    (found : node.child? role = some child) : child.Sits source :=
  sits.children child (List.mem_of_find?_eq_some found)

mutual

theorem Node.Sits.unwrap {inner : Node} :
    ∀ node : Node, node.Sits source → node.unwrap = some inner → inner.Sits source
  | ⟨kind, role, span, lexeme, children⟩, sits, unwrapped => by
    rw [Node.unwrap] at unwrapped
    split at unwrapped
    · exact Node.sits_unwrapFirst children sits.children unwrapped
    · obtain rfl := Option.some.inj unwrapped
      exact sits

theorem Node.sits_unwrapFirst {inner : Node} :
    ∀ nodes : List Node, (∀ node ∈ nodes, node.Sits source) →
    Node.unwrapFirst nodes = some inner → inner.Sits source
  | [], _, unwrapped => by cases unwrapped
  | node :: rest, sit, unwrapped => by
    rw [Node.unwrapFirst] at unwrapped
    split at unwrapped
    · exact Node.Sits.unwrap node (sit node List.mem_cons_self) unwrapped
    · exact Node.sits_unwrapFirst rest
        (fun other later => sit other (List.mem_cons_of_mem _ later)) unwrapped

end

end Sits

/-! ## Cursors -/

/-- The cursor stands in a text behind the given characters. -/
structure Cursor.At (text before : List Char) (cursor : Cursor) : Prop where
  split : text = before ++ cursor.rest
  offset : cursor.offset = width before

/-- The cursor stands in a text at or behind a floor, and not inside a line break unless at the
floor. -/
structure Cursor.Stands (text : List Char) (floor : Nat) (cursor : Cursor) : Prop where
  placed : ∃ before, cursor.At text before
  behind : floor ≤ cursor.offset
  whole : ∀ before, cursor.At text before → Parts before cursor.rest → cursor.offset = floor

section Cursors

variable {text before other rest : List Char} {floor offset : Nat}
  {cursor start : Cursor} {c : Char}

theorem Cursor.At.unique (here : cursor.At text before) (here' : cursor.At text other) :
    before = other :=
  List.append_cancel_right (here.split.symm.trans here'.split)

theorem Cursor.At.skip (here : cursor.At text before) (next : cursor.rest = c :: rest) :
    (cursor.skip c rest).At text (before ++ [c]) where
  split := by
    rw [here.split, next, List.append_assoc]
    rfl
  offset := by
    rw [width_append, width_singleton, ← here.offset]
    rfl

theorem Cursor.At.advance (here : cursor.At text before) (n : Nat) :
    (cursor.advance n).At text (before ++ cursor.rest.take n)
      ∧ (cursor.advance n).rest = cursor.rest.drop n := by
  induction n generalizing cursor before with
  | zero => simpa [Cursor.advance] using here
  | succ n ih =>
    unfold Cursor.advance
    split
    · next empty => simpa [empty] using here
    · next c rest next =>
      have further := ih (here.skip next)
      rw [next]
      simpa [Cursor.skip] using further

/-- Behind a part of a text that ends no line break halfway. -/
theorem Cursor.At.stands (here : cursor.At text before) (behind : floor ≤ cursor.offset)
    (whole : ¬ Parts before cursor.rest) : cursor.Stands text floor where
  placed := ⟨before, here⟩
  behind
  whole := fun _ here' parts => absurd (here.unique here' ▸ parts) whole

theorem Cursor.At.cut (here : cursor.At text before) (whole : ¬ Parts before cursor.rest) :
    Cut text cursor.offset :=
  ⟨before, cursor.rest, here.split, here.offset, whole⟩

/-- Behind a cut no cursor stands inside a line break. -/
theorem Cursor.Stands.cut (stands : cursor.Stands text floor) (starts : Cut text offset)
    (behind : floor ≤ offset) (le : offset ≤ cursor.offset) : Cut text cursor.offset := by
  obtain ⟨before, here⟩ := stands.placed
  by_cases parts : Parts before cursor.rest
  · have atFloor := stands.whole before here parts
    rwa [show cursor.offset = offset by omega]
  · exact here.cut parts

/-- The start of a text is not inside a line break, so with the floor there no cursor is exempt. -/
theorem Cursor.Stands.not_parts (stands : cursor.Stands text 0) (here : cursor.At text before) :
    ¬ Parts before cursor.rest := by
  intro parts
  have atStart : width before = 0 := by rw [← here.offset, stands.whole before here parts]
  exact not_parts_nil _ (eq_nil_of_width atStart ▸ parts)

theorem Cursor.Stands.raise (stands : cursor.Stands text 0) (behind : floor ≤ cursor.offset) :
    cursor.Stands text floor := by
  obtain ⟨before, here⟩ := stands.placed
  exact here.stands behind (stands.not_parts here)

end Cursors

/-! ## Rows of nodes -/

/-- The nodes between two cursors sit in the source, and the second cursor stands in it. What a
parser yields is judged by this, rule by rule. -/
structure Yields (source : StyledText) (floor : Nat) (cursor : Cursor) (nodes : Forest)
    (stop : Cursor) : Prop where
  behind : floor ≤ cursor.offset
  ahead : cursor.offset ≤ stop.offset
  stands : stop.Stands source.text floor
  sits : ∀ node ∈ nodes, node.Sits source
  starts : ∀ node ∈ nodes, cursor.offset ≤ node.span.start ∧ node.span.start ≤ stop.offset

section Yields

variable {source : StyledText} {floor : Nat} {cursor next stop start : Cursor}
  {nodes others : Forest} {node : Node} {before lexeme : List Char}

theorem Yields.nil (stands : cursor.Stands source.text floor) :
    Yields source floor cursor [] cursor where
  behind := stands.behind
  ahead := Nat.le_refl _
  stands
  sits := by simp
  starts := by simp

theorem Yields.append (first : Yields source floor cursor nodes next)
    (second : Yields source floor next others stop) :
    Yields source floor cursor (nodes ++ others) stop where
  behind := first.behind
  ahead := Nat.le_trans first.ahead second.ahead
  stands := second.stands
  sits node member := (List.mem_append.mp member).elim (first.sits node) (second.sits node)
  starts node member := by
    have ahead := first.ahead
    have ahead' := second.ahead
    rcases List.mem_append.mp member with here | later
    · have starts := first.starts node here
      omega
    · have starts := second.starts node later
      omega

theorem Yields.subset (yields : Yields source floor cursor nodes stop)
    (part : ∀ node ∈ others, node ∈ nodes) : Yields source floor cursor others stop where
  behind := yields.behind
  ahead := yields.ahead
  stands := yields.stands
  sits node member := yields.sits node (part node member)
  starts node member := yields.starts node (part node member)

theorem Yields.raise (yields : Yields source 0 cursor nodes stop) (behind : floor ≤ cursor.offset) :
    Yields source floor cursor nodes stop where
  behind
  ahead := yields.ahead
  stands := yields.stands.raise (Nat.le_trans behind yields.ahead)
  sits := yields.sits
  starts := yields.starts

/-- A leaf sits in the source when it starts and stops at no line break. -/
theorem sits_leaf (kind : Kind) (starts : start.At source.text before)
    (stops : stop.At source.text (before ++ lexeme)) (whole : ¬ Parts before start.rest)
    (whole' : ¬ Parts (before ++ lexeme) stop.rest) :
    Node.Sits source ⟨kind, .plain, start.spanTo stop, String.ofList lexeme, []⟩ := by
  have same : start.rest = lexeme ++ stop.rest := by
    refine List.append_cancel_left (starts.split.symm.trans ?_)
    rw [stops.split, List.append_assoc]
  have keeps := source.keeps
  rw [stops.split] at keeps
  refine .mk (starts.cut whole) (stops.cut whole') ?_ (by simp)
  rw [String.toList_ofList]
  exact keeps.middle (same ▸ whole) whole'

end Yields

/-! ## Comments -/

/-- The comments read so far sit in the source, those of the first line too. -/
structure TriviaSoFar.Sits (source : StyledText) (floor : Nat) (cursor : Cursor)
    (soFar : TriviaSoFar) : Prop where
  comments : Yields source floor cursor soFar.comments soFar.lastEnd
  firstLine : ∀ line ∈ soFar.firstLine, Yields source floor cursor line.1 line.2

/-- A comment is open: it has been read from a slash behind the last comment up to a cursor. -/
structure TriviaSoFar.Opens (text : List Char) (soFar : TriviaSoFar) (start : Cursor)
    (read : List Char) (cursor : Cursor) : Prop where
  placed : ∃ before, start.At text before ∧ cursor.At text (before ++ read.reverse)
  slash : start.rest.head? = some '/'
  nonempty : read ≠ []
  behind : soFar.lastEnd.offset ≤ start.offset

/-- What is known while trivia is read. -/
def TriviaState.Holds (text : List Char) (soFar : TriviaSoFar) (cursor : Cursor) :
    TriviaState → Prop
  | .between => (∃ before, cursor.At text before) ∧ soFar.lastEnd.offset ≤ cursor.offset
  | .lineComment start read => soFar.Opens text start read cursor ∧ '\r' ∉ read
  | .blockComment start read => soFar.Opens text start read cursor

/-- Skipping trivia gives comments and a cursor that stands at no line feed. A comment never ends
inside a pair of line ends, as it does not take in the first of them. -/
structure Trivia.Sits (source : StyledText) (floor : Nat) (cursor : Cursor)
    (trivia : Trivia) : Prop where
  comments : Yields source floor cursor trivia.comments trivia.next
  token : trivia.next.rest.head? ≠ some '\n'
  trailing : ∀ line ∈ trivia.trailing, Yields source floor cursor line.1 line.2

section Comments

variable {source : StyledText} {floor : Nat} {first cursor start stop next : Cursor}
  {soFar : TriviaSoFar} {read rest : List Char} {c : Char}

theorem TriviaSoFar.Opens.ahead (opens : soFar.Opens source.text start read cursor) :
    start.offset ≤ cursor.offset := by
  obtain ⟨before, starts, stops⟩ := opens.placed
  rw [starts.offset, stops.offset, width_append]
  omega

/-- One more character of a comment. -/
theorem TriviaSoFar.Opens.skip (opens : soFar.Opens source.text start read cursor)
    (here : cursor.rest = c :: rest) :
    soFar.Opens source.text start (c :: read) (cursor.skip c rest) where
  placed := by
    obtain ⟨before, starts, stops⟩ := opens.placed
    refine ⟨before, starts, ?_⟩
    rw [List.reverse_cons, ← List.append_assoc]
    exact stops.skip here
  slash := opens.slash
  nonempty := List.cons_ne_nil _ _
  behind := opens.behind

/-- A comment that ends with anything but a carriage return sits in the source. -/
theorem TriviaSoFar.Sits.addComment (sits : soFar.Sits source floor first)
    (opens : soFar.Opens source.text start read cursor) (ends : read.head? ≠ some '\r') :
    (soFar.addComment start cursor read).Sits source floor first where
  comments := by
    have ahead := sits.comments.ahead
    have reached := opens.ahead
    have behind := opens.behind
    have behindFloor := sits.comments.stands.behind
    obtain ⟨before, starts, stops⟩ := opens.placed
    have whole : ¬ Parts (before ++ read.reverse) cursor.rest := by
      rw [parts_append (by simpa using opens.nonempty)]
      exact fun parts => ends (by simpa using parts.1)
    have whole' : ¬ Parts before start.rest := not_parts_of_head? (by simp [opens.slash])
    exact {
      behind := sits.comments.behind
      ahead := by dsimp only [TriviaSoFar.addComment]; omega
      stands := stops.stands (by omega) whole
      sits := fun node member => by
        rcases List.mem_cons.mp member with rfl | earlier
        · exact sits_leaf .comment starts stops whole' whole
        · exact sits.comments.sits node earlier
      starts := fun node member => by
        rcases List.mem_cons.mp member with rfl | earlier
        · exact ⟨Nat.le_trans ahead behind, reached⟩
        · obtain ⟨low, high⟩ := sits.comments.starts node earlier
          exact ⟨low, Nat.le_trans high (Nat.le_trans behind reached)⟩ }
  firstLine := sits.firstLine

theorem TriviaSoFar.Sits.endLine (sits : soFar.Sits source floor first) :
    soFar.endLine.Sits source floor first := by
  refine ⟨sits.comments, fun line noted => ?_⟩
  simp only [TriviaSoFar.endLine] at noted
  cases found : soFar.firstLine with
  | some earlier =>
    rw [found] at noted
    obtain rfl : earlier = line := by simpa using noted
    exact sits.firstLine earlier (by simp [found])
  | none =>
    rw [found] at noted
    obtain rfl : (soFar.comments.reverse, soFar.lastEnd) = line := by simpa using noted
    exact sits.comments.subset fun node => List.mem_reverse.mp

theorem TriviaSoFar.Sits.finish (sits : soFar.Sits source floor first)
    (placed : ∃ before, next.At source.text before) (behind : soFar.lastEnd.offset ≤ next.offset)
    (token : next.rest.head? ≠ some '\n') (unclosed : Bool) :
    (soFar.finish next unclosed).Sits source floor first where
  comments := by
    have ahead := sits.comments.ahead
    have behindFloor := sits.comments.stands.behind
    obtain ⟨before, here⟩ := placed
    exact {
      behind := sits.comments.behind
      ahead := Nat.le_trans ahead behind
      stands := here.stands (Nat.le_trans behindFloor behind) (not_parts_of_head? token)
      sits := fun node member => sits.comments.sits node (List.mem_reverse.mp member)
      starts := fun node member => by
        obtain ⟨low, high⟩ := sits.comments.starts node (List.mem_reverse.mp member)
        exact ⟨low, Nat.le_trans high behind⟩ }
  token
  trailing line noted := by
    simp only [TriviaSoFar.finish] at noted
    split at noted
    · exact sits.endLine.firstLine line noted
    · exact sits.firstLine line noted

theorem TriviaState.Holds.placed {state : TriviaState}
    (holds : state.Holds source.text soFar cursor) :
    ∃ before, cursor.At source.text before := by
  cases state with
  | between => exact holds.1
  | lineComment start read =>
    obtain ⟨before, -, here⟩ := holds.1.placed
    exact ⟨_, here⟩
  | blockComment start read =>
    obtain ⟨before, -, here⟩ := TriviaSoFar.Opens.placed holds
    exact ⟨_, here⟩

theorem Cursor.At.between_skip (placed : ∃ before, cursor.At source.text before)
    (here : cursor.rest = c :: rest) (behind : soFar.lastEnd.offset ≤ cursor.offset) :
    TriviaState.between.Holds source.text soFar (cursor.skip c rest) := by
  obtain ⟨before, at_⟩ := placed
  exact ⟨⟨_, at_.skip here⟩, Nat.le_trans behind (Nat.le_add_right _ _)⟩

/-- A comment that starts at a slash. -/
theorem opens_of_slash (placed : ∃ before, cursor.At source.text before)
    (here : cursor.rest = '/' :: rest) (behind : soFar.lastEnd.offset ≤ cursor.offset) :
    soFar.Opens source.text cursor ['/'] (cursor.skip '/' rest) where
  placed := by
    obtain ⟨before, at_⟩ := placed
    exact ⟨before, at_, at_.skip here⟩
  slash := by rw [here]; rfl
  nonempty := List.cons_ne_nil _ _
  behind

/-- Trivia that is read from the given characters on sits in the source, in whatever state the
characters before them have left. -/
def SitsFrom (source : StyledText) (floor : Nat) (first : Cursor) (rest : List Char) : Prop :=
  ∀ {state : TriviaState} {soFar : TriviaSoFar} {cursor : Cursor}, soFar.Sits source floor first →
    state.Holds source.text soFar cursor → cursor.rest = rest →
    (readTrivia state soFar cursor rest).Sits source floor first

theorem sitsFrom_nil : SitsFrom source floor first [] := by
  intro state soFar cursor sits holds here
  have isCursor : (⟨[], cursor.offset, cursor.row⟩ : Cursor) = cursor := by rw [← here]
  cases state with
  | between =>
    simp only [readTrivia, isCursor]
    exact sits.finish holds.1 holds.2 (by simp [here]) _
  | lineComment start read =>
    simp only [readTrivia, isCursor]
    have ends : read.head? ≠ some '\r' := fun last => holds.2 (List.mem_of_head? last)
    exact (sits.addComment holds.1 ends).finish holds.placed (Nat.le_refl _) (by simp [here]) _
  | blockComment start read =>
    simp only [readTrivia, isCursor]
    have opens : soFar.Opens source.text start read cursor := holds
    exact sits.finish holds.placed (Nat.le_trans opens.behind opens.ahead) (by simp [here]) _

theorem SitsFrom.between (further : SitsFrom source floor first rest)
    (sits : soFar.Sits source floor first)
    (holds : TriviaState.between.Holds source.text soFar cursor) (here : cursor.rest = c :: rest) :
    (readTrivia .between soFar cursor (c :: rest)).Sits source floor first := by
  obtain ⟨placed, behind⟩ := holds
  have skipped := Cursor.At.between_skip placed here behind
  simp only [readTrivia]
  split
  · exact further sits.endLine (Cursor.At.between_skip placed here behind) rfl
  · next notFeed =>
    split
    · exact further sits skipped rfl
    · split
      · next slashes =>
        simp only [Bool.and_eq_true, beq_iff_eq] at slashes
        obtain ⟨rfl, -⟩ := slashes
        exact further sits ⟨opens_of_slash placed here behind, by simp⟩ rfl
      · split
        · next slashes =>
          simp only [Bool.and_eq_true, beq_iff_eq] at slashes
          obtain ⟨rfl, -⟩ := slashes
          exact further sits (opens_of_slash placed here behind) rfl
        · refine sits.finish placed behind ?_ _
          rw [here]
          simpa using notFeed

theorem SitsFrom.lineComment {start : Cursor} {read : List Char}
    (further : SitsFrom source floor first rest) (sits : soFar.Sits source floor first)
    (holds : (TriviaState.lineComment start read).Holds source.text soFar cursor)
    (here : cursor.rest = c :: rest) :
    (readTrivia (.lineComment start read) soFar cursor (c :: rest)).Sits source floor first := by
  obtain ⟨opens, plain⟩ := holds
  have ends : read.head? ≠ some '\r' := fun last => plain (List.mem_of_head? last)
  obtain ⟨before, -, placed⟩ := opens.placed
  simp only [readTrivia]
  split
  · exact further (sits.addComment opens ends).endLine
      (Cursor.At.between_skip ⟨_, placed⟩ here (Nat.le_refl _)) rfl
  · split
    · exact further (sits.addComment opens ends)
        (Cursor.At.between_skip ⟨_, placed⟩ here (Nat.le_refl _)) rfl
    · next inLine =>
      refine further sits ⟨opens.skip here, fun member => ?_⟩ rfl
      rcases List.mem_cons.mp member with rfl | earlier
      · exact inLine rfl
      · exact plain earlier

theorem SitsFrom.blockComment {start : Cursor} {read : List Char}
    (further : SitsFrom source floor first rest) (sits : soFar.Sits source floor first)
    (holds : (TriviaState.blockComment start read).Holds source.text soFar cursor)
    (here : cursor.rest = c :: rest) :
    (readTrivia (.blockComment start read) soFar cursor (c :: rest)).Sits source floor first := by
  have opens := TriviaSoFar.Opens.skip holds here
  obtain ⟨before, -, placed⟩ := opens.placed
  simp only [readTrivia]
  split
  · next closes =>
    simp only [Bool.and_eq_true, beq_iff_eq] at closes
    obtain ⟨⟨rfl, -⟩, -⟩ := closes
    exact further (sits.addComment opens (by simp)) ⟨⟨_, placed⟩, Nat.le_refl _⟩ rfl
  · exact further sits opens rfl

/-- What trivia is read sits in the source; each character is read in the state that the one before
it left. -/
theorem readTrivia_sits (rest : List Char) : SitsFrom source floor first rest := by
  induction rest with
  | nil => exact sitsFrom_nil
  | cons c rest ih =>
    intro state soFar cursor sits holds here
    cases state with
    | between => exact ih.between sits holds here
    | lineComment => exact ih.lineComment sits holds here
    | blockComment => exact ih.blockComment sits holds here

/-- The next token is at a cut, wherever trivia was started. -/
theorem Trivia.Sits.stands {trivia : Trivia} (sits : trivia.Sits source floor cursor) :
    trivia.next.Stands source.text 0 := by
  obtain ⟨before, here⟩ := sits.comments.stands.placed
  exact here.stands (Nat.zero_le _) (not_parts_of_head? sits.token)

/-- The comments between two tokens sit in the source, and the next token stands at no line feed. By
induction on the characters, with the comments read so far as what is kept. -/
theorem Cursor.sits_skipTrivia (stands : cursor.Stands source.text floor) :
    cursor.skipTrivia.Sits source floor cursor :=
  readTrivia_sits _ ⟨.nil stands, by simp⟩ ⟨stands.placed, Nat.le_refl _⟩ rfl

end Comments

end RenderProbe.Syntax
