import RenderProbe.Yaml.Kind
import RenderProbe.Yaml.Token

/-!
# Nodes

The tokens of a text as scalars, sequences and mappings. An alias stands for the very node that its
anchor is on, which may be a collection around the alias, so the nodes of a document are a graph:
they lie in a row, and what holds a node names its place.

* `Node`: a scalar or collection, with the places of what it holds.
* `Graph.ofTokens`: the nodes of a text.
-/

namespace RenderProbe.Yaml

/-- Where a node lies among the nodes of a document. -/
abbrev Place := Nat

/-- What a node holds. A collection names the places of what it holds, which may be its own. -/
inductive Content where
  | scalar (text : List Char)
  | sequence (items : List Place)
  | mapping (pairs : List (Place × Place))
  deriving DecidableEq, Inhabited

/-- A node of a document. -/
structure Node where
  kind : Kind
  content : Content
  deriving DecidableEq, Inhabited

namespace Node

def empty : Node :=
  ⟨.null, .scalar []⟩

/-- A scalar. Without a tag its type is found from its form, unless it stands in quotes. -/
def ofScalar (tag : Option String) (plain : Bool) (text : List Char) : Node :=
  let kind := match tag with
    | some tag => Kind.ofTag tag
    | none => if plain then Kind.ofPlain text else .string
  ⟨kind, .scalar text⟩

/-- A collection of which nothing has been read yet. -/
def collection (tag : Option String) (standard : Kind) (content : Content) : Node :=
  ⟨(tag.map Kind.ofTag).getD standard, content⟩

end Node

/-- The nodes of a document and the place of the one that holds the others. -/
structure Graph where
  nodes : Array Node
  root : Place
  deriving DecidableEq, Inhabited

/-! ## Composing -/

/-- What is left to read, with the nodes and anchors met so far. The tag handles are those of the
directives in front of the document. -/
structure Composer where
  tokens : List Token
  handles : List (String × String)
  nodes : Array Node := #[]
  anchors : List (String × Place) := []
  deriving Inhabited

/-- A step that reads tokens. -/
abbrev Compose := StateT Composer (Except Error)

namespace Compose

def head : Compose Token :=
  return (← get).tokens.head?.getD .streamEnd

def skip : Compose Unit :=
  modify fun composer => { composer with tokens := composer.tokens.drop 1 }

/-- Put a node behind the others, under its anchor if it has one. A collection is put in before its
items are read, so an alias inside it finds it. -/
def add (anchor : Option String) (node : Node) : Compose Place := do
  let composer ← get
  let place := composer.nodes.size
  let anchors := match anchor with
    | some name => (name, place) :: composer.anchors
    | none => composer.anchors
  set { composer with nodes := composer.nodes.push node, anchors }
  return place

/-- Put in what a collection holds, once its end was read. Its place stays the same. -/
def fill (place : Place) (content : Content) : Compose Unit :=
  modify fun composer =>
    { composer with nodes := composer.nodes.modify place fun node => { node with content } }

/-- The node that an alias stands for. -/
def placeOf (name : String) : Compose Place := do
  match (← get).anchors.lookup name with
  | some place => return place
  | none => throw .malformed

/-! ## Tags and anchors in front of a node -/

/-- The tag handles that need no directive. -/
def standardHandles : List (String × String) :=
  [("!", "!"), ("!!", "tag:yaml.org,2002:")]

/-- The full tag of a written one. -/
def fullTag? (handles : List (String × String)) (tag : WrittenTag) : Option String :=
  match tag.handle with
  | none => some tag.suffix
  | some handle => (handles.lookup handle).map (· ++ tag.suffix)

/-- What stands in front of a node. The tag of a single mark names no type, but lets a scalar in
quotes count as a plain one. -/
structure Properties where
  anchor : Option String := none
  tag : Option String := none

namespace Properties

/-- The tag that names a type. -/
def specific (properties : Properties) : Option String :=
  properties.tag.filter (· != "!")

def isEmpty (properties : Properties) : Bool :=
  properties.anchor.isNone && properties.tag.isNone

end Properties

/-- The anchor and tag at the front, in either order. -/
def written : List Token → (Option String × Option WrittenTag) × List Token
  | .anchor name :: .tag tag :: rest | .tag tag :: .anchor name :: rest =>
    ((some name, some tag), rest)
  | .anchor name :: rest => ((some name, none), rest)
  | .tag tag :: rest => ((none, some tag), rest)
  | tokens => ((none, none), tokens)

/-- Read the anchor and tag of a node. Two nodes with one anchor are no document. -/
def readProperties : Compose Properties := do
  let composer ← get
  let ((anchor, tag), tokens) := written composer.tokens
  if anchor.any fun name => (composer.anchors.lookup name).isSome then throw .malformed
  set { composer with tokens }
  match tag with
  | none => return { anchor }
  | some tag => match fullTag? composer.handles tag with
    | none => throw .malformed
    | some full => return { anchor, tag := some full }

/-! ## Nodes -/

/-- Put in a sequence, read by `items` once it has its place. -/
def addSequence (properties : Properties) (items : Compose (List Place)) : Compose Place := do
  let place ← add properties.anchor (.collection properties.specific .sequence (.sequence []))
  fill place (.sequence (← items))
  return place

/-- Put in a mapping, read by `pairs` once it has its place. -/
def addMapping (properties : Properties) (pairs : Compose (List (Place × Place))) :
    Compose Place := do
  let place ← add properties.anchor (.collection properties.specific .mapping (.mapping []))
  fill place (.mapping (← pairs))
  return place

def addEmpty (properties : Properties) : Compose Place :=
  if properties.isEmpty then throw .malformed
  else add properties.anchor (.ofScalar properties.specific true [])

mutual

/-- A node at the front of the tokens. Block collections may stand only in blocks, and a sequence
without indentation only as a key or value. -/
def read : Nat → Bool → Bool → Compose Place
  | 0, _, _ => throw .malformed
  | rounds + 1, block, indentless => do
    match ← head with
    | .alias name =>
      skip
      placeOf name
    | _ => readContent rounds block indentless (← readProperties)

/-- A node behind its tag and anchor. -/
def readContent : Nat → Bool → Bool → Properties → Compose Place
  | 0, _, _, _ => throw .malformed
  | rounds + 1, block, indentless, properties => do
    match ← head with
    | .scalar text plain =>
      skip
      add properties.anchor
        (.ofScalar properties.specific (plain || properties.tag == some "!") text)
    | .flowSequenceStart =>
      skip
      addSequence properties (readFlowSequence rounds true)
    | .flowMappingStart =>
      skip
      addMapping properties (readFlowMapping rounds true)
    | .blockEntry =>
      if indentless then addSequence properties (readIndentless rounds) else addEmpty properties
    | .blockSequenceStart =>
      if !block then addEmpty properties
      else
        skip
        addSequence properties (readBlockSequence rounds)
    | .blockMappingStart =>
      if !block then addEmpty properties
      else
        skip
        addMapping properties (readBlockMapping rounds)
    | _ => addEmpty properties

/-- A node, or the empty one where one of the given tokens comes next. -/
def readUnless : Nat → Bool → Bool → List Token → Compose Place
  | 0, _, _, _ => throw .malformed
  | rounds + 1, block, indentless, stops => do
    if stops.contains (← head) then add none .empty else read rounds block indentless

/-- The items of a block sequence. -/
def readBlockSequence : Nat → Compose (List Place)
  | 0 => throw .malformed
  | rounds + 1 => do
    match ← head with
    | .blockEntry =>
      skip
      let item ← readUnless rounds true false [.blockEntry, .blockEnd]
      return item :: (← readBlockSequence rounds)
    | .blockEnd =>
      skip
      return []
    | _ => throw .malformed

/-- The items of a sequence without indentation. -/
def readIndentless : Nat → Compose (List Place)
  | 0 => throw .malformed
  | rounds + 1 => do
    match ← head with
    | .blockEntry =>
      skip
      let item ← readUnless rounds true false [.blockEntry, .key, .value, .blockEnd]
      return item :: (← readIndentless rounds)
    | _ => return []

/-- The value after a key that one of the given tokens ends. -/
def readValue : Nat → Bool → List Token → Compose Place
  | 0, _, _ => throw .malformed
  | rounds + 1, block, stops => do
    match ← head with
    | .value =>
      skip
      readUnless rounds block block stops
    | _ => add none .empty

/-- The pairs of a block mapping. -/
def readBlockMapping : Nat → Compose (List (Place × Place))
  | 0 => throw .malformed
  | rounds + 1 => do
    match ← head with
    | .key =>
      skip
      let key ← readUnless rounds true true [.key, .value, .blockEnd]
      let value ← readValue rounds true [.key, .value, .blockEnd]
      return (key, value) :: (← readBlockMapping rounds)
    | .blockEnd =>
      skip
      return []
    | _ => throw .malformed

/-- The items of a flow sequence; a lone pair is a mapping of its own. -/
def readFlowSequence : Nat → Bool → Compose (List Place)
  | 0, _ => throw .malformed
  | rounds + 1, first => do
    if !first && !([.flowEntry, .flowSequenceEnd].contains (← head)) then throw .malformed
    if !first && (← head) == .flowEntry then skip
    match ← head with
    | .flowSequenceEnd =>
      skip
      return []
    | .key =>
      skip
      let pair : Compose (List (Place × Place)) := do
        let key ← readUnless rounds false false [.value, .flowEntry, .flowSequenceEnd]
        let value ← readValue rounds false [.flowEntry, .flowSequenceEnd]
        return [(key, value)]
      let item ← addMapping {} pair
      return item :: (← readFlowSequence rounds false)
    | _ =>
      let item ← read rounds false false
      return item :: (← readFlowSequence rounds false)

/-- The pairs of a flow mapping; a lone node is a key. -/
def readFlowMapping : Nat → Bool → Compose (List (Place × Place))
  | 0, _ => throw .malformed
  | rounds + 1, first => do
    if !first && !([.flowEntry, .flowMappingEnd].contains (← head)) then throw .malformed
    if !first && (← head) == .flowEntry then skip
    match ← head with
    | .flowMappingEnd =>
      skip
      return []
    | .key =>
      skip
      let key ← readUnless rounds false false [.value, .flowEntry, .flowMappingEnd]
      let value ← readValue rounds false [.flowEntry, .flowMappingEnd]
      return (key, value) :: (← readFlowMapping rounds false)
    | _ =>
      let key ← read rounds false false
      let value ← add none .empty
      return (key, value) :: (← readFlowMapping rounds false)

end

end Compose

/-! ## Documents -/

namespace Graph

/-- Take the directives in front of a document, which give the tag handles. -/
def directives : Bool → List (String × String) → List Token →
    Except Error (List (String × String) × List Token)
  | versioned, handles, .directive directive :: rest => match directive with
    | .version major =>
      if versioned || major != 1 then .error .malformed else directives true handles rest
    | .tag handle uri =>
      if (handles.lookup handle).isSome then .error .malformed
      else directives versioned ((handle, uri) :: handles) rest
    | .other => directives versioned handles rest
  | _, handles, tokens => .ok (handles ++ Compose.standardHandles, tokens)

/-- Whether nothing but ends of documents is left. -/
def isEnd (tokens : List Token) : Bool :=
  (tokens.dropWhile (· == .documentEnd)).head? == some .streamEnd

/-- The nodes of a document with the given tag handles; nothing may follow the document. -/
def ofContent (handles : List (String × String)) (tokens : List Token) : Except Error Graph := do
  let (root, composer) ← (Compose.read (4 * tokens.length + 4) true false).run { tokens, handles }
  if isEnd composer.tokens then return { nodes := composer.nodes, root } else throw .malformed

/-- Whether a token ends a document that has no content. -/
def endsEmptyDocument : Token → Bool
  | .directive _ | .documentStart | .documentEnd | .streamEnd => true
  | _ => false

/-- The nodes of a text's one document; a text without document has none. -/
def ofTokens (tokens : List Token) : Except Error (Option Graph) :=
  match tokens.head? with
  | none | some .streamEnd => .ok none
  | some (.directive _) | some .documentStart => match directives false [] tokens with
    | .error e => .error e
    | .ok (handles, .documentStart :: content) =>
      if !content.head?.all endsEmptyDocument then (ofContent handles content).map some
      else if isEnd content then .ok (some { nodes := #[.empty], root := 0 })
      else .error .malformed
    | .ok _ => .error .malformed
  | _ => (ofContent Compose.standardHandles tokens).map some

end Graph

end RenderProbe.Yaml
