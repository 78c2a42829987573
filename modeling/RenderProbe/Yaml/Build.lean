import RenderProbe.Text.Base64
import RenderProbe.Yaml.Number
import RenderProbe.Yaml.Value

/-!
# Building values

The value of each node of a document. A collection is there as soon as it is met and is filled
later, in the order in which collections were met, so that it may hold itself. The pairs that a
merge key brings in come before a mapping's own, and stay there: a mapping that was merged has them
for good.

* `Build.ofScalar`: the value of a scalar.
* `Build.flatten`: a mapping without merge keys.
* `Build.fill`: what a collection holds.
* `parse`: the document of a text.
-/

namespace RenderProbe.Yaml

/-- The nodes, the values that were built of them, and the collections that are still to be
filled. -/
structure Builder where
  nodes : Array Node
  known : List (Place × Value) := []
  waiting : List Place := []
  collections : List (Place × Collection) := []
  deriving Inhabited

/-- A step that builds values. -/
abbrev Build := StateT Builder (Except Error)

namespace Build

/-- Fail for a reason that the format takes no notice of. -/
def raise {α : Type} (fault : Fault) : Build α :=
  throw (.fault fault)

/-- What may fail for such a reason. -/
def orRaise {α : Type} : Except Fault α → Build α
  | .ok a => pure a
  | .error fault => raise fault

def node (place : Place) : Build Node :=
  return (← get).nodes[place]?.getD .empty

def pairsAt (place : Place) : Build (List (Place × Place)) := do
  match (← node place).content with
  | .mapping pairs => return pairs
  | _ => throw .malformed

def update (place : Place) (change : Node → Node) : Build Unit :=
  modify fun builder => { builder with nodes := builder.nodes.modify place change }

/-! ## Scalars -/

/-- The text of a scalar. A mapping with a key for the value that it stands for has the text of that
value; one that stands for itself has none, and looking for it goes beyond any bound. -/
def scalarText : Nat → Place → Build (List Char)
  | 0, _ => raise ⟨.recursion, "maximum recursion depth exceeded"⟩
  | rounds + 1, place => do
    match (← node place).content with
    | .scalar text => return text
    | .sequence _ => throw .malformed
    | .mapping pairs =>
      match ← pairs.findM? fun (key, _) => return (← node key).kind == .value with
      | some (_, value) => scalarText rounds value
      | none => throw .malformed

/-- A truth value, in any case. -/
def truth (text : List Char) : Except Fault Bool :=
  let word := Text.lowercase (String.ofList text)
  if trueWords.contains word then .ok true
  else if falseWords.contains word then .ok false
  else .error ⟨.noKey, Text.quoted word⟩

def moment (content : Content) : Except Fault Unit :=
  match content with
  | .scalar text => match moment? text with
    | some moment => checkMoment moment
    | none => .error ⟨.noMember, "'NoneType' object has no attribute 'groupdict'"⟩
  | _ => .error ⟨.wrongType, "expected string or bytes-like object, got 'list'"⟩

/-- The value of a scalar of a type. -/
def ofScalar (kind : Kind) (content : Content) (text : List Char) : Build Value :=
  match kind with
  | .null => return .null
  | .bool => return .bool (← orRaise (truth text))
  | .int => return .int (← orRaise (readInt text))
  | .float => return .float (← orRaise (readFloat text))
  | .binary => match Text.ofBase64? text with
    | some bytes => return .binary bytes
    | none => throw .malformed
  | .timestamp => do
    orRaise (moment content)
    return .moment
  | .string => return .string (String.ofList text)
  | _ => throw .malformed

/-! ## Values of nodes -/

/-- Whether the values of a type are collections. -/
def isCollection : Kind → Bool
  | .sequence | .mapping | .set | .orderedMapping | .pairs => true
  | _ => false

/-- Whether no value has a type. -/
def isNoType : Kind → Bool
  | .merge | .value | .unknown => true
  | _ => false

/-- Build the value of a node. A collection is put behind those that wait to be filled, so that its
value is at hand before anything in it is built. -/
def newValue (place : Place) : Build Value := do
  let ⟨kind, content⟩ ← node place
  if isNoType kind then throw .malformed
  else if isCollection kind then
    modify fun builder => { builder with waiting := builder.waiting ++ [place] }
    return .collection place
  else ofScalar kind content (← scalarText ((← get).nodes.size + 1) place)

/-- The value of a node, which is built once. All aliases of a collection therefore have one value,
and a fault is met at the first place that leads to it. -/
def value (place : Place) : Build Value := do
  match (← get).known.lookup place with
  | some found => return found
  | none =>
    let built ← newValue place
    modify fun builder => { builder with known := (place, built) :: builder.known }
    return built

/-! ## Merge keys -/

/-- The place of the first merge key among pairs, with the node that it brings in. -/
def firstMerge? (pairs : List (Place × Place)) : Build (Option (Nat × Place)) := do
  let kinds ← pairs.mapM fun (key, _) => return (← node key).kind
  let index := kinds.findIdx (· == .merge)
  return pairs[index]?.map fun (_, value) => (index, value)

/-- Let a key that marks the value of a whole mapping count as the text it is. -/
def nameMark (key : Place) : Build Unit :=
  update key fun node => if node.kind == .value then { node with kind := .string } else node

/-- Take the merge keys of a mapping away and put the pairs that they bring in in front of its own.
A key is taken away before the mapping that it names is looked at, which may be the mapping itself;
so every round has one merge key less to deal with, in all mappings together. -/
def flatten : Nat → Place → List (Place × Place) → Build Unit
  | 0, _, _ => throw .malformed
  | rounds + 1, place, merged => do
    let pairs ← pairsAt place
    match ← firstMerge? pairs with
    | none =>
      pairs.forM fun (key, _) => nameMark key
      update place fun node => { node with content := .mapping (merged ++ pairs) }
    | some (index, value) =>
      update place fun node => { node with content := .mapping (pairs.eraseIdx index) }
      let flattened (source : Place) : Build (List (Place × Place)) := do
        match (← node source).content with
        | .mapping _ =>
          flatten rounds source []
          pairsAt source
        | _ => throw .malformed
      -- of several mappings the first one counts most, so it comes last
      let brought ← match (← node value).content with
        | .sequence sources => pure (← sources.mapM flattened).reverse.flatten
        | _ => flattened value
      flatten rounds place (merged ++ brought)

def pairCount (nodes : Array Node) : Nat :=
  nodes.foldl (fun count node => match node.content with
    | .mapping pairs => count + pairs.length
    | _ => count) 0

/-! ## Collections -/

def pairOf (pair : Place × Place) : Build (Value × Value) :=
  return (← value pair.1, ← value pair.2)

/-- The values of a pair of a mapping; not every value may be a key. The key is built and judged
before the value, so of two faults that of the key comes first. -/
def memberOf (pair : Place × Place) : Build (Value × Value) := do
  let key ← value pair.1
  if !key.isKey then throw .malformed
  return (key, ← value pair.2)

/-- The values of the pairs of a mapping without its merge keys. -/
def membersAt (place : Place) : Build (List (Value × Value)) := do
  match (← node place).content with
  | .mapping _ =>
    flatten (pairCount (← get).nodes + 1) place []
    (← pairsAt place).mapM memberOf
  | _ => throw .malformed

/-- The places that a sequence holds. -/
def itemsAt (place : Place) : Build (List Place) := do
  match (← node place).content with
  | .sequence items => return items
  | _ => throw .malformed

/-- The values of a pair that is written as a mapping of one key. -/
def singlePair (place : Place) : Build (Value × Value) := do
  match (← node place).content with
  | .mapping [pair] => pairOf pair
  | _ => throw .malformed

/-- What a collection of a type holds. -/
def contentOf (kind : Kind) (place : Place) : Build Collection := do
  match kind with
  | .sequence => return .sequence (← (← itemsAt place).mapM value)
  | .mapping => return .mapping (← membersAt place)
  | .set => return .set ((← membersAt place).map (·.1))
  | .orderedMapping | .pairs => return .pairs (← (← itemsAt place).mapM singlePair)
  | _ => throw .malformed

/-- Fill the collections that wait, those too that are met on the way. Each is filled once, so there
are no more of them than nodes. -/
def fillAll : Nat → Build Unit
  | 0 => pure ()
  | rounds + 1 => do
    match (← get).waiting with
    | [] => pure ()
    | place :: waiting =>
      modify fun builder => { builder with waiting }
      let held ← contentOf (← node place).kind place
      modify fun builder => { builder with collections := (place, held) :: builder.collections }
      fillAll rounds

end Build

/-! ## Texts -/

/-- The document of the nodes of a text. -/
def Document.ofGraph (graph : Graph) : Except Error Document := do
  let build : Build Value := do
    let root ← Build.value graph.root
    Build.fillAll graph.nodes.size
    return root
  let (value, builder) ← build.run { nodes := graph.nodes }
  return { value, collections := builder.collections }

/-- The document of a text; a text without one stands for nothing. -/
def parse (text : String) : Except Error Document := do
  match ← Graph.ofTokens (← tokens text.toList) with
  | some graph => Document.ofGraph graph
  | none => return { value := .null }

end RenderProbe.Yaml
