import RenderProbe.Decimal.Shortest
import RenderProbe.Yaml.Node

/-!
# Values

What a document stands for. A collection may hold itself, by an alias, so a value names a collection
by its place, and the document has what each of them holds.

* `Document.holds?`: what a value holds.
* `Value.lookup?`: the value of a key.
-/

namespace RenderProbe.Yaml

open Decimal (Double)

/-- A value. Two collections are the same exactly if they have the same place, whatever they
hold. -/
inductive Value where
  | null
  | bool (value : Bool)
  | int (value : Int)
  | float (value : Double)
  | string (value : String)
  | binary (bytes : List Nat)
  | moment
  | collection (place : Place)
  deriving DecidableEq, Inhabited

/-- What a collection holds. Of pairs with one key the last counts. -/
inductive Collection where
  | sequence (items : List Value)
  | mapping (pairs : List (Value × Value))
  | set (keys : List Value)
  /-- A sequence of pairs, each of which is a value of its own. -/
  | pairs (pairs : List (Value × Value))
  deriving DecidableEq, Inhabited

/-- The value of a text, with the collections in it. -/
structure Document where
  value : Value
  collections : List (Place × Collection) := []
  deriving DecidableEq, Inhabited

namespace Value

/-- Whether a value may be a key. -/
def isKey : Value → Bool
  | collection _ => false
  | _ => true

/-- The value of a key that is a text, in pairs. The last pair with the key counts, as a later one
overwrites it. -/
def lookup? (key : String) (pairs : List (Value × Value)) : Option Value :=
  (pairs.reverse.find? fun pair => pair.1 == .string key).map (·.2)

end Value

/-- Whether a collection holds nothing. -/
def Collection.isEmpty : Collection → Bool
  | .sequence items => items.isEmpty
  | .mapping held | .pairs held => held.isEmpty
  | .set keys => keys.isEmpty

namespace Document

/-- What a value holds, if it is a collection. Values name their collections by place, so this is
the only way from a value to what is in it. -/
def holds? (document : Document) : Value → Option Collection
  | .collection place => document.collections.lookup place
  | _ => none

def pairs? (document : Document) (value : Value) : Option (List (Value × Value)) :=
  match document.holds? value with
  | some (.mapping pairs) => some pairs
  | _ => none

/-- Whether a value counts as nothing: zero, false, or empty. A moment never does, and neither does
the value that is no number. -/
def isEmpty (document : Document) (value : Value) : Bool :=
  match value with
  | .null => true
  | .bool value => !value
  | .int value => value == 0
  | .float value => value.isZero
  | .string value => value == ""
  | .binary bytes => bytes.isEmpty
  | .moment => false
  | .collection _ => (document.holds? value).any Collection.isEmpty

end Document

end RenderProbe.Yaml
