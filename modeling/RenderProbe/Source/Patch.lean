/-!
# Patches

A rewrite is a list of byte ranges and the texts that replace them. Rendering splices the texts in,
so every byte outside the ranges comes back as it was read. Insertions at one offset keep their
order and land before a replacement that starts there.
-/

namespace RenderProbe

/-- Replace the bytes from `start` to `stop` by `text`. -/
structure Patch where
  start : Int
  stop : Int
  text : String
  deriving DecidableEq, Inhabited

namespace Patch

def insert (offset : Nat) (text : String) : Patch :=
  ⟨offset, offset, text⟩

def delete (start stop : Nat) : Patch :=
  ⟨start, stop, ""⟩

def isInsertion (patch : Patch) : Bool :=
  patch.stop ≤ patch.start

/-- The order of rendering: by offset, insertions first. Of two insertions at one offset each
precedes the other, so `arrange` leaves them in the order they came in. -/
def precedes (p q : Patch) : Bool :=
  p.start < q.start || (p.start == q.start && (p.isInsertion || !q.isInsertion))

/-- Put a patch into an ordered list, before the first patch that it precedes. Since the list is
built from its end, patches that precede each other stay in their order. -/
def place (patch : Patch) : List Patch → List Patch
  | [] => [patch]
  | next :: rest =>
    if patch.precedes next then patch :: next :: rest else next :: place patch rest

/-- The patches in the order of rendering; those that precede each other keep their order. This is a
stable sort, so the rules decide which of two insertions at one place comes first. -/
def arrange (patches : List Patch) : List Patch :=
  patches.foldr place []

/-- Why patches cannot be rendered. -/
inductive Error where
  /-- The range is not a range of the source, or meets an earlier patch. -/
  | conflict (start stop : Int)
  /-- The spliced bytes are no text. -/
  | undecodable
  deriving DecidableEq

def Error.message : Error → String
  | .conflict start stop => s!"Patch {start}:{stop} overlaps a previous edit"
  | .undecodable => "the edited bytes are not valid UTF-8"

def encode (text : String) : List UInt8 :=
  text.toUTF8.data.toList

/-- The text that bytes spell, if they spell one. -/
def decode (bytes : List UInt8) : Option String :=
  String.fromUTF8? ⟨bytes.toArray⟩

/-- The text of the bytes from `start` to `stop`, empty when they spell none. The nodes of a source
start and end between characters, so for them it is the text that was read. -/
def sliceText (bytes : List UInt8) (start stop : Nat) : String :=
  (decode ((bytes.drop start).take (stop - start))).getD ""

/-- Splice ordered patches into the bytes from offset `cursor` on; `size` is the end of the source.
A patch that starts before the cursor meets an earlier one, and nothing is rendered then. -/
def splice (size cursor : Int) (rest : List UInt8) : List Patch → Except Error (List UInt8)
  | [] => .ok rest
  | patch :: others =>
    if patch.start < cursor || patch.stop < patch.start || patch.stop > size then
      .error (.conflict patch.start patch.stop)
    else
      let before := (patch.start - cursor).toNat
      let after := rest.drop (before + (patch.stop - patch.start).toNat)
      match splice size patch.stop after others with
      | .ok bytes => .ok (rest.take before ++ encode patch.text ++ bytes)
      | .error e => .error e

/-- The bytes of the source with every patch applied. -/
def apply (source : List UInt8) (patches : List Patch) : Except Error (List UInt8) :=
  splice source.length 0 source (arrange patches)

/-- The text of the source with every patch applied. The bytes are decoded again at the end, as
patches may be given that cut a character in two. -/
def render (source : List UInt8) (patches : List Patch) : Except Error String :=
  match apply source patches with
  | .error e => .error e
  | .ok bytes => match decode bytes with
    | some text => .ok text
    | none => .error .undecodable

end Patch

end RenderProbe
