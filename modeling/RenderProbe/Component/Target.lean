/-!
# Wrap targets

A component is addressed by its file and its name with two colons between them.
-/

namespace RenderProbe.Component

/-- The characters before the first two colons and those after them. -/
def cutAtColons : List Char → Option (List Char × List Char)
  | ':' :: ':' :: rest => some ([], rest)
  | c :: rest => (cutAtColons rest).map fun (before, after) => (c :: before, after)
  | [] => none

/-- The file and the name of a target. A target without colons has only a file, and so has one
without a name after them. The first two colons in a row count, so only the name may hold such a
pair. -/
def splitTarget (target : String) : String × Option String :=
  match cutAtColons target.toList with
  | none => (target, none)
  | some (file, name) =>
    (String.ofList file, if name.isEmpty then none else some (String.ofList name))

end RenderProbe.Component
