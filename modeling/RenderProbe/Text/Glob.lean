/-!
# Wildcard patterns

Shell wildcards: `*` stands for any characters, `?` for one, and brackets for one out of a set. The
slash is a character like any other.

* `Glob.ofChars` reads a pattern; a bracket that is never closed stands for itself.
* `Glob.accepts` matches a whole text.
-/

namespace RenderProbe.Text

/-- One part of a wildcard pattern. -/
inductive GlobPart where
  | char (c : Char)
  | anyChar
  | anyText
  /-- One character in one of the ranges, or in none of them. -/
  | oneOf (negated : Bool) (ranges : List (Char × Char))
  deriving DecidableEq, Inhabited

/-- A wildcard pattern. -/
abbrev Glob := List GlobPart

namespace Glob

/-- The ranges in a set; a range that runs backwards holds nothing. A hyphen at the start or the end
of a set stands for itself. -/
def ranges : List Char → List (Char × Char)
  | first :: '-' :: last :: rest =>
    if first ≤ last then (first, last) :: ranges rest else ranges rest
  | c :: rest => (c, c) :: ranges rest
  | [] => []

/-- The set after an opening bracket, whether it is negated, and the rest after the closing bracket.
A closing bracket that comes first belongs to the set. -/
def set? (text : List Char) : Option (Bool × List Char × List Char) :=
  let (negated, body) := match text with
    | '!' :: rest => (true, rest)
    | _ => (false, text)
  let (lead, tail) := match body with
    | ']' :: rest => ([']'], rest)
    | _ => ([], body)
  match tail.dropWhile (· != ']') with
  | [] => none
  | _ :: rest => some (negated, lead ++ tail.takeWhile (· != ']'), rest)

def read : Nat → List Char → Glob
  | 0, _ => []
  | _, [] => []
  | rounds + 1, c :: rest => match c with
    | '*' => .anyText :: read rounds rest
    | '?' => .anyChar :: read rounds rest
    | '[' => match set? rest with
      | some (negated, body, after) => .oneOf negated (ranges body) :: read rounds after
      | none => .char '[' :: read rounds rest
    | _ => .char c :: read rounds rest

def ofChars (pattern : List Char) : Glob :=
  read pattern.length pattern

/-- Whether some end of a text satisfies a test. -/
def someSuffix (test : List Char → Bool) : List Char → Bool
  | [] => test []
  | c :: rest => test (c :: rest) || someSuffix test rest

/-- Whether a part stands for a character. -/
def partAccepts (part : GlobPart) (c : Char) : Bool :=
  match part with
  | .char d => c == d
  | .anyChar => true
  | .anyText => false
  | .oneOf negated ranges => negated != ranges.any fun (first, last) => first ≤ c && c ≤ last

/-- Whether a pattern matches a whole text. A star stands for any characters, a slash among them. -/
def accepts : Glob → List Char → Bool
  | [], text => text.isEmpty
  | .anyText :: rest, text => someSuffix (accepts rest) text
  | part :: rest, text => match text with
    | [] => false
    | c :: others => partAccepts part c && accepts rest others

end Glob

end RenderProbe.Text
