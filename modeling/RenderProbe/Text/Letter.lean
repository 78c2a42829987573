import RenderProbe.Text.CasedTable
import RenderProbe.Text.UppercaseTable
import RenderProbe.Text.LowercaseTable
import RenderProbe.Text.IdentifierTable
import RenderProbe.Text.WordTable
import RenderProbe.Text.UnprintableTable
import RenderProbe.Text.DigitTable

/-!
# Character classes and case

Letters, identifiers, word characters, blanks and digits of Unicode text, and the lowercase form
that file names and component names are compared by.

* `isUppercaseLetter`: the class the first character of a component name belongs to.
* `isIdentifier`: texts that may name the wrapper function.
* `lowercase`: the lowercase form of a text.
-/

namespace RenderProbe.Text

/-- Membership of a code point in a table of ranges. -/
def inRanges (table : List (Nat × Nat)) (code : Nat) : Bool :=
  table.any fun (first, last) => first ≤ code && code ≤ last

/-- Membership of a code point in a table of runs. -/
def inRuns (table : List (Nat × Nat × Nat)) (code : Nat) : Bool :=
  table.any fun (first, last, step) =>
    first ≤ code && code ≤ last && (code - first) % step == 0

/-- A letter that is uppercase. -/
def isUppercaseLetter (c : Char) : Bool :=
  if c.toNat < 128 then c.isUpper else inRuns uppercaseRuns c.toNat

def isIdentifierStart (c : Char) : Bool :=
  if c.toNat < 128 then c.isAlpha || c == '_' else inRanges identifierStartRanges c.toNat

def isIdentifierPart (c : Char) : Bool :=
  if c.toNat < 128 then c.isAlphanum || c == '_'
  else inRanges identifierStartRanges c.toNat || inRanges identifierExtendRanges c.toNat

/-- A nonempty text that starts like an identifier and continues like one. -/
def isIdentifier (text : String) : Bool :=
  match text.toList with
  | [] => false
  | c :: rest => isIdentifierStart c && rest.all isIdentifierPart

/-- A character of a word: a letter, a digit, another numeric sign or the low line. -/
def isWordChar (c : Char) : Bool :=
  if c.toNat < 128 then c.isAlphanum || c == '_' else inRanges alphanumericRanges c.toNat

/-- A blank or line break. -/
def isBlank (c : Char) : Bool :=
  let n := c.toNat
  (9 ≤ n && n ≤ 13) || (28 ≤ n && n ≤ 32) || n == 0x85 || n == 0xA0 || n == 0x1680
    || (0x2000 ≤ n && n ≤ 0x200A) || n == 0x2028 || n == 0x2029 || n == 0x202F || n == 0x205F
    || n == 0x3000

/-- A character that a quoted text shows as it is. -/
def isPrintable (c : Char) : Bool :=
  if c.toNat < 127 then 32 ≤ c.toNat else !inRanges unprintableRanges c.toNat

/-- The value of a decimal digit of any script. The digits of a script stand in a row, so the code
point of its zero gives them all. -/
def digitValue? (c : Char) : Option Nat :=
  if c.isDigit then some (c.toNat - 48)
  else if c.toNat < 128 then none
  else (digitZeros.find? fun first => first ≤ c.toNat && c.toNat ≤ first + 9).map (c.toNat - ·)

def hexValue? (c : Char) : Option Nat :=
  if c.isDigit then some (c.toNat - 48)
  else if 'a' ≤ c && c ≤ 'f' then some (c.toNat - 87)
  else if 'A' ≤ c && c ≤ 'F' then some (c.toNat - 55)
  else none

/-- The number that hexadecimal digits spell. -/
def hexNumber? (digits : List Char) : Option Nat :=
  digits.foldl (fun value c => match value, hexValue? c with
    | some v, some d => some (v * 16 + d)
    | _, _ => none) (some 0)

/-- Blanks removed from both ends. -/
def trimBlanks (text : List Char) : List Char :=
  ((text.dropWhile isBlank).reverse.dropWhile isBlank).reverse

def trim (text : String) : String :=
  String.ofList (trimBlanks text.toList)

/-! ## Case -/

/-- The single lowercase form of a code point, itself when it has none. -/
def lowerCode (code : Nat) : Nat :=
  match lowercaseRuns.find? fun (first, last, step, _) =>
      first ≤ code && code ≤ last && (code - first) % step == 0 with
  | some (_, _, _, shift) => ((code : Int) + shift).toNat
  | none => code

/-- The lowercase form of one character, the capital sigma taken apart from its neighbours. -/
def lowerChar (c : Char) : List Char :=
  if c.toNat < 128 then [c.toLower]
  else if c.toNat == 0x130 then ['i', Char.ofNat 0x307]
  else [Char.ofNat (lowerCode c.toNat)]

/-- A letter with a case. -/
def isCased (c : Char) : Bool :=
  inRanges casedRanges c.toNat

/-- A character that stands inside a word without ending it. -/
def isWordInner (c : Char) : Bool :=
  inRanges wordInnerRanges c.toNat

/-- A capital sigma closes its word when a cased letter precedes it and none follows. Marks inside a
word are passed over in both directions. -/
def closesWord (before after : List Char) : Bool :=
  ((before.dropWhile isWordInner).head?.any isCased)
    && !((after.dropWhile isWordInner).head?.any isCased)

/-- The lowercase form of `rest`, where `before` is what precedes it, last character first. Only the
capital sigma depends on its neighbours, and one character becomes two. -/
def lowerFrom (before : List Char) : List Char → List Char
  | [] => []
  | c :: rest =>
    (if c == 'Σ' then [if closesWord before rest then 'ς' else 'σ'] else lowerChar c)
      ++ lowerFrom (c :: before) rest

def lowercase (text : String) : String :=
  String.ofList (lowerFrom [] text.toList)

end RenderProbe.Text
