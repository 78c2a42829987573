import RenderProbe.Text.Fields
import RenderProbe.Yaml.Moment

/-!
# Types of nodes

The type of a node is the one its tag names. A scalar without a tag and without quotes gets its type
from its form: words for truth values and for nothing, integers in several bases, numbers with a
point, dates, and two marks with a meaning as keys. Anything else is text.
-/

namespace RenderProbe.Yaml

/-- The type of a node. -/
inductive Kind where
  | null
  | bool
  | int
  | float
  | binary
  | timestamp
  | string
  /-- A key that brings in the pairs of other mappings. -/
  | merge
  /-- A key whose value stands for the whole mapping. -/
  | value
  | sequence
  | mapping
  | set
  | orderedMapping
  | pairs
  /-- A type that no value has. -/
  | unknown
  deriving DecidableEq, Inhabited

/-- The types that have a tag, by the word in it. -/
def Kind.labels : List (String × Kind) :=
  [("null", .null), ("bool", .bool), ("int", .int), ("float", .float), ("binary", .binary),
    ("timestamp", .timestamp), ("str", .string), ("merge", .merge), ("value", .value),
    ("seq", .sequence), ("map", .mapping), ("set", .set), ("omap", .orderedMapping),
    ("pairs", .pairs)]

/-- What the tags of these types start with. -/
def tagStart : String :=
  "tag:yaml.org,2002:"

def Kind.ofTag (tag : String) : Kind :=
  ((labels.find? fun (label, _) => tag == tagStart ++ label).map (·.2)).getD .unknown

/-! ## Words -/

def trueWords : List String :=
  ["yes", "Yes", "YES", "true", "True", "TRUE", "on", "On", "ON"]

def falseWords : List String :=
  ["no", "No", "NO", "false", "False", "FALSE", "off", "Off", "OFF"]

def nullWords : List String :=
  ["~", "null", "Null", "NULL", ""]

def isOneOf (words : List String) (text : List Char) : Bool :=
  words.any fun word => word.toList == text

/-! ## Numbers -/

/-- A text without the sign in front of it. -/
def unsigned : List Char → List Char
  | '-' :: rest => rest
  | '+' :: rest => rest
  | text => text

/-- At least one character, all of a class. -/
def isRunOf (test : Char → Bool) (text : List Char) : Bool :=
  !text.isEmpty && text.all test

/-- A digit or low line. -/
def isDigitOrLow (c : Char) : Bool :=
  c.isDigit || c == '_'

/-- A digit, then digits and low lines. -/
def isNumeral : List Char → Bool
  | c :: rest => c.isDigit && rest.all isDigitOrLow
  | [] => false

def isHexDigit (c : Char) : Bool :=
  c.isDigit || ('a' ≤ c && c ≤ 'f') || ('A' ≤ c && c ≤ 'F')

/-- One or two digits that count sixtieths. -/
def isSixtieth : List Char → Bool
  | [d] => d.isDigit
  | [t, d] => '0' ≤ t && t ≤ '5' && d.isDigit
  | _ => false

/-- A numeral followed by at least one count of sixtieths. -/
def isSexagesimal (text : List Char) : Bool :=
  match Text.fields ':' text with
  | first :: second :: rest => isNumeral first && (second :: rest).all isSixtieth
  | _ => false

/-- An integer: binary, octal, decimal, hexadecimal or in base sixty. -/
def isInt (text : List Char) : Bool :=
  match unsigned text with
  | '0' :: 'b' :: digits => isRunOf (fun c => c == '0' || c == '1' || c == '_') digits
  | '0' :: 'x' :: digits => isRunOf (fun c => isHexDigit c || c == '_') digits
  | ['0'] => true
  | '0' :: digits => isRunOf (fun c => ('0' ≤ c && c ≤ '7') || c == '_') digits
  | body => isNumeral body || isSexagesimal body

/-- Nothing, or a signed exponent. -/
def isExponent : List Char → Bool
  | [] => true
  | mark :: sign :: digits =>
    (mark == 'e' || mark == 'E') && (sign == '-' || sign == '+') && isRunOf Char.isDigit digits
  | _ => false

/-- The parts of a number before and after its first point, if it has one. -/
def atPoint? (text : List Char) : Option (List Char × List Char) :=
  match text.dropWhile (· != '.') with
  | _ :: after => some (text.takeWhile (· != '.'), after)
  | [] => none

/-- A number with a point, an infinity, or the value that is no number. -/
def isFloat (text : List Char) : Bool :=
  let body := unsigned text
  isOneOf [".inf", ".Inf", ".INF"] body || isOneOf [".nan", ".NaN", ".NAN"] text
    || match atPoint? body with
      | none => false
      | some (whole, after) =>
        let exponent := after.dropWhile isDigitOrLow
        (isNumeral whole && isExponent exponent)
          || (body == text && whole.isEmpty && isNumeral (after.takeWhile isDigitOrLow)
              && isExponent exponent)
          || (isSexagesimal whole && exponent.isEmpty)

/-! ## Types -/

/-- Marks that no text without quotes is; where one counts as such a text, it has a type that no
value has. -/
def markWords : List String :=
  ["!", "&", "*"]

/-- The type of a plain scalar. A line break at its end does not count, unless it is all there
is. -/
def Kind.ofPlain (text : List Char) : Kind :=
  let word := if text == ['\n'] then text else withoutLastBreak text
  if isOneOf trueWords word || isOneOf falseWords word then .bool
  else if isFloat word then .float
  else if isInt word then .int
  else if word == "<<".toList then .merge
  else if isOneOf nullWords word then .null
  else if isMoment text then .timestamp
  else if word == "=".toList then .value
  else if isOneOf markWords word then .unknown
  else .string

end RenderProbe.Yaml
