import RenderProbe.Decimal.Integer
import RenderProbe.Json.Basic

/-!
# Reading JSON

A text is read as one value with blanks around it. A text that is none is reported with the first
place where it stops being one.
-/

namespace RenderProbe.Json

/-- What is wrong with a text. -/
inductive Problem where
  | byteOrderMark
  | noValue
  | noName
  | noColon
  | noComma
  | openString
  | controlCharacter
  | unknownEscape
  | malformedUnit
  | extraData
  /-- A whole number of more digits than are read. -/
  | tooLong (digits : Nat)
  deriving DecidableEq, Inhabited

def Problem.label : Problem → String
  | byteOrderMark => "Unexpected UTF-8 BOM (decode using utf-8-sig)"
  | noValue => "Expecting value"
  | noName => "Expecting property name enclosed in double quotes"
  | noColon => "Expecting ':' delimiter"
  | noComma => "Expecting ',' delimiter"
  | openString => "Unterminated string starting at"
  | controlCharacter => "Invalid control character at"
  | unknownEscape => "Invalid \\escape"
  | malformedUnit => "Invalid \\uXXXX escape"
  | extraData => "Extra data"
  | tooLong digits => Decimal.tooLongMessage digits

/-- A problem and the number of characters from its place to the end. -/
structure Fault where
  problem : Problem
  left : Nat
  deriving DecidableEq, Inhabited

/-- What is read from the front of a text and the rest after it. -/
abbrev Reading (α : Type) := Except Fault (α × List Char)

def skipBlanks (text : List Char) : List Char :=
  text.dropWhile fun c => c == ' ' || c == '\t' || c == '\n' || c == '\r'

/-! ## Strings -/

/-- What a character stands for after a backslash. -/
def escaped? (c : Char) : Option Nat :=
  match c with
  | '"' => some 34
  | '\\' => some 92
  | '/' => some 47
  | 'b' => some 8
  | 'f' => some 12
  | 'n' => some 10
  | 'r' => some 13
  | 't' => some 9
  | _ => none

/-- Code points with pairs of surrogates put together; a lone surrogate is no character. -/
def joinSurrogates : List Nat → List Char
  | high :: low :: rest =>
    if 0xD800 ≤ high && high < 0xDC00 && 0xDC00 ≤ low && low < 0xE000 then
      Char.ofNat (0x10000 + (high - 0xD800) * 0x400 + (low - 0xDC00)) :: joinSurrogates rest
    else Char.ofNat high :: joinSurrogates (low :: rest)
  | [code] => [Char.ofNat code]
  | [] => []

/-- The rest of a string after its opening quote; `codes` holds what was read, last first, and
`opening` the number of characters from the quote on. -/
def readString (opening : Nat) (codes : List Nat) : List Char → Reading String
  | [] => .error ⟨.openString, opening⟩
  | '"' :: rest => .ok (String.ofList (joinSurrogates codes.reverse), rest)
  | ['\\'] => .error ⟨.openString, opening⟩
  | '\\' :: 'u' :: a :: b :: c :: d :: next :: rest =>
    match Text.hexNumber? [a, b, c, d] with
    | some code => readString opening (code :: codes) (next :: rest)
    | none => .error ⟨.malformedUnit, rest.length + 6⟩
  | '\\' :: 'u' :: rest => .error ⟨.malformedUnit, rest.length + 1⟩
  | '\\' :: c :: rest => match escaped? c with
    | some code => readString opening (code :: codes) rest
    | none => .error ⟨.unknownEscape, rest.length + 2⟩
  | c :: rest =>
    if c.toNat < 32 then .error ⟨.controlCharacter, rest.length + 1⟩
    else readString opening (c.toNat :: codes) rest

/-! ## Numbers -/

def digits (text : List Char) : List Char × List Char :=
  (text.takeWhile Char.isDigit, text.dropWhile Char.isDigit)

/-- The digits before a point or exponent. -/
def wholePart? : List Char → Option (List Char × List Char)
  | '0' :: rest => some (['0'], rest)
  | c :: rest => if c.isDigit then some (digits (c :: rest)) else none
  | [] => none

def fraction : List Char → List Char × List Char
  | '.' :: c :: rest =>
    if c.isDigit then let (more, after) := digits (c :: rest); ('.' :: more, after)
    else ([], '.' :: c :: rest)
  | text => ([], text)

/-- An exponent, if it is complete. -/
def exponent (text : List Char) : List Char × List Char :=
  match text with
  | mark :: rest =>
    if mark == 'e' || mark == 'E' then
      let (sign, unsigned) := match rest with
        | '+' :: more => (['+'], more)
        | '-' :: more => (['-'], more)
        | _ => ([], rest)
      let (power, after) := digits unsigned
      if power.isEmpty then ([], text) else (mark :: sign ++ power, after)
    else ([], text)
  | [] => ([], [])

/-- A number at the front of a text. -/
def readNumber? (text : List Char) : Option (String × List Char) :=
  let (sign, unsigned) := match text with
    | '-' :: rest => (['-'], rest)
    | _ => ([], text)
  match wholePart? unsigned with
  | none => none
  | some (whole, afterWhole) =>
    let (part, afterPart) := fraction afterWhole
    let (power, rest) := exponent afterPart
    some (String.ofList (sign ++ whole ++ part ++ power), rest)

/-- The number of digits of a whole number that has too many of them. -/
def overlong? (number : String) : Option Nat :=
  let digits := number.toList.filter Char.isDigit
  if number.all (fun c => c.isDigit || c == '-') && Decimal.digitLimit < digits.length then
    some digits.length
  else none

/-! ## Values -/

def words : List (String × Json) :=
  [("null", .null), ("true", .bool true), ("false", .bool false), ("NaN", .number "NaN"),
   ("Infinity", .number "Infinity"), ("-Infinity", .number "-Infinity")]

/-- A word or number at the front of a text. -/
def readPlain (text : List Char) : Reading Json :=
  match words.find? fun word => word.1.toList.isPrefixOf text with
  | some (word, value) => .ok (value, text.drop word.length)
  | none => match readNumber? text with
    | some (digits, rest) => match overlong? digits with
      | some count => .error ⟨.tooLong count, text.length⟩
      | none => .ok (.number digits, rest)
    | none => .error ⟨.noValue, text.length⟩

mutual

/-- A value at the front of a text, nested and repeated at most `rounds` times. -/
def readValue : Nat → List Char → Reading Json
  | 0, text => .error ⟨.noValue, text.length⟩
  | rounds + 1, text => match text with
    | '"' :: rest => match readString text.length [] rest with
      | .ok (value, after) => .ok (.string value, after)
      | .error e => .error e
    | '[' :: rest => match skipBlanks rest with
      | ']' :: after => .ok (.array [], after)
      | items => readItems rounds [] items
    | '\x7b' :: rest => match skipBlanks rest with
      | '\x7d' :: after => .ok (.object [], after)
      | members => readMembers rounds [] members
    | _ => readPlain text

/-- Items up to the end of an array; `items` holds those read, last first. -/
def readItems : Nat → List Json → List Char → Reading Json
  | 0, _, text => .error ⟨.noValue, text.length⟩
  | rounds + 1, items, text => match readValue rounds text with
    | .error e => .error e
    | .ok (item, after) => match skipBlanks after with
      | ']' :: rest => .ok (.array (item :: items).reverse, rest)
      | ',' :: rest => readItems rounds (item :: items) (skipBlanks rest)
      | rest => .error ⟨.noComma, rest.length⟩

/-- Members up to the end of an object; `members` holds those read, last first. -/
def readMembers : Nat → List (String × Json) → List Char → Reading Json
  | 0, _, text => .error ⟨.noValue, text.length⟩
  | rounds + 1, members, text => match text with
    | '"' :: rest => match readString text.length [] rest with
      | .error e => .error e
      | .ok (name, afterName) => match skipBlanks afterName with
        | ':' :: afterColon => match readValue rounds (skipBlanks afterColon) with
          | .error e => .error e
          | .ok (value, afterValue) => match skipBlanks afterValue with
            | '\x7d' :: after => .ok (.object ((name, value) :: members).reverse, after)
            | ',' :: after => readMembers rounds ((name, value) :: members) (skipBlanks after)
            | after => .error ⟨.noComma, after.length⟩
        | after => .error ⟨.noColon, after.length⟩
    | _ => .error ⟨.noName, text.length⟩

end

def parse (text : List Char) : Except Fault Json :=
  match text with
  | [] => .error ⟨.noValue, 0⟩
  | first :: _ =>
    if first.toNat == 0xFEFF then .error ⟨.byteOrderMark, text.length⟩
    else match readValue (2 * text.length + 2) (skipBlanks text) with
      | .error e => .error e
      | .ok (value, after) => match skipBlanks after with
        | [] => .ok value
        | rest => .error ⟨.extraData, rest.length⟩

/-- What is said about a fault of a text. Where a number is too long, its place is not told. -/
def Fault.message (fault : Fault) (text : List Char) : String :=
  let offset := text.length - fault.left
  let before := text.take offset
  let line := before.count '\n' + 1
  let column := (before.reverse.takeWhile (· != '\n')).length + 1
  match fault.problem with
  | .tooLong _ => fault.problem.label
  | _ => s!"{fault.problem.label}: line {line} column {column} (char {offset})"

end RenderProbe.Json
