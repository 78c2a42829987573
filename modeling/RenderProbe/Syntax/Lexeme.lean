import RenderProbe.Syntax.Cursor

/-!
# Lexemes

How many characters of a source a word, name, number, string, pattern literal or piece of text
takes. Every scanner looks at the front of the unread characters and answers `0` when its lexeme
does not stand there.
-/

namespace RenderProbe.Syntax

/-- How many characters at the front satisfy a test. -/
def countWhile (test : Char → Bool) (rest : List Char) : Nat :=
  (rest.takeWhile test).length

def markLength (mark : String) (rest : List Char) : Nat :=
  if mark.toList.isPrefixOf rest then mark.length else 0

/-- A punctuation mark that none of the given characters follows. -/
def markNotBefore (mark : String) (following : List Char) (rest : List Char) : Nat :=
  if mark.toList.isPrefixOf rest && !((rest.drop mark.length).head?.any following.contains) then
    mark.length
  else 0

/-- Any word: a name or keyword. -/
def wordLength : List Char → Nat
  | [] => 0
  | c :: rest => if isNameStart c then 1 + countWhile isNamePart rest else 0

def keywordLength (keyword : String) (rest : List Char) : Nat :=
  if keyword.toList.isPrefixOf rest
      && !((rest.drop keyword.length).head?.any isNamePart) then keyword.length
  else 0

def privateNameLength : List Char → Nat
  | '#' :: rest => match wordLength rest with
    | 0 => 0
    | n => n + 1
  | _ => 0

/-- A word that may hold hyphens, as markup names may. -/
def markupNameLength : List Char → Nat
  | [] => 0
  | c :: rest =>
    if isNameStart c then 1 + countWhile (fun d => isNamePart d || d == '-') rest else 0

/-! ## Literals -/

def isDigitOrSeparator (c : Char) : Bool :=
  c.isDigit || c == '_'

def exponentLength : List Char → Nat
  | e :: sign :: rest =>
    if e == 'e' || e == 'E' then
      if sign == '+' || sign == '-' then
        match countWhile isDigitOrSeparator rest with
        | 0 => 0
        | n => n + 2
      else match countWhile isDigitOrSeparator (sign :: rest) with
        | 0 => 0
        | n => n + 1
    else 0
  | _ => 0

/-- The digits of a number, without a look at what follows. -/
def numeralLength (rest : List Char) : Nat :=
  match rest with
  | '0' :: base :: digits =>
    if base ∈ ['x', 'X', 'b', 'B', 'o', 'O'] then
      2 + countWhile (fun c => c.isAlphanum || c == '_') digits
    else decimal rest
  | _ => decimal rest
where
  /-- A decimal number: digits, a fraction, an exponent or the mark of a big integer. -/
  decimal (rest : List Char) : Nat :=
    let whole := countWhile isDigitOrSeparator rest
    let afterWhole := rest.drop whole
    let fraction := match afterWhole with
      | '.' :: digits => 1 + countWhile isDigitOrSeparator digits
      | _ => 0
    if whole + fraction ≤ 1 && whole == 0 then 0
    else
      let n := whole + fraction + exponentLength (afterWhole.drop fraction)
      if (rest.drop n).head? == some 'n' then n + 1 else n

/-- A number that no letter follows. -/
def numberLength (rest : List Char) : Nat :=
  let n := numeralLength rest
  if (rest.drop n).head?.any isNameStart then 0 else n

/-- The rest of a string after its opening quote, given the characters read so far; a backslash
takes the next character with it and a bare line feed breaks the string off. -/
def stringTail (quote : Char) (count : Nat) : List Char → Nat
  | [] => 0
  | '\\' :: _ :: rest => stringTail quote (count + 2) rest
  | c :: rest =>
    if c == quote then count + 1
    else if c == '\n' then 0
    else stringTail quote (count + 1) rest

def stringLength : List Char → Nat
  | c :: rest => if c == '"' || c == '\'' then stringTail c 1 rest else 0
  | [] => 0

/-- The rest of a pattern literal after its opening slash; slashes inside a class are plain. -/
def patternTail (inClass : Bool) (count : Nat) : List Char → Nat
  | [] => 0
  | '\\' :: c :: rest => if c == '\n' then 0 else patternTail inClass (count + 2) rest
  | c :: rest =>
    if c == '\n' then 0
    else if c == '[' then patternTail true (count + 1) rest
    else if c == ']' then patternTail false (count + 1) rest
    else if c == '/' && !inClass then count + 1 + countWhile isNamePart rest
    else patternTail inClass (count + 1) rest

/-- A pattern literal between slashes, with its flags. -/
def patternLength : List Char → Nat
  | '/' :: c :: rest => if c == '/' || c == '*' then 0 else patternTail false 1 (c :: rest)
  | _ => 0

/-- The characters of a template up to its end or its next substitution. -/
def templateChunk (count : Nat) : List Char → Nat
  | [] => count
  | '\\' :: _ :: rest => templateChunk (count + 2) rest
  | '$' :: '{' :: _ => count
  | c :: rest => if c == '`' then count else templateChunk (count + 1) rest

/-! ## Markup text -/

/-- A character reference such as an ampersand, a name and a semicolon. -/
def referenceLength : List Char → Nat
  | '&' :: '#' :: x :: rest =>
    if x == 'x' || x == 'X' then closed 3 (countWhile isHexDigit rest) 6 rest
    else closed 2 (countWhile Char.isDigit (x :: rest)) 5 (x :: rest)
  | '&' :: rest => closed 1 (countWhile Char.isAlpha rest) 30 rest
  | _ => 0
where
  /-- A hexadecimal digit. -/
  isHexDigit (c : Char) : Bool :=
    c.isDigit || ('a' ≤ c && c ≤ 'f') || ('A' ≤ c && c ≤ 'F')
  /-- The reference's length, when it has one to `most` characters and a semicolon after them. -/
  closed (before count most : Nat) (rest : List Char) : Nat :=
    if 0 < count && count ≤ most && (rest.drop count).head? == some ';' then before + count + 1
    else 0

/-- The plain text between markup tags, up to a bracket, a brace or a reference. -/
def markupTextLength (rest : List Char) : Nat :=
  countWhile (fun c => !(c == '<' || c == '>' || c == '{' || c == '}' || c == '&')) rest

/-- The rest of a markup attribute's string after its quote, which has no escapes; an ampersand that
starts like a reference has to be one. -/
def attributeTail (quote : Char) (count : Nat) : List Char → Nat
  | [] => 0
  | c :: rest =>
    if c == quote then count + 1
    else if c == '&' && rest.head?.any (fun d => d == '#' || d.isAlpha)
        && referenceLength (c :: rest) == 0 then 0
    else attributeTail quote (count + 1) rest

def attributeStringLength : List Char → Nat
  | c :: rest => if c == '"' || c == '\'' then attributeTail c 1 rest else 0
  | [] => 0

/-! ## Reserved words -/

/-- Words that name no value. -/
def reservedWords : List String :=
  ["break", "case", "catch", "class", "const", "continue", "debugger", "default", "delete", "do",
   "else", "enum", "export", "extends", "finally", "for", "function", "if", "import", "in",
   "instanceof", "new", "null", "return", "super", "switch", "this", "throw", "true", "false",
   "try", "typeof", "var", "void", "while", "with"]

/-- A word that may name a value. -/
def isNameWord (word : String) : Bool :=
  word != "" && !reservedWords.contains word

/-- A name of a value. -/
def nameLength (rest : List Char) : Nat :=
  let n := wordLength rest
  if isNameWord (String.ofList (rest.take n)) then n else 0

end RenderProbe.Syntax
