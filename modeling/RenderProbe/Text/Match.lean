import RenderProbe.Text.Letter

/-!
# Matching text

Recognisers look at the front of a text and give the rest after what they recognise. Searching tries
a recogniser at every line start, where a line starts at the beginning and after each line feed.
-/

namespace RenderProbe.Text

def isIndent (c : Char) : Bool :=
  c == ' ' || c == '\t'

/-- The rest after spaces and tabs. -/
def skipIndent (text : List Char) : List Char :=
  text.dropWhile isIndent

/-- The rest after at least one space or tab. -/
def indent? : List Char → Option (List Char)
  | c :: rest => if isIndent c then some (skipIndent rest) else none
  | [] => none

def literal? : List Char → List Char → Option (List Char)
  | [], text => some text
  | _ :: _, [] => none
  | c :: wanted, d :: text => if c == d then literal? wanted text else none

/-- The rest after a word and at least one space or tab. -/
def wordThenIndent? (word : String) (text : List Char) : Option (List Char) :=
  (literal? word.toList text).bind indent?

/-- Whether a word starts or ends between two characters. The start and the end of a text count as
no word characters. -/
def isWordBoundary (before after : Option Char) : Bool :=
  before.any isWordChar != after.any isWordChar

/-- The rest after given characters that a word boundary follows; `before` is the character in front
of them. It is looked at only when nothing is wanted, where it decides. -/
def literalThenBoundary? (before : Option Char) (wanted text : List Char) : Option (List Char) :=
  match literal? wanted text with
  | none => none
  | some rest =>
    if isWordBoundary (wanted.getLast? <|> before) rest.head? then some rest else none

/-- Whether given characters occur with word boundaries around them. A name that ends in a dollar
has no boundary behind it before a blank, and is not found there. -/
def containsWord (wanted : List Char) (before : Option Char) : List Char → Bool
  | [] => wanted.isEmpty && isWordBoundary before none
  | c :: rest =>
    (isWordBoundary before (some c)
      && (literalThenBoundary? before wanted (c :: rest)).isSome)
    || containsWord wanted (some c) rest

/-! ## Line starts -/

/-- The first line start where a recogniser succeeds: the text before it and what was recognised.
`before` holds the text already passed, last character first. -/
def searchLinesFrom {α : Type} (recognise : List Char → Option α) (lineStart : Bool)
    (before : List Char) : List Char → Option (List Char × α)
  | [] => if lineStart then (recognise []).map fun found => (before.reverse, found) else none
  | c :: rest =>
    match if lineStart then recognise (c :: rest) else none with
    | some found => some (before.reverse, found)
    | none => searchLinesFrom recognise (c == '\n') (c :: before) rest

/-- The first line start where a recogniser succeeds. -/
def searchLines {α : Type} (recognise : List Char → Option α) (text : List Char) :
    Option (List Char × α) :=
  searchLinesFrom recognise true [] text

/-- What a recogniser finds at the line starts of a text, in order. What it takes is not skipped, as
a shape of one line leaves the next line start as it is. -/
def atLineStarts {α : Type} (recognise : List Char → Option α) (lineStart : Bool) :
    List Char → List α
  | [] => if lineStart then (recognise []).toList else []
  | c :: rest =>
    match if lineStart then recognise (c :: rest) else none with
    | some found => found :: atLineStarts recognise (c == '\n') rest
    | none => atLineStarts recognise (c == '\n') rest

end RenderProbe.Text
